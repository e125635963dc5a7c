/-! A delimiter inside a delimited SQL text is written twice. `double` writes that form and
`collapse` reads it back. -/

namespace SqlCompose.Doubling

/-- Every occurrence of `mark` is written twice. -/
def double (mark : Char) : List Char → List Char
  | [] => []
  | c :: cs => if c = mark then mark :: mark :: double mark cs else c :: double mark cs

/-- Two neighbouring marks, taken from the left, become one. A mark that stands alone stays. -/
def collapse (mark : Char) : List Char → List Char
  | [] => []
  | [c] => [c]
  | a :: b :: cs =>
    if a = mark ∧ b = mark then mark :: collapse mark cs else a :: collapse mark (b :: cs)

theorem double_cons_self (mark : Char) (cs : List Char) :
    double mark (mark :: cs) = mark :: mark :: double mark cs := by
  simp [double]

theorem double_cons_of_ne {mark c : Char} (h : c ≠ mark) (cs : List Char) :
    double mark (c :: cs) = c :: double mark cs := by
  simp [double, h]

theorem collapse_cons_of_ne {mark c : Char} (h : c ≠ mark) (cs : List Char) :
    collapse mark (c :: cs) = c :: collapse mark cs := by
  cases cs <;> simp [collapse, h]

theorem collapse_double (mark : Char) (cs : List Char) : collapse mark (double mark cs) = cs := by
  induction cs with
  | nil => rfl
  | cons c cs ih =>
    by_cases h : c = mark
    · simp [h, double, collapse, ih]
    · simp [double_cons_of_ne h, collapse_cons_of_ne h, ih]

theorem double_append (mark : Char) (as bs : List Char) :
    double mark (as ++ bs) = double mark as ++ double mark bs := by
  induction as with
  | nil => rfl
  | cons a as ih => by_cases h : a = mark <;> simp [double, h, ih]

end SqlCompose.Doubling
