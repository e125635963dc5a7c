import SqlCompose.Identifier

/-! SQL text as a lexer reads it: words, quoted names with the closing quote written twice inside,
and single marks. No character is lost, and two texts can be read apart where neither a word nor a
quoted name goes on from one to the other. -/

namespace SqlCompose

inductive Lexeme where
  | word (chars : List Char)
  /-- A quoted name, without its quotes and with doubled closing quotes read as one. -/
  | quoted (body : List Char)
  /-- A quoted name that the text does not close. -/
  | unclosed (body : List Char)
  | mark (char : Char)
deriving DecidableEq, Repr

namespace Lexeme

def text (q : QuotePair) : Lexeme → List Char
  | .word cs => cs
  | .quoted cs => q.opening :: Doubling.double q.closing cs ++ [q.closing]
  | .unclosed cs => q.opening :: Doubling.double q.closing cs
  | .mark c => [c]

end Lexeme

namespace Lexer

/-- ASCII letters, digits, the underscore and the dollar sign. -/
def isWordChar (c : Char) : Bool := c.isAlphanum || c == '_' || c == '$'

/-- What has been read of a lexeme that may go on. -/
inductive Pending where
  | nothing
  | word (chars : List Char)
  | quoted (body : List Char)
  /-- A closing quote has been read, and a second one would belong to the name. -/
  | closed (body : List Char)
deriving DecidableEq, Repr

namespace Pending

def text (q : QuotePair) : Pending → List Char
  | .nothing => []
  | .word cs => cs
  | .quoted cs => q.opening :: Doubling.double q.closing cs
  | .closed cs => q.opening :: Doubling.double q.closing cs ++ [q.closing]

/-- The lexeme that stands when the text ends here. -/
def finish : Pending → List Lexeme
  | .nothing => []
  | .word cs => [.word cs]
  | .quoted cs => [.unclosed cs]
  | .closed cs => [.quoted cs]

/-- Nothing is pending but possibly a word. -/
def Plain : Pending → Prop
  | .nothing => True
  | .word _ => True
  | .quoted _ => False
  | .closed _ => False

/-- What follows does not belong to the pending lexeme. -/
def Ends (q : QuotePair) (rest : List Char) : Pending → Prop
  | .nothing => True
  | .word _ => ∀ c ∈ rest.head?, isWordChar c = false
  | .quoted _ => False
  | .closed _ => ∀ c ∈ rest.head?, c ≠ q.closing

end Pending

/-- A character with which a lexeme starts. -/
def start (q : QuotePair) (c : Char) : List Lexeme × Pending :=
  if isWordChar c then ([], .word [c])
  else if c = q.opening then ([], .quoted [])
  else ([.mark c], .nothing)

/-- The lexemes that a character completes, and what is pending after it. -/
def step (q : QuotePair) (p : Pending) (c : Char) : List Lexeme × Pending :=
  match p with
  | .nothing => start q c
  | .word cs =>
    if isWordChar c then ([], .word (cs ++ [c]))
    else (.word cs :: (start q c).1, (start q c).2)
  | .quoted cs => if c = q.closing then ([], .closed cs) else ([], .quoted (cs ++ [c]))
  | .closed cs =>
    if c = q.closing then ([], .quoted (cs ++ [c]))
    else (.quoted cs :: (start q c).1, (start q c).2)

def run (q : QuotePair) (p : Pending) : List Char → List Lexeme × Pending
  | [] => ([], p)
  | c :: cs =>
    ((step q p c).1 ++ (run q (step q p c).2 cs).1, (run q (step q p c).2 cs).2)

/-- The lexemes of a text that goes on from what is pending. -/
def scan (q : QuotePair) (p : Pending) (cs : List Char) : List Lexeme :=
  (run q p cs).1 ++ (run q p cs).2.finish

/-- The lexemes of a text. -/
def lex (q : QuotePair) (cs : List Char) : List Lexeme := scan q .nothing cs

variable {q : QuotePair}

theorem start_text (c : Char) :
    (start q c).1.flatMap (Lexeme.text q) ++ (start q c).2.text q = [c] := by
  unfold start
  split
  · rfl
  · split
    · rename_i h
      simp [Pending.text, Doubling.double, h]
    · simp [Pending.text, Lexeme.text]

theorem step_text (p : Pending) (c : Char) :
    (step q p c).1.flatMap (Lexeme.text q) ++ (step q p c).2.text q = p.text q ++ [c] := by
  have hs := start_text (q := q) c
  cases p with
  | nothing => exact hs
  | word cs =>
    by_cases hc : isWordChar c = true
    · simp [step, hc, Pending.text]
    · have he : step q (.word cs) c = (.word cs :: (start q c).1, (start q c).2) := by
        simp [step, hc]
      rw [he, List.flatMap_cons, List.append_assoc, hs]
      rfl
  | quoted cs =>
    by_cases hc : c = q.closing
    · simp [step, hc, Pending.text]
    · simp [step, hc, Pending.text, Doubling.double_append, Doubling.double]
  | closed cs =>
    by_cases hc : c = q.closing
    · simp [step, hc, Pending.text, Doubling.double_append, Doubling.double]
    · have he : step q (.closed cs) c = (.quoted cs :: (start q c).1, (start q c).2) := by
        simp [step, hc]
      rw [he, List.flatMap_cons, List.append_assoc, hs]
      rfl

theorem run_text (p : Pending) (cs : List Char) :
    (run q p cs).1.flatMap (Lexeme.text q) ++ (run q p cs).2.text q = p.text q ++ cs := by
  induction cs generalizing p with
  | nil => simp [run]
  | cons c cs ih =>
    rw [run, List.flatMap_append, List.append_assoc, ih, ← List.append_assoc, step_text,
      List.append_assoc, List.singleton_append]

theorem finish_text (p : Pending) : p.finish.flatMap (Lexeme.text q) = p.text q := by
  cases p <;> simp [Pending.finish, Pending.text, Lexeme.text]

/-- Reading loses nothing: the lexemes spell the text. -/
theorem flatMap_text_lex (cs : List Char) : (lex q cs).flatMap (Lexeme.text q) = cs := by
  rw [lex, scan, List.flatMap_append, finish_text, run_text]
  rfl

theorem run_append (p : Pending) (as bs : List Char) :
    run q p (as ++ bs) =
      ((run q p as).1 ++ (run q (run q p as).2 bs).1, (run q (run q p as).2 bs).2) := by
  induction as generalizing p with
  | nil => simp [run]
  | cons a as ih => simp [run, ih]

theorem scan_of_ends {p : Pending} {cs : List Char} (h : p.Ends q cs) :
    scan q p cs = p.finish ++ lex q cs := by
  cases p with
  | nothing => rfl
  | word w =>
    cases cs with
    | nil => simp [lex, scan, run, Pending.finish]
    | cons c cs =>
      have hc : isWordChar c = false := h c rfl
      simp [lex, scan, run, step, hc, Pending.finish]
  | quoted w => exact False.elim h
  | closed w =>
    cases cs with
    | nil => simp [lex, scan, run, Pending.finish]
    | cons c cs =>
      have hc : c ≠ q.closing := h c rfl
      simp [lex, scan, run, step, hc, Pending.finish]

/-- Two texts are read apart where the second does not go on with the last lexeme of the first. -/
theorem lex_append {as bs : List Char} (h : (run q .nothing as).2.Ends q bs) :
    lex q (as ++ bs) = lex q as ++ lex q bs := by
  have he := scan_of_ends h
  rw [scan] at he
  rw [lex, scan, run_append, List.append_assoc, he, ← List.append_assoc]
  rfl

theorem run_word {p cs : List Char} (h : ∀ c ∈ cs, isWordChar c = true) :
    run q (.word p) cs = ([], .word (p ++ cs)) := by
  induction cs generalizing p with
  | nil => simp [run]
  | cons c cs ih =>
    have hc := h c List.mem_cons_self
    simp [run, step, hc, ih fun b hb => h b (List.mem_cons_of_mem _ hb)]

theorem run_word_cons {c : Char} {cs : List Char} (h : ∀ b ∈ c :: cs, isWordChar b = true) :
    run q .nothing (c :: cs) = ([], .word (c :: cs)) := by
  have hc := h c List.mem_cons_self
  simp [run, step, start, hc, run_word fun b hb => h b (List.mem_cons_of_mem _ hb)]

theorem run_quoted (p cs : List Char) :
    run q (.quoted p) (Doubling.double q.closing cs ++ [q.closing]) =
      ([], .closed (p ++ cs)) := by
  induction cs generalizing p with
  | nil => simp [Doubling.double, run, step]
  | cons c cs ih =>
    by_cases hc : c = q.closing
    · simp [Doubling.double, hc, run, step, ih]
    · simp [Doubling.double, hc, run, step, ih]

theorem run_quoted_name (hq : isWordChar q.opening = false) (cs : List Char) :
    run q .nothing (q.opening :: Doubling.double q.closing cs ++ [q.closing]) =
      ([], .closed cs) := by
  rw [List.cons_append, run]
  simp [step, start, hq, run_quoted]

/-- Without an opening quote no quoted name starts. -/
theorem step_plain {p : Pending} {c : Char} (hp : p.Plain) (hc : c ≠ q.opening) :
    (step q p c).2.Plain := by
  cases p with
  | nothing => by_cases h : isWordChar c = true <;> simp [step, start, h, hc, Pending.Plain]
  | word cs => by_cases h : isWordChar c = true <;> simp [step, start, h, hc, Pending.Plain]
  | quoted cs => exact False.elim hp
  | closed cs => exact False.elim hp

theorem run_plain {p : Pending} {cs : List Char} (hp : p.Plain) (h : ∀ c ∈ cs, c ≠ q.opening) :
    (run q p cs).2.Plain := by
  induction cs generalizing p with
  | nil => exact hp
  | cons c cs ih =>
    exact ih (step_plain hp (h c List.mem_cons_self)) fun b hb => h b (List.mem_cons_of_mem _ hb)

/-- After a mark nothing is pending. -/
theorem run_concat_mark {p : Pending} {cs : List Char} {c : Char} (hp : p.Plain)
    (h : ∀ b ∈ cs, b ≠ q.opening) (hc : c ≠ q.opening) (hmark : isWordChar c = false) :
    (run q p (cs ++ [c])).2 = .nothing := by
  have hplain := run_plain hp h
  rw [run_append]
  cases hr : (run q p cs).2 with
  | nothing => simp [run, step, start, hmark, hc]
  | word w => simp [run, step, start, hmark, hc]
  | quoted w => simp [hr, Pending.Plain] at hplain
  | closed w => simp [hr, Pending.Plain] at hplain

/-- Texts without opening quotes are read alike whatever the quotes are. -/
theorem run_eq_of_plain {r : QuotePair} {p : Pending} {cs : List Char} (hp : p.Plain)
    (hq : ∀ c ∈ cs, c ≠ q.opening) (hr : ∀ c ∈ cs, c ≠ r.opening) : run q p cs = run r p cs := by
  induction cs generalizing p with
  | nil => rfl
  | cons c cs ih =>
    have hcq := hq c List.mem_cons_self
    have hcr := hr c List.mem_cons_self
    have hstep : step q p c = step r p c := by
      cases p with
      | nothing => simp [step, start, hcq, hcr]
      | word w => simp [step, start, hcq, hcr]
      | quoted w => exact False.elim hp
      | closed w => exact False.elim hp
    rw [run, run, hstep, ih (hstep ▸ step_plain hp hcq)
      (fun b hb => hq b (List.mem_cons_of_mem _ hb))
      fun b hb => hr b (List.mem_cons_of_mem _ hb)]

theorem lex_eq_of_plain {r : QuotePair} {cs : List Char} (hq : ∀ c ∈ cs, c ≠ q.opening)
    (hr : ∀ c ∈ cs, c ≠ r.opening) : lex q cs = lex r cs := by
  rw [lex, lex, scan, scan, run_eq_of_plain (p := .nothing) trivial hq hr]

end Lexer

end SqlCompose
