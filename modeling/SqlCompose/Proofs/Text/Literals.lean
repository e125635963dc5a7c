import SqlCompose.Proofs.Text.Lexer

/-! String literals in SQL text. A single quote opens one, with `N` or `X` before it or not, two quotes
in it stand for one, and the next quote closes it. Quotes inside a quoted name open nothing. -/

namespace SqlCompose

/-- A lexeme that is no string literal, or a string literal. -/
inductive Segment where
  | plain (lexeme : Lexeme)
  | string (lead body : List Char)
  /-- A string literal that the text does not close. -/
  | unclosed (lead body : List Char)
deriving DecidableEq, Repr

def Segment.text (q : QuotePair) : Segment → List Char
  | .plain l => l.text q
  | .string lead body => lead ++ '\x27' :: Doubling.double '\x27' body ++ ['\x27']
  | .unclosed lead body => lead ++ '\x27' :: Doubling.double '\x27' body

namespace LiteralLexer

/-- What has been read of a segment that may go on. -/
inductive Pending where
  | outside (pending : Lexer.Pending)
  | inside (lead body : List Char)
  /-- A closing quote has been read, and a second one would belong to the literal. -/
  | closed (lead body : List Char)
deriving DecidableEq, Repr

namespace Pending

def text (q : QuotePair) : Pending → List Char
  | .outside p => p.text q
  | .inside lead body => lead ++ '\x27' :: Doubling.double '\x27' body
  | .closed lead body => lead ++ '\x27' :: Doubling.double '\x27' body ++ ['\x27']

def finish : Pending → List Segment
  | .outside p => p.finish.map .plain
  | .inside lead body => [.unclosed lead body]
  | .closed lead body => [.string lead body]

/-- What follows does not belong to the pending segment. -/
def Ends (q : QuotePair) (rest : List Char) : Pending → Prop
  | .outside .nothing => True
  | .outside p => p.Ends q rest ∧ ∀ c ∈ rest.head?, c ≠ '\x27'
  | .inside _ _ => False
  | .closed _ _ => ∀ c ∈ rest.head?, c ≠ '\x27'

end Pending

/-- The words that may stand directly before the quote of a literal. -/
def leads : List (List Char) := [['N'], ['X']]

/-- A character that opens no literal. -/
def pass (q : QuotePair) (p : Lexer.Pending) (c : Char) : List Segment × Pending :=
  ((Lexer.step q p c).1.map .plain, .outside (Lexer.step q p c).2)

/-- A single quote after what is pending. -/
def openLiteral : Lexer.Pending → List Segment × Pending
  | .word w => if w ∈ leads then ([], .inside w []) else ([.plain (.word w)], .inside [] [])
  | p => (p.finish.map .plain, .inside [] [])

/-- Whether a single quote is a character of the pending name. -/
def inName : Lexer.Pending → Bool
  | .quoted _ => true
  | _ => false

/-- The segments that a character completes, and what is pending after it. -/
def step (q : QuotePair) (p : Pending) (c : Char) : List Segment × Pending :=
  match p with
  | .outside p => if c = '\x27' ∧ inName p = false then openLiteral p else pass q p c
  | .inside lead body =>
    if c = '\x27' then ([], .closed lead body) else ([], .inside lead (body ++ [c]))
  | .closed lead body =>
    if c = '\x27' then ([], .inside lead (body ++ [c]))
    else (.string lead body :: (pass q .nothing c).1, (pass q .nothing c).2)

def run (q : QuotePair) (p : Pending) : List Char → List Segment × Pending
  | [] => ([], p)
  | c :: cs =>
    ((step q p c).1 ++ (run q (step q p c).2 cs).1, (run q (step q p c).2 cs).2)

/-- The segments of a text that goes on from what is pending. -/
def scan (q : QuotePair) (p : Pending) (cs : List Char) : List Segment :=
  (run q p cs).1 ++ (run q p cs).2.finish

/-- The segments of a text. -/
def lex (q : QuotePair) (cs : List Char) : List Segment := scan q (.outside .nothing) cs

variable {q : QuotePair}

theorem flatMap_text_plain (ls : List Lexeme) :
    (ls.map Segment.plain).flatMap (Segment.text q) = ls.flatMap (Lexeme.text q) := by
  rw [List.flatMap_map]
  rfl

theorem pass_text (p : Lexer.Pending) (c : Char) :
    (pass q p c).1.flatMap (Segment.text q) ++ (pass q p c).2.text q = p.text q ++ [c] := by
  rw [pass, flatMap_text_plain]
  exact Lexer.step_text p c

theorem openLiteral_text (p : Lexer.Pending) :
    (openLiteral p).1.flatMap (Segment.text q) ++ (openLiteral p).2.text q =
      p.text q ++ ['\x27'] := by
  unfold openLiteral
  split
  · split
    · simp [Pending.text, Doubling.double, Lexer.Pending.text]
    · simp [Segment.text, Lexeme.text, Pending.text, Doubling.double, Lexer.Pending.text]
  · rw [flatMap_text_plain, Lexer.finish_text]
    rfl

theorem step_text (p : Pending) (c : Char) :
    (step q p c).1.flatMap (Segment.text q) ++ (step q p c).2.text q = p.text q ++ [c] := by
  cases p with
  | outside p =>
    by_cases hc : c = '\x27' ∧ inName p = false
    · rw [step, if_pos hc, openLiteral_text, hc.1]
      rfl
    · rw [step, if_neg hc, pass_text]
      rfl
  | inside lead body =>
    by_cases hc : c = '\x27'
    · simp [step, hc, Pending.text]
    · simp [step, hc, Pending.text, Doubling.double_append, Doubling.double]
  | closed lead body =>
    by_cases hc : c = '\x27'
    · simp [step, hc, Pending.text, Doubling.double_append, Doubling.double]
    · have hstep : step q (.closed lead body) c =
          (.string lead body :: (pass q .nothing c).1, (pass q .nothing c).2) := if_neg hc
      rw [hstep, List.flatMap_cons, List.append_assoc, pass_text]
      rfl

theorem run_text (p : Pending) (cs : List Char) :
    (run q p cs).1.flatMap (Segment.text q) ++ (run q p cs).2.text q = p.text q ++ cs := by
  induction cs generalizing p with
  | nil => simp [run]
  | cons c cs ih =>
    rw [run, List.flatMap_append, List.append_assoc, ih, ← List.append_assoc, step_text,
      List.append_assoc, List.singleton_append]

theorem finish_text (p : Pending) : p.finish.flatMap (Segment.text q) = p.text q := by
  cases p with
  | outside p => exact (flatMap_text_plain p.finish).trans (Lexer.finish_text p)
  | inside lead body => simp [Pending.finish, Pending.text, Segment.text]
  | closed lead body => simp [Pending.finish, Pending.text, Segment.text]

/-- Reading loses nothing: the segments spell the text. -/
theorem flatMap_text_lex (cs : List Char) : (lex q cs).flatMap (Segment.text q) = cs := by
  rw [lex, scan, List.flatMap_append, finish_text, run_text]
  rfl

theorem run_append (p : Pending) (as bs : List Char) :
    run q p (as ++ bs) =
      ((run q p as).1 ++ (run q (run q p as).2 bs).1, (run q (run q p as).2 bs).2) := by
  induction as generalizing p with
  | nil => simp [run]
  | cons a as ih => simp [run, ih]

theorem Pending.ends_outside {p : Lexer.Pending} {rest : List Char} (h : p.Ends q rest)
    (hrest : ∀ c ∈ rest.head?, c ≠ '\x27') : (Pending.outside p).Ends q rest := by
  cases p with
  | nothing => trivial
  | word w => exact ⟨h, hrest⟩
  | quoted w => exact False.elim h
  | closed w => exact ⟨h, hrest⟩

/-- Whatever follows, nothing goes on with what is pending only if nothing is. -/
theorem eq_nothing_of_ends {p : Lexer.Pending} (h : ∀ rest, p.Ends q rest) : p = .nothing := by
  cases p with
  | nothing => rfl
  | word w => exact absurd (h ['a'] 'a' rfl) (by decide)
  | quoted w => exact False.elim (h [])
  | closed w => exact absurd rfl (h [q.closing] q.closing rfl)

theorem step_of_ends {p : Pending} {c : Char} {cs : List Char} (h : p.Ends q (c :: cs)) :
    step q p c =
      (p.finish ++ (step q (.outside .nothing) c).1, (step q (.outside .nothing) c).2) := by
  cases p with
  | outside p =>
    cases p with
    | nothing => rfl
    | word w =>
      have hc : c ≠ '\x27' := h.2 c rfl
      have hword : Lexer.isWordChar c = false := h.1 c rfl
      simp [step, hc, pass, Lexer.step, hword, Pending.finish, Lexer.Pending.finish]
    | quoted w => exact False.elim h.1
    | closed w =>
      have hc : c ≠ '\x27' := h.2 c rfl
      have hclosing : c ≠ q.closing := h.1 c rfl
      simp [step, hc, pass, Lexer.step, hclosing, Pending.finish, Lexer.Pending.finish]
  | inside lead body => exact False.elim h
  | closed lead body =>
    have hc : c ≠ '\x27' := h c rfl
    simp [step, hc, pass, Pending.finish]

theorem scan_of_ends {p : Pending} {cs : List Char} (h : p.Ends q cs) :
    scan q p cs = p.finish ++ lex q cs := by
  cases cs with
  | nil => simp [lex, scan, run, Pending.finish, Lexer.Pending.finish]
  | cons c cs => simp only [lex, scan, run, step_of_ends h, List.append_assoc]

/-- Two texts are read apart where the second does not go on with the last segment of the first. -/
theorem lex_append {as bs : List Char} (h : (run q (.outside .nothing) as).2.Ends q bs) :
    lex q (as ++ bs) = lex q as ++ lex q bs := by
  have he := scan_of_ends h
  rw [scan] at he
  rw [lex, scan, run_append, List.append_assoc, he, ← List.append_assoc]
  rfl

theorem run_word_of_leads {w : List Char} (h : w ∈ leads) :
    run q (.outside .nothing) w = ([], .outside (.word w)) := by
  simp only [leads, List.mem_cons, List.not_mem_nil, or_false] at h
  rcases h with rfl | rfl <;> rfl

theorem run_inside (lead p cs : List Char) :
    run q (.inside lead p) (Doubling.double '\x27' cs ++ ['\x27']) =
      ([], .closed lead (p ++ cs)) := by
  induction cs generalizing p with
  | nil => simp [Doubling.double, run, step]
  | cons c cs ih =>
    by_cases hc : c = '\x27'
    · simp [Doubling.double, hc, run, step, ih]
    · simp [Doubling.double, hc, run, step, ih]

/-- A text between quotes that are doubled inside is read as one literal. -/
theorem run_literal {lead : List Char} (h : lead = [] ∨ lead ∈ leads) (cs : List Char) :
    run q (.outside .nothing) (lead ++ '\x27' :: Doubling.double '\x27' cs ++ ['\x27']) =
      ([], .closed lead cs) := by
  have hopen : run q (.outside .nothing) (lead ++ ['\x27']) = ([], .inside lead []) := by
    rcases h with rfl | h
    · rfl
    · rw [run_append, run_word_of_leads h]
      simp [run, step, inName, openLiteral, h]
  have hsplit : lead ++ '\x27' :: Doubling.double '\x27' cs ++ ['\x27'] =
      lead ++ ['\x27'] ++ (Doubling.double '\x27' cs ++ ['\x27']) := by simp
  rw [hsplit, run_append, hopen, run_inside]
  rfl

/-- Without single quotes the lexemes of a text are its segments. -/
theorem run_pass {p : Lexer.Pending} {cs : List Char} (h : ∀ c ∈ cs, c ≠ '\x27') :
    run q (.outside p) cs =
      ((Lexer.run q p cs).1.map .plain, .outside (Lexer.run q p cs).2) := by
  induction cs generalizing p with
  | nil => rfl
  | cons c cs ih =>
    have hc := h c List.mem_cons_self
    have hstep : step q (.outside p) c = pass q p c := if_neg fun hq => hc hq.1
    rw [run, hstep, pass, ih fun b hb => h b (List.mem_cons_of_mem _ hb), Lexer.run, List.map_append]

/-- In a quoted name a single quote is a character like others. -/
theorem run_name (hq : q.closing ≠ '\x27') (p cs : List Char) :
    run q (.outside (.quoted p)) (Doubling.double q.closing cs ++ [q.closing]) =
      ([], .outside (.closed (p ++ cs))) := by
  induction cs generalizing p with
  | nil => simp [Doubling.double, run, step, hq, pass, Lexer.step]
  | cons c cs ih =>
    by_cases hc : c = q.closing
    · simp [Doubling.double, hc, run, step, hq, pass, Lexer.step, ih]
    · simp [Doubling.double, hc, run, step, inName, pass, Lexer.step, ih]

end LiteralLexer

/-- A string literal in a text: from where to where it goes, and what it says. -/
structure StringLiteral where
  start : Nat
  stop : Nat
  content : String
  closed : Bool
deriving DecidableEq, Repr

namespace Segment

variable {q : QuotePair}

/-- The literals among the segments of a text before which `start` characters stand. -/
def literalsFrom (q : QuotePair) : Nat → List Segment → List StringLiteral
  | _, [] => []
  | start, s :: ss =>
    let stop := start + (s.text q).length
    let rest := literalsFrom q stop ss
    match s with
    | .plain _ => rest
    | .string _ body => ⟨start, stop, String.ofList body, true⟩ :: rest
    | .unclosed _ body => ⟨start, stop, String.ofList body, false⟩ :: rest

theorem literalsFrom_append (start : Nat) (ss ts : List Segment) :
    literalsFrom q start (ss ++ ts) = literalsFrom q start ss ++
      literalsFrom q (start + (ss.flatMap (text q)).length) ts := by
  induction ss generalizing start with
  | nil => simp [literalsFrom]
  | cons s ss ih =>
    rw [List.cons_append, List.flatMap_cons, List.length_append, ← Nat.add_assoc]
    cases s <;> simp [literalsFrom, ih]

theorem literalsFrom_plain (start : Nat) (ls : List Lexeme) :
    literalsFrom q start (ls.map .plain) = [] := by
  induction ls generalizing start with
  | nil => rfl
  | cons l ls ih => exact ih _

end Segment

/-- The string literals that a lexer finds in a text. -/
def stringLiterals (q : QuotePair) (sql : String) : List StringLiteral :=
  Segment.literalsFrom q 0 (LiteralLexer.lex q sql.toList)

end SqlCompose
