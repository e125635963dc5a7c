import Mathlib.Data.List.Chain
import SqlCompose.Dialect.Catalog
import SqlCompose.Proofs.Text.Identifiers
import SqlCompose.Proofs.Text.Lexer
import SqlCompose.Sql.Piece

/-! Where one piece of a statement ends and the next begins. Between two pieces stands a mark of one
of the texts, so that a lexer reads each piece by itself and no character of one piece is taken for
part of another. -/

namespace SqlCompose

/-- The quotes of names and of literals and the lead of placeholders, none of which fixed text
contains. -/
def reserved : List Char := ['?', '$', '\x22', '\x60', '[', ']', '\x27']

/-- Quotes and placeholders are told from words and from one another. -/
structure Dialect.Regular (d : Dialect) : Prop where
  opening : d.quotes.opening ∈ reserved
  closing : d.quotes.closing ∈ reserved
  opening_mark : Lexer.isWordChar d.quotes.opening = false
  opening_ne : d.quotes.opening ≠ '?'
  placeholder : d.placeholder = .fixed "?" ∨ d.placeholder = .numbered "$"

theorem DialectKind.regular (k : DialectKind) : k.dialect.Regular := by
  cases k <;> exact ⟨by decide, by decide, by decide, by decide, by decide⟩

namespace Piece

/-- The text begins with a mark. -/
def opensMark (t : String) : Bool := t.toList.head?.any (!Lexer.isWordChar ·)

/-- The text ends with a mark. -/
def closesMark (t : String) : Bool := t.toList.getLast?.any (!Lexer.isWordChar ·)

def Clean (t : String) : Prop := ∀ c ∈ t.toList, c ∉ reserved

instance : DecidablePred Clean := fun t =>
  List.decidableBAll (fun c => c ∉ reserved) t.toList

/-- A text without quotes and placeholders, or a name that may be written. -/
def Sound : Piece → Prop
  | .text t => Clean t
  | .name i => i.Legal
  | .parameter _ => True

def startsFree : Piece → Bool
  | .text t => opensMark t
  | _ => false

def endsFree : Piece → Bool
  | .text t => closesMark t
  | _ => false

/-- One of two neighbours has a mark where they meet. -/
def Apart (a b : Piece) : Prop := a.endsFree = true ∨ b.startsFree = true

/-- The text of a piece that `count` parameters precede. -/
def spelling (d : Dialect) (count : Nat) : Piece → String
  | .text t => t
  | .name i => i.sql d.quotes
  | .parameter _ => d.placeholder.text (count + 1)

/-- How many parameters a piece has. -/
def arity : Piece → Nat
  | .parameter _ => 1
  | _ => 0

/-- The lexemes of the pieces, each read by itself. -/
def lexemesAfter (d : Dialect) : Nat → List Piece → List Lexeme
  | _, [] => []
  | count, p :: ps =>
    Lexer.lex d.quotes (p.spelling d count).toList ++ lexemesAfter d (count + p.arity) ps

theorem sqlAfter_cons (d : Dialect) (count : Nat) (p : Piece) (ps : List Piece) :
    sqlAfter d count (p :: ps) = p.spelling d count ++ sqlAfter d (count + p.arity) ps := by
  cases p <;> rfl

end Piece

open Lexer

theorem Lexer.isWordChar_of_isRest {c : Char} (h : Identifier.isRest c = true) :
    isWordChar c = true := by
  simp only [Identifier.isRest, isWordChar, Bool.or_eq_true, beq_iff_eq] at h ⊢
  rcases h with (h | h) | h
  · exact .inl (.inr h)
  · exact .inr h
  · exact .inl (.inl h)

theorem Lexer.isWordChar_of_isStart {c : Char} (h : Identifier.isStart c = true) :
    isWordChar c = true := by
  simp only [Identifier.isStart, isWordChar, Char.isAlphanum, Bool.or_eq_true, beq_iff_eq] at h ⊢
  rcases h with h | h
  · exact .inl (.inr h)
  · exact .inl (.inl (.inl h))

theorem Lexer.isWordChar_of_isDigit {c : Char} (h : c.isDigit = true) : isWordChar c = true := by
  simp [isWordChar, Char.isAlphanum, h]

namespace Identifier

/-- A name is read as one lexeme. -/
def lexeme : Identifier → Lexeme
  | .plain s => .word s.toList
  | .quoted s => .quoted s.toList

/-- After a name a word or a quoted name is pending, never one that still has to be closed. -/
theorem Legal.run_sql {i : Identifier} (h : i.Legal) {q : QuotePair}
    (hq : isWordChar q.opening = false) :
    run q .nothing (i.sql q).toList = ([], match i with
      | .plain s => .word s.toList
      | .quoted s => .closed s.toList) := by
  cases i with
  | plain s =>
    obtain ⟨c, cs, hs, hc, hcs⟩ := h.plain
    simp only [sql, hs]
    refine run_word_cons fun b hb => ?_
    rcases List.mem_cons.mp hb with rfl | hb
    · exact isWordChar_of_isStart hc
    · exact isWordChar_of_isRest (hcs b hb)
  | quoted s =>
    simp only [sql, String.toList_ofList]
    exact run_quoted_name hq s.toList

theorem Legal.lex_sql {i : Identifier} (h : i.Legal) {q : QuotePair}
    (hq : isWordChar q.opening = false) : lex q (i.sql q).toList = [i.lexeme] := by
  rw [lex, scan, h.run_sql hq]
  cases i <;> rfl

end Identifier

namespace Placeholder

/-- The lexeme of a placeholder. -/
def lexeme (index : Nat) (p : Placeholder) : Lexeme :=
  match p with
  | .fixed _ => .mark '?'
  | .numbered _ => .word ('$' :: Nat.toDigits 10 index)

theorem toList_numbered (index : Nat) :
    ((Placeholder.numbered "$").text index).toList = '$' :: Nat.toDigits 10 index := by
  simp [text, Nat.toString_eq_repr]

theorem run_text {d : Dialect} (hd : d.Regular) (index : Nat) :
    run d.quotes .nothing (d.placeholder.text index).toList = match d.placeholder with
      | .fixed _ => ([.mark '?'], .nothing)
      | .numbered _ => ([], .word ('$' :: Nat.toDigits 10 index)) := by
  rcases hd.placeholder with h | h
  · have hne : '?' ≠ d.quotes.opening := hd.opening_ne.symm
    have hmark : isWordChar '?' = false := by decide
    rw [h, text, show "?".toList = ['?'] by decide]
    simp [run, step, start, hne, hmark]
  · rw [h, toList_numbered]
    refine run_word_cons fun c hc => ?_
    rcases List.mem_cons.mp hc with rfl | hc
    · decide
    · exact isWordChar_of_isDigit (Nat.isDigit_of_mem_toDigits (by decide) (by decide) hc)

theorem lex_text {d : Dialect} (hd : d.Regular) (index : Nat) :
    lex d.quotes (d.placeholder.text index).toList = [d.placeholder.lexeme index] := by
  rw [lex, scan, run_text hd]
  cases d.placeholder <;> rfl

end Placeholder

namespace Piece

theorem Clean.ne_opening {t : String} (h : Clean t) {d : Dialect} (hd : d.Regular) :
    ∀ c ∈ t.toList, c ≠ d.quotes.opening := fun c hc he =>
  h c hc (he ▸ hd.opening)

/-- Whatever follows a piece, if it begins with a mark then it does not go on with the piece. -/
theorem Sound.ends {p : Piece} (h : p.Sound) {d : Dialect} (hd : d.Regular) (count : Nat)
    {rest : List Char} (hmark : ∀ c ∈ rest.head?, isWordChar c = false ∧ c ∉ reserved) :
    (run d.quotes .nothing (p.spelling d count).toList).2.Ends d.quotes rest := by
  have hclosing : ∀ c ∈ rest.head?, c ≠ d.quotes.closing := fun c hc he =>
    (hmark c hc).2 (he ▸ hd.closing)
  cases p with
  | text t =>
    have hp := run_plain (p := .nothing) trivial (h.ne_opening hd)
    simp only [spelling]
    cases hr : (run d.quotes .nothing t.toList).2 with
    | nothing => trivial
    | word w => exact fun c hc => (hmark c hc).1
    | quoted w => simp [hr, Pending.Plain] at hp
    | closed w => simp [hr, Pending.Plain] at hp
  | name i =>
    simp only [spelling]
    rw [Identifier.Legal.run_sql h hd.opening_mark]
    cases i with
    | plain s => exact fun c hc => (hmark c hc).1
    | quoted s => exact hclosing
  | parameter b =>
    simp only [spelling]
    rw [Placeholder.run_text hd]
    cases d.placeholder with
    | fixed m => trivial
    | numbered lead => exact fun c hc => (hmark c hc).1

/-- Nothing goes on with a text that ends with a mark. -/
theorem Sound.ends_of_endsFree {p : Piece} (h : p.Sound) {d : Dialect} (hd : d.Regular)
    (count : Nat) (hfree : p.endsFree = true) (rest : List Char) :
    (run d.quotes .nothing (p.spelling d count).toList).2.Ends d.quotes rest := by
  cases p with
  | text t =>
    have hne := h.ne_opening hd
    simp only [endsFree, closesMark, Option.any_eq_true] at hfree
    obtain ⟨c, hc, hmark⟩ := hfree
    obtain ⟨cs, hcs⟩ := List.getLast?_eq_some_iff.mp hc
    simp only [spelling]
    rw [hcs] at hne ⊢
    have hbefore : ∀ b ∈ cs, b ≠ d.quotes.opening := fun b hb => hne b (List.mem_append_left _ hb)
    rw [run_concat_mark (p := .nothing) trivial hbefore (hne c (by simp)) (by simpa using hmark)]
    trivial
  | name i => simp [endsFree] at hfree
  | parameter b => simp [endsFree] at hfree

/-- A text that begins with a mark begins with it whatever follows. -/
theorem Clean.head?_append {t : String} (h : Clean t) (hopens : opensMark t = true)
    (rest : List Char) :
    ∀ c ∈ (t.toList ++ rest).head?, isWordChar c = false ∧ c ∉ reserved := by
  simp only [opensMark, Option.any_eq_true] at hopens
  obtain ⟨c, hc, hmark⟩ := hopens
  obtain ⟨cs, hcs⟩ := List.head?_eq_some_iff.mp hc
  intro b hb
  simp only [hcs, List.cons_append, List.head?_cons, Option.mem_def, Option.some.injEq] at hb
  obtain rfl := hb
  exact ⟨by simpa using hmark, h c (by simp [hcs])⟩

theorem head?_sqlAfter {p : Piece} (h : p.Sound) (hfree : p.startsFree = true) (d : Dialect)
    (count : Nat) (ps : List Piece) :
    ∀ c ∈ (sqlAfter d count (p :: ps)).toList.head?, isWordChar c = false ∧ c ∉ reserved := by
  cases p with
  | text t =>
    rw [sqlAfter, String.toList_append]
    exact Clean.head?_append h hfree _
  | name i => simp [startsFree] at hfree
  | parameter b => simp [startsFree] at hfree

/-- The text of a statement is read piece by piece. -/
theorem lex_sqlAfter {d : Dialect} (hd : d.Regular) {ps : List Piece} (hps : ∀ p ∈ ps, p.Sound)
    (hapart : ps.IsChain Apart) (count : Nat) :
    lex d.quotes (sqlAfter d count ps).toList = lexemesAfter d count ps := by
  induction ps generalizing count with
  | nil => rfl
  | cons p ps ih =>
    have hp := hps p List.mem_cons_self
    have htail : ∀ r ∈ ps, r.Sound := fun r hr => hps r (List.mem_cons_of_mem _ hr)
    rw [List.isChain_cons] at hapart
    rw [sqlAfter_cons, String.toList_append, lexemesAfter, ← ih htail hapart.2]
    refine lex_append ?_
    cases ps with
    | nil => exact hp.ends hd count (by simp [sqlAfter])
    | cons r rs =>
      rcases hapart.1 r rfl with hfree | hfree
      · exact hp.ends_of_endsFree hd count hfree _
      · exact hp.ends hd count
          (head?_sqlAfter (htail r List.mem_cons_self) hfree d (count + p.arity) rs)

end Piece

end SqlCompose
