import SqlCompose.Proofs.Value.Literals
import SqlCompose.Proofs.Sql.Commands
import SqlCompose.Statement

/-! String literals in statements that are shown with their values. Each piece is read by itself, so that
a lexer finds the literals of the values where they stand and no others. -/

namespace SqlCompose

open Lexer (isWordChar)

namespace DialectKind

theorem quotes_ne (k : DialectKind) :
    k.dialect.quotes.opening ≠ '\x27' ∧ k.dialect.quotes.closing ≠ '\x27' := by
  cases k <;> decide

/-- The dialect in which a statement of dialect `k` is shown when its values are written for `j`. -/
def showing (k j : DialectKind) : Dialect := { j.dialect with quotes := k.dialect.quotes }

end DialectKind

/-- The SQL with every value written as a literal of the given dialect. -/
def Statement.inlinedFor (s : Statement) (j : DialectKind) : String :=
  String.join (s.pieces.map (Piece.inlined { j.dialect with quotes := s.dialect.quotes }))

theorem Statement.inlined_eq {s : Statement} {k : DialectKind} (h : s.dialect = k.dialect) :
    s.inlined = s.inlinedFor k := by
  rw [inlined, inlinedFor, h]

theorem Identifier.Legal.run_literals {i : Identifier} (h : i.Legal) (k : DialectKind) :
    LiteralLexer.run k.dialect.quotes (.outside .nothing) (i.sql k.dialect.quotes).toList =
      ((Lexer.run k.dialect.quotes .nothing (i.sql k.dialect.quotes).toList).1.map .plain,
        .outside (Lexer.run k.dialect.quotes .nothing (i.sql k.dialect.quotes).toList).2) := by
  cases i with
  | plain s =>
    -- no character of a plain name is a single quote
    obtain ⟨c, cs, hs, hc, hcs⟩ := h.plain
    have hquote : isWordChar '\x27' = false := by decide
    refine LiteralLexer.run_pass fun b hb => ?_
    rintro rfl
    rw [sql, hs] at hb
    have hword : isWordChar '\x27' = true := by
      rcases List.mem_cons.mp hb with rfl | hb
      · exact Lexer.isWordChar_of_isStart hc
      · exact Lexer.isWordChar_of_isRest (hcs _ hb)
    rw [hquote] at hword
    exact Bool.noConfusion hword
  | quoted s =>
    -- inside a quoted name a single quote opens nothing
    have hopening : LiteralLexer.step k.dialect.quotes (.outside .nothing) k.dialect.quotes.opening =
        ([], .outside (.quoted [])) := by
      have hmark := k.regular.opening_mark
      simp [LiteralLexer.step, k.quotes_ne.1, LiteralLexer.pass, Lexer.step, Lexer.start, hmark]
    have hname := LiteralLexer.run_name k.quotes_ne.2 [] s.toList
    rw [h.run_sql k.regular.opening_mark, sql, String.toList_ofList, List.cons_append,
      LiteralLexer.run, hopening, hname]
    rfl

namespace Piece

/-- What the literal of a piece says, where there is one between quotes. -/
def quoted? (j : DialectKind) : Piece → Option String
  | .parameter b => b.value.quoted? j
  | _ => none

/-- The literals of the pieces before which `start` characters stand. -/
def literalsFrom (d : Dialect) (j : DialectKind) : Nat → List Piece → List StringLiteral
  | _, [] => []
  | start, p :: ps =>
    let stop := start + (p.inlined d).length
    (p.quoted? j).toList.map (⟨start, stop, ·, true⟩) ++ literalsFrom d j stop ps

section

variable {p : Piece} {k j : DialectKind}

theorem run_quoted {s : String} (h : p.quoted? j = some s) :
    ∃ lead, LiteralLexer.run k.dialect.quotes (.outside .nothing) (p.inlined (k.showing j)).toList =
      ([], .closed lead s.toList) := by
  cases p with
  | parameter b =>
    obtain ⟨lead, hlead, hliteral⟩ := Value.literal_of_quoted? h
    refine ⟨lead, ?_⟩
    rw [← LiteralLexer.run_literal hlead, ← hliteral]
    rfl
  | _ => cases h

/-- A piece without quotes of its own is read as it is where there are no literals. -/
theorem Sound.run_unquoted (h : p.Sound) (hp : p.quoted? j = none) :
    LiteralLexer.run k.dialect.quotes (.outside .nothing) (p.inlined (k.showing j)).toList =
      ((Lexer.run k.dialect.quotes .nothing (p.inlined (k.showing j)).toList).1.map .plain,
        .outside (Lexer.run k.dialect.quotes .nothing (p.inlined (k.showing j)).toList).2) := by
  have hclean : ∀ {t : String}, Clean t → ∀ c ∈ t.toList, c ≠ '\x27' := fun ht c hc he =>
    ht c hc (he ▸ by decide)
  cases p with
  | text t => exact LiteralLexer.run_pass (hclean h)
  | name i => exact Identifier.Legal.run_literals h k
  | parameter b => exact LiteralLexer.run_pass (hclean (Value.clean_literal hp))

theorem Sound.ends_unquoted (h : p.Sound) (hp : p.quoted? j = none) {rest : List Char}
    (hmark : ∀ c ∈ rest.head?, isWordChar c = false ∧ c ∉ reserved) :
    (Lexer.run k.dialect.quotes .nothing (p.inlined (k.showing j)).toList).2.Ends
      k.dialect.quotes rest := by
  cases p with
  | text t => exact h.ends k.regular 0 hmark
  | name i => exact h.ends k.regular 0 hmark
  | parameter b =>
    exact Sound.ends (p := .text (j.dialect.literal b.value)) (Value.clean_literal hp) k.regular 0
      hmark

/-- Whatever follows a piece, if it begins with a mark then it does not go on with the piece. -/
theorem Sound.literals_end (h : p.Sound) {rest : List Char}
    (hmark : ∀ c ∈ rest.head?, isWordChar c = false ∧ c ∉ reserved) :
    (LiteralLexer.run k.dialect.quotes (.outside .nothing)
      (p.inlined (k.showing j)).toList).2.Ends k.dialect.quotes rest := by
  have hquote : ∀ c ∈ rest.head?, c ≠ '\x27' := fun c hc he =>
    (hmark c hc).2 (he ▸ by decide)
  cases hp : p.quoted? j with
  | none =>
    rw [h.run_unquoted hp]
    exact LiteralLexer.Pending.ends_outside (h.ends_unquoted hp hmark) hquote
  | some s =>
    obtain ⟨lead, hrun⟩ := run_quoted (k := k) hp
    rw [hrun]
    exact hquote

/-- Nothing goes on with a text that ends with a mark, not even a literal. -/
theorem Sound.literals_end_of_endsFree (h : p.Sound) (hfree : p.endsFree = true)
    (rest : List Char) :
    (LiteralLexer.run k.dialect.quotes (.outside .nothing)
      (p.inlined (k.showing j)).toList).2.Ends k.dialect.quotes rest := by
  cases p with
  | text t =>
    have hends := h.ends_of_endsFree k.regular 0 hfree
    rw [h.run_unquoted (j := j) rfl]
    rw [show Lexer.run k.dialect.quotes .nothing ((text t).inlined (k.showing j)).toList =
      Lexer.run k.dialect.quotes .nothing ((text t).spelling k.dialect 0).toList from rfl,
      LiteralLexer.eq_nothing_of_ends hends]
    trivial
  | name i => simp [endsFree] at hfree
  | parameter b => simp [endsFree] at hfree

theorem Sound.head?_inlined (h : p.Sound) (hfree : p.startsFree = true) (d : Dialect)
    (rest : List Char) :
    ∀ c ∈ ((p.inlined d).toList ++ rest).head?, isWordChar c = false ∧ c ∉ reserved := by
  cases p with
  | text t => exact Clean.head?_append h hfree rest
  | name i => simp [startsFree] at hfree
  | parameter b => simp [startsFree] at hfree

/-- The text of a statement with its values is read piece by piece. -/
theorem lex_inlined {ps : List Piece} (hps : ∀ p ∈ ps, p.Sound) (hapart : ps.IsChain Apart) :
    LiteralLexer.lex k.dialect.quotes (ps.flatMap fun p => (p.inlined (k.showing j)).toList) =
      ps.flatMap fun p =>
        LiteralLexer.lex k.dialect.quotes (p.inlined (k.showing j)).toList := by
  induction ps with
  | nil => rfl
  | cons p ps ih =>
    have hp := hps p List.mem_cons_self
    have htail : ∀ r ∈ ps, r.Sound := fun r hr => hps r (List.mem_cons_of_mem _ hr)
    rw [List.isChain_cons] at hapart
    rw [List.flatMap_cons, List.flatMap_cons, ← ih htail hapart.2]
    refine LiteralLexer.lex_append ?_
    cases ps with
    | nil => exact hp.literals_end (by simp)
    | cons r rs =>
      rcases hapart.1 r rfl with hfree | hfree
      · exact hp.literals_end_of_endsFree hfree _
      · exact hp.literals_end ((htail r List.mem_cons_self).head?_inlined hfree _ _)

theorem Sound.literalsFrom_lex (h : p.Sound) (start : Nat) :
    Segment.literalsFrom k.dialect.quotes start
        (LiteralLexer.lex k.dialect.quotes (p.inlined (k.showing j)).toList) =
      (p.quoted? j).toList.map
        (⟨start, start + (p.inlined (k.showing j)).length, ·, true⟩) := by
  cases hp : p.quoted? j with
  | none =>
    rw [LiteralLexer.lex, LiteralLexer.scan, h.run_unquoted hp, LiteralLexer.Pending.finish,
      ← List.map_append, Segment.literalsFrom_plain]
    rfl
  | some s =>
    obtain ⟨lead, hrun⟩ := run_quoted (k := k) hp
    have hlex : LiteralLexer.lex k.dialect.quotes (p.inlined (k.showing j)).toList =
        [.string lead s.toList] := by
      rw [LiteralLexer.lex, LiteralLexer.scan, hrun]
      rfl
    have htext : (Segment.string lead s.toList).text k.dialect.quotes =
        (p.inlined (k.showing j)).toList := by
      rw [← LiteralLexer.flatMap_text_lex (q := k.dialect.quotes)
        (p.inlined (k.showing j)).toList, hlex]
      simp
    rw [hlex, Segment.literalsFrom]
    simp [htext, Segment.literalsFrom, String.length_toList]

/-- The literals that are found are those of the values, where the values stand. -/
theorem literalsFrom_lex {ps : List Piece} (hps : ∀ p ∈ ps, p.Sound) (start : Nat) :
    Segment.literalsFrom k.dialect.quotes start (ps.flatMap fun p =>
        LiteralLexer.lex k.dialect.quotes (p.inlined (k.showing j)).toList) =
      literalsFrom (k.showing j) j start ps := by
  induction ps generalizing start with
  | nil => rfl
  | cons p ps ih =>
    rw [List.flatMap_cons, Segment.literalsFrom_append, LiteralLexer.flatMap_text_lex,
      (hps p List.mem_cons_self).literalsFrom_lex, ih fun r hr => hps r (List.mem_cons_of_mem _ hr)]
    rfl

end

end Piece

end SqlCompose
