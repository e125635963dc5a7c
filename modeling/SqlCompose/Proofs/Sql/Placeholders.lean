import SqlCompose.Proofs.Sql.Commands

/-! Placeholders in the text of a statement. The lexer finds one for each value, numbered in the
order of the text where the dialect numbers them, and no name and no other text looks like one.
With literals in their place the text is the one without placeholders. -/

namespace SqlCompose

open Lexer

namespace Lexeme

/-- A question mark, or a word that is a dollar sign and a number. -/
def isPlaceholder : Lexeme → Bool
  | .mark c => c == '?'
  | .word ('$' :: d :: ds) => (d :: ds).all Char.isDigit
  | _ => false

/-- The text of the lexemes with the first of the texts in place of the first placeholder, and so
on. -/
def substitute (q : QuotePair) : List String → List Lexeme → List Char
  | _, [] => []
  | [], l :: ls => l.text q ++ substitute q [] ls
  | v :: vs, l :: ls =>
    if l.isPlaceholder then v.toList ++ substitute q vs ls
    else l.text q ++ substitute q (v :: vs) ls

/-- A placeholder holds one of the characters that no other text has. -/
theorem exists_reserved_of_isPlaceholder {l : Lexeme} (h : l.isPlaceholder = true)
    (q : QuotePair) : ∃ c ∈ l.text q, c ∈ reserved := by
  unfold isPlaceholder at h
  split at h
  · rename_i c
    have hc : c = '?' := by simpa using h
    exact ⟨c, by simp [text], by simp [hc, reserved]⟩
  · exact ⟨'$', by simp [text], by decide⟩
  · exact absurd h (by simp)

theorem substitute_append {q : QuotePair} {ls : List Lexeme}
    (h : ∀ l ∈ ls, l.isPlaceholder = false) (vs : List String) (more : List Lexeme) :
    substitute q vs (ls ++ more) = ls.flatMap (text q) ++ substitute q vs more := by
  induction ls with
  | nil => rfl
  | cons l ls ih =>
    have hl := h l List.mem_cons_self
    have hls := ih fun b hb => h b (List.mem_cons_of_mem _ hb)
    cases vs with
    | nil => simp [substitute, hls]
    | cons v vs => simp [substitute, hl, hls]

end Lexeme

namespace Placeholder

theorem isPlaceholder_lexeme (p : Placeholder) (index : Nat) :
    (p.lexeme index).isPlaceholder = true := by
  cases p with
  | fixed m => rfl
  | numbered lead =>
    have hdigit : ∀ c ∈ Nat.toDigits 10 index, c.isDigit = true := fun c hc =>
      Nat.isDigit_of_mem_toDigits (by decide) (by decide) hc
    cases hd : Nat.toDigits 10 index with
    | nil => exact absurd hd Nat.toDigits_ne_nil
    | cons d ds =>
      rw [hd] at hdigit
      simpa [lexeme, hd, Lexeme.isPlaceholder] using hdigit

end Placeholder

/-- No name is read as a placeholder, whatever characters it has. -/
theorem Identifier.Legal.isPlaceholder_lexeme {i : Identifier} (h : i.Legal) :
    i.lexeme.isPlaceholder = false := by
  cases i with
  | plain s =>
    obtain ⟨c, cs, hs, hc, _⟩ := h.plain
    have hne : c ≠ '$' := by
      rintro rfl
      revert hc
      decide
    simp only [lexeme, hs]
    unfold Lexeme.isPlaceholder
    split
    · rename_i he
      cases he
    · rename_i he
      exact absurd (List.cons.inj (Lexeme.word.inj he)).1 hne
    · rfl
  | quoted s => rfl

namespace Piece

theorem Clean.isPlaceholder_lex {t : String} (h : Clean t) (q : QuotePair) :
    ∀ l ∈ lex q t.toList, l.isPlaceholder = false := by
  intro l hl
  rw [Bool.eq_false_iff]
  intro hp
  obtain ⟨c, hc, hr⟩ := Lexeme.exists_reserved_of_isPlaceholder hp q
  have hmem : c ∈ (lex q t.toList).flatMap (Lexeme.text q) := List.mem_flatMap.mpr ⟨l, hl, hc⟩
  rw [flatMap_text_lex] at hmem
  exact h c hmem hr

/-- Texts and names hold no placeholders. -/
theorem Sound.isPlaceholder_lex {p : Piece} (h : p.Sound) {d : Dialect} (hd : d.Regular)
    (hp : p.arity = 0) (count : Nat) :
    ∀ l ∈ lex d.quotes (p.spelling d count).toList, l.isPlaceholder = false := by
  cases p with
  | text t => exact Clean.isPlaceholder_lex h d.quotes
  | name i =>
    simp only [spelling]
    rw [Identifier.Legal.lex_sql h hd.opening_mark]
    simpa using Identifier.Legal.isPlaceholder_lexeme h
  | parameter b => simp [arity] at hp

/-- The placeholders are those of the parameters, in their order. -/
theorem filter_lexemesAfter {d : Dialect} (hd : d.Regular) {ps : List Piece}
    (hps : ∀ p ∈ ps, p.Sound) (count : Nat) :
    (lexemesAfter d count ps).filter Lexeme.isPlaceholder =
      (List.range' (count + 1) (values ps).length).map d.placeholder.lexeme := by
  induction ps generalizing count with
  | nil => rfl
  | cons p ps ih =>
    have ih := ih (fun r hr => hps r (List.mem_cons_of_mem _ hr)) (count + p.arity)
    have hp := hps p List.mem_cons_self
    rw [lexemesAfter, List.filter_append, ih]
    cases p with
    | text t =>
      rw [List.filter_eq_nil_iff.mpr fun l hl => by simp [hp.isPlaceholder_lex hd rfl count l hl]]
      rfl
    | name i =>
      rw [List.filter_eq_nil_iff.mpr fun l hl => by simp [hp.isPlaceholder_lex hd rfl count l hl]]
      rfl
    | parameter b =>
      simp only [spelling, Placeholder.lex_text hd, arity, values, List.length_cons,
        List.range'_succ, List.map_cons, Placeholder.isPlaceholder_lexeme, List.filter_cons_of_pos,
        List.filter_nil, List.singleton_append]

/-- Literals in place of the placeholders give the text without placeholders. -/
theorem substitute_lexemesAfter {d : Dialect} (hd : d.Regular) {ps : List Piece}
    (hps : ∀ p ∈ ps, p.Sound) (count : Nat) :
    Lexeme.substitute d.quotes ((values ps).map fun b => d.literal b.value)
        (lexemesAfter d count ps) = ps.flatMap fun p => (p.inlined d).toList := by
  induction ps generalizing count with
  | nil => rfl
  | cons p ps ih =>
    have ih := ih (fun r hr => hps r (List.mem_cons_of_mem _ hr)) (count + p.arity)
    have hp := hps p List.mem_cons_self
    rw [lexemesAfter, List.flatMap_cons, ← ih]
    cases p with
    | text t =>
      rw [Lexeme.substitute_append (hp.isPlaceholder_lex hd rfl count), flatMap_text_lex]
      rfl
    | name i =>
      rw [Lexeme.substitute_append (hp.isPlaceholder_lex hd rfl count), flatMap_text_lex]
      rfl
    | parameter b =>
      simp only [spelling, Placeholder.lex_text hd, values, List.map_cons, List.singleton_append,
        Lexeme.substitute, Placeholder.isPlaceholder_lexeme, if_true, inlined]

end Piece

end SqlCompose
