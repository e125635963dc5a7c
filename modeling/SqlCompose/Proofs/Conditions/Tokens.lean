import SqlCompose.Proofs.Conditions.Grammar

/-! The tokens of pieces. Whatever the dialect and wherever in the statement they stand, a lexer finds
the same tokens, and parentheses are nested among them as they are in the texts. -/

namespace SqlCompose

open Lexer

namespace Lexeme

@[simp] theorem tokens_nil : tokens [] = [] := rfl

@[simp] theorem tokens_append (ls ms : List Lexeme) : tokens (ls ++ ms) = tokens ls ++ tokens ms := by
  simp [tokens]

theorem tokens_singleton {l : Lexeme} (hblank : l ≠ .mark ' ') (h : l.isPlaceholder = false) :
    tokens [l] = [l] := by
  simp [tokens, hblank, h]

theorem depth?_append (depth : Nat) (ls ms : List Lexeme) :
    depth? depth (ls ++ ms) = (depth? depth ls).bind (depth? · ms) := by
  induction ls generalizing depth with
  | nil => rfl
  | cons l ls ih =>
    by_cases hclose : l = .mark ')'
    · cases depth <;> simp [hclose, depth?, ih]
    · by_cases hopen : l = .mark '('
      · simp [hopen, depth?, ih]
      · simp [depth?, hclose, ih]

theorem depth?_cons {l : Lexeme} (hopen : l ≠ .mark '(') (hclose : l ≠ .mark ')')
    (depth : Nat) (ls : List Lexeme) : depth? depth (l :: ls) = depth? depth ls := by
  simp [depth?, hclose]

/-- Parentheses that are already open stay open. -/
theorem depth?_add {depth after : Nat} {ls : List Lexeme} (h : depth? depth ls = some after)
    (more : Nat) : depth? (depth + more) ls = some (after + more) := by
  induction ls generalizing depth with
  | nil =>
    obtain rfl : depth = after := by simpa [depth?] using h
    rfl
  | cons l ls ih =>
    rcases depth?_cons_eq_some h with ⟨rfl, hls⟩ | ⟨rfl, below, rfl, hls⟩ | ⟨_, hclose, hls⟩
    · have hmore := ih hls
      rw [Nat.succ_add] at hmore
      simpa [depth?] using hmore
    · rw [Nat.succ_add]
      simpa [depth?] using ih hls
    · simpa [depth?, hclose] using ih hls

/-- Neither blanks nor placeholders are parentheses. -/
theorem depth?_tokens (depth : Nat) (ls : List Lexeme) :
    depth? depth (tokens ls) = depth? depth ls := by
  induction ls generalizing depth with
  | nil => rfl
  | cons l ls ih =>
    have hcons : tokens (l :: ls) = tokens [l] ++ tokens ls := by
      rw [← tokens_append, List.singleton_append]
    rw [hcons, ← List.singleton_append (l := ls), depth?_append, depth?_append]
    have hl : depth? depth (tokens [l]) = depth? depth [l] := by
      by_cases hblank : l = .mark ' '
      · rw [hblank]
        rfl
      · by_cases hp : l.isPlaceholder = true
        · have hmark : ∀ c : Char, c ≠ '?' → l ≠ .mark c := by
            rintro c hc rfl
            exact hc (by simpa [isPlaceholder] using hp)
          rw [depth?_cons (hmark _ (by decide)) (hmark _ (by decide))]
          simp [tokens, hblank, hp, depth?]
        · rw [tokens_singleton hblank (by simpa using hp)]
    rw [hl]
    cases depth? depth [l] with
    | none => rfl
    | some after => exact ih after

end Lexeme

theorem Lexer.scan_cons {q : QuotePair} (p : Pending) (c : Char) (cs : List Char) :
    scan q p (c :: cs) = (step q p c).1 ++ scan q (step q p c).2 cs := by
  rw [scan, scan, run, List.append_assoc]

theorem Lexer.depth?_mark (depth : Nat) (c : Char) {ls : List Lexeme} {cs : List Char}
    (h : ∀ depth, Lexeme.depth? depth ls = Piece.nesting? depth cs) :
    Lexeme.depth? depth (.mark c :: ls) = Piece.nesting? depth (c :: cs) := by
  by_cases hopen : c = '('
  · simp [hopen, Lexeme.depth?, Piece.nesting?, h]
  · by_cases hclose : c = ')'
    · cases depth <;> simp [hclose, Lexeme.depth?, Piece.nesting?, h]
    · rw [Lexeme.depth?_cons (by simpa using hopen) (by simpa using hclose), h]
      simp [Piece.nesting?, hclose]

/-- The parentheses among the lexemes are those of the text. -/
theorem Lexer.depth?_scan {q : QuotePair} {p : Pending} {cs : List Char} (hp : p.Plain)
    (h : ∀ c ∈ cs, c ≠ q.opening) (depth : Nat) :
    Lexeme.depth? depth (scan q p cs) = Piece.nesting? depth cs := by
  induction cs generalizing p depth with
  | nil =>
    cases p with
    | nothing => rfl
    | word w => rfl
    | quoted w => exact False.elim hp
    | closed w => exact False.elim hp
  | cons c cs ih =>
    have hc := h c List.mem_cons_self
    have ih := fun p (hp : p.Plain) =>
      ih (p := p) hp fun b hb => h b (List.mem_cons_of_mem _ hb)
    rw [scan_cons]
    -- a character of a word only prolongs what is pending, any other one is a mark of its own
    by_cases hword : isWordChar c = true
    · have hopen : c ≠ '(' := by
        rintro rfl
        revert hword
        decide
      have hclose : c ≠ ')' := by
        rintro rfl
        revert hword
        decide
      have hskip : Piece.nesting? depth (c :: cs) = Piece.nesting? depth cs := by
        simp [Piece.nesting?, hclose]
      cases p with
      | nothing => simpa [step, start, hword, hskip] using ih (.word [c]) trivial depth
      | word w => simpa [step, hword, hskip] using ih (.word (w ++ [c])) trivial depth
      | quoted w => exact False.elim hp
      | closed w => exact False.elim hp
    · have hmark := depth?_mark depth c (ih .nothing trivial)
      cases p with
      | nothing => simpa [step, start, hword, hc] using hmark
      | word w => simpa [step, start, hword, hc, Lexeme.depth?] using hmark
      | quoted w => exact False.elim hp
      | closed w => exact False.elim hp

/-- A name is one token, and none of the marks. -/
theorem Identifier.isName_lexeme (i : Identifier) : i.lexeme.isName = true := by
  cases i <;> rfl

theorem Identifier.lexeme_ne_mark (i : Identifier) (c : Char) : i.lexeme ≠ .mark c := by
  cases i <;> simp [lexeme]

namespace Piece

/-- What a piece says, whatever the dialect. -/
def token : Piece → List Lexeme
  | .text t => Lexeme.tokens (lex Dialect.doubleQuotes t.toList)
  | .name i => [i.lexeme]
  | .parameter _ => [.mark '?']

def tokens (ps : List Piece) : List Lexeme := ps.flatMap token

@[simp] theorem token_name (i : Identifier) : token (.name i) = [i.lexeme] := rfl

@[simp] theorem token_parameter (b : Bound) : token (.parameter b) = [.mark '?'] := rfl

@[simp] theorem tokens_nil : tokens [] = [] := rfl

@[simp] theorem tokens_cons (p : Piece) (ps : List Piece) : tokens (p :: ps) = p.token ++ tokens ps :=
  rfl

@[simp] theorem tokens_append (ps qs : List Piece) : tokens (ps ++ qs) = tokens ps ++ tokens qs :=
  List.flatMap_append

theorem Clean.ne_doubleQuote {t : String} (h : Clean t) :
    ∀ c ∈ t.toList, c ≠ Dialect.doubleQuotes.opening := fun c hc he =>
  h c hc (he ▸ (by decide : Dialect.doubleQuotes.opening ∈ reserved))

/-- The tokens of a piece do not depend on the dialect, and neither do they on the number of a
placeholder. -/
theorem Sound.tokens_spelling {p : Piece} (h : p.Sound) {d : Dialect} (hd : d.Regular)
    (count : Nat) : Lexeme.tokens (lex d.quotes (p.spelling d count).toList) = p.token := by
  cases p with
  | text t =>
    simp only [spelling, token]
    rw [lex_eq_of_plain (h.ne_opening hd) h.ne_doubleQuote]
  | name i =>
    simp only [spelling, token]
    rw [Identifier.Legal.lex_sql h hd.opening_mark,
      Lexeme.tokens_singleton (i.lexeme_ne_mark ' ') (Identifier.Legal.isPlaceholder_lexeme h)]
  | parameter b =>
    have hblank : d.placeholder.lexeme (count + 1) ≠ .mark ' ' := by
      cases d.placeholder <;> simp [Placeholder.lexeme]
    simp only [spelling, token, Placeholder.lex_text hd]
    simp [Lexeme.tokens, hblank, Placeholder.isPlaceholder_lexeme]

theorem tokens_lexemesAfter {d : Dialect} (hd : d.Regular) {ps : List Piece}
    (h : ∀ p ∈ ps, p.Sound) (count : Nat) :
    Lexeme.tokens (lexemesAfter d count ps) = tokens ps := by
  induction ps generalizing count with
  | nil => rfl
  | cons p ps ih =>
    rw [lexemesAfter, Lexeme.tokens_append, (h p List.mem_cons_self).tokens_spelling hd,
      ih fun q hq => h q (List.mem_cons_of_mem _ hq), tokens_cons]

/-- What a lexer finds in the text of pieces is what the pieces say. -/
theorem Woven.tokens_lex {ps : List Piece} (h : Woven ps)
    (hnames : ∀ i, .name i ∈ ps → i.Legal) {d : Dialect} (hd : d.Regular) (count : Nat) :
    Lexeme.tokens (lex d.quotes (sqlAfter d count ps).toList) = tokens ps := by
  rw [h.lex_sqlAfter hd hnames, tokens_lexemesAfter hd (h.sound hnames)]

theorem Clean.depth?_token {t : String} (h : Clean t) (depth : Nat) :
    Lexeme.depth? depth (token (.text t)) = nesting? depth t.toList := by
  rw [token, Lexeme.depth?_tokens]
  exact depth?_scan (p := .nothing) trivial h.ne_doubleQuote depth

theorem Plain.depth?_token {t : String} (h : Plain t) (depth : Nat) :
    Lexeme.depth? depth (token (.text t)) = some depth := by
  have hzero : Lexeme.depth? 0 (token (.text t)) = some 0 := by
    rw [h.1.depth?_token, h.2]
  simpa using Lexeme.depth?_add hzero depth

/-- Pieces that are put together well close every parenthesis that they open. -/
theorem Woven.depth?_tokens {ps : List Piece} (h : Woven ps) (depth : Nat) :
    Lexeme.depth? depth (tokens ps) = some depth := by
  induction h generalizing depth with
  | nil => rfl
  | name i => exact Lexeme.depth?_cons (i.lexeme_ne_mark _) (i.lexeme_ne_mark _) depth []
  | parameter b => exact Lexeme.depth?_cons (by simp) (by simp) depth []
  | text ht => simpa using ht.depth?_token depth
  | lead ht _ _ ih =>
    rw [tokens_cons, Lexeme.depth?_append, ht.depth?_token, Option.bind_some, ih]
  | append _ _ _ ihp ihq =>
    rw [tokens_append, Lexeme.depth?_append, ihp, Option.bind_some, ihq]
  | @bracketed t u ps ht hu _ ih =>
    have hopen : Lexeme.depth? 0 (token (.text t)) = some 1 := by
      rw [ht.1.depth?_token, ht.2.2]
    have hclose : Lexeme.depth? 1 (token (.text u)) = some 0 := by
      rw [hu.1.depth?_token, hu.2.2]
    have hopen := Lexeme.depth?_add hopen depth
    have hclose := Lexeme.depth?_add hclose depth
    rw [Nat.zero_add] at hopen hclose
    simp [Lexeme.depth?_append, hopen, ih, hclose]

end Piece

end SqlCompose
