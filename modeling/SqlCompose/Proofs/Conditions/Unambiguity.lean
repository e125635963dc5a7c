import SqlCompose.Proofs.Conditions.Predicates

/-! Token sequences have one reading at most. A parser that never goes back over a decision finds
every reading that the grammar allows. -/

namespace SqlCompose

/-- A `not` that negates a condition: no name, and no part of `not exists`. -/
def startsNegation : List Lexeme → Bool
  | l :: ls => l = Keyword.not.lexeme && ls.head? ≠ some (.mark '.') && !startsExists ls
  | [] => false

theorem startsExists_append (l m : Lexeme) (ls rest : List Lexeme) :
    startsExists (l :: m :: ls ++ rest) = startsExists (l :: m :: ls) := by
  by_cases hm : m = .mark '('
  · subst hm
    rfl
  · simp [startsExists, hm]

/-- The first condition of a rank among the tokens, tried as deep as `n` allows. -/
def parse : Nat → Rank → List Lexeme → Option (Reading × List Lexeme)
  | 0, _, _ => none
  | n + 1, .disjunction, ls =>
    (chain Keyword.or.lexeme (parse n .conjunction) n ls).map fun x => (.joined .or x.1, x.2)
  | n + 1, .conjunction, ls =>
    (chain Keyword.and.lexeme (parse n .negation) n ls).map fun x => (.joined .and x.1, x.2)
  | n + 1, .negation, ls =>
    if startsNegation ls then (parse n .negation ls.tail).map fun x => (.not x.1, x.2)
    else parse n .primary ls
  | n + 1, .primary, ls =>
    ((expect (.mark '(') ls).bind fun ls => (parse n .disjunction ls).bind fun x =>
      (expect (.mark ')') x.2).map fun rest => (x.1, rest)).or
    ((predicate? n ls).map fun x => (.predicate x.1, x.2))

namespace Rank

/-- What may follow a condition of the rank does not go on with it. -/
def Ends : Rank → Lexeme → Prop
  | .primary, l => l ≠ .mark '.' ∧ l ≠ Keyword.escape.lexeme
  | .negation, l => l ≠ .mark '.' ∧ l ≠ Keyword.escape.lexeme
  | .conjunction, l => (l ≠ .mark '.' ∧ l ≠ Keyword.escape.lexeme) ∧ l ≠ Keyword.and.lexeme
  | .disjunction, l =>
    ((l ≠ .mark '.' ∧ l ≠ Keyword.escape.lexeme) ∧ l ≠ Keyword.and.lexeme) ∧ l ≠ Keyword.or.lexeme

end Rank

/-- What stands between the parentheses of a sub-query, or in front of a comma. No condition begins
like that. -/
def Barren (ls : List Lexeme) : Prop :=
  startsQuery ls = true ∨ ∃ t : Term, t.Legal ∧ ∃ rest, ls = t.tokens ++ .mark ',' :: rest

theorem chain_eq_none {α : Type} {separator : Lexeme} {ls : List Lexeme}
    {find : List Lexeme → Option (α × List Lexeme)} (h : find ls = none) (n : Nat) :
    chain separator find n ls = none := by
  cases n with
  | zero => rfl
  | succ n => simp [chain, h]

theorem startsNegation_of_ne {l : Lexeme} (h : l ≠ Keyword.not.lexeme) (ls : List Lexeme) :
    startsNegation (l :: ls) = false := by
  simp [startsNegation, h]

theorem startsQuery_cons {ls : List Lexeme} (h : startsQuery ls = true) :
    ∃ rest, ls = Keyword.select.lexeme :: rest ∧ rest.head? ≠ some (.mark '.') := by
  match ls with
  | [] => simp [startsQuery] at h
  | [l] =>
    have hl : l = Keyword.select.lexeme := by simpa [startsQuery] using h
    exact ⟨[], by rw [hl], by simp⟩
  | l :: m :: rest =>
    have hl : l = Keyword.select.lexeme ∧ m ≠ .mark '.' := by simpa [startsQuery] using h
    exact ⟨m :: rest, by rw [hl.1], by simpa using hl.2⟩

/-- The keyword `select` does not begin a predicate. -/
theorem predicate?_startsQuery {ls : List Lexeme} (h : startsQuery ls = true) (n : Nat) :
    predicate? n ls = none := by
  obtain ⟨rest, rfl, hpoint⟩ := startsQuery_cons h
  have hexists : startsExists (Keyword.select.lexeme :: rest) = false :=
    startsExists_of_ne (fun he => by simpa using Keyword.lexeme_inj.mp he) rest
  have hnot : dropNot (Keyword.select.lexeme :: rest) = (false, Keyword.select.lexeme :: rest) := by
    refine dropNot_of_head fun l hl => ?_
    obtain rfl : Keyword.select.lexeme = l := by simpa using hl
    exact fun he => by simpa using Keyword.lexeme_inj.mp he
  have hterm : term? (Keyword.select.lexeme :: rest) = none := by
    unfold Keyword.lexeme Keyword.text
    cases rest with
    | nil => simp [term?]
    | cons m rest =>
      have hm : m ≠ .mark '.' := by simpa using hpoint
      unfold term?
      split
      · rename_i he
        simp at he
      · rename_i he
        simp at he
      · rename_i he
        simp only [List.cons.injEq] at he
        exact absurd he.2.1 hm
      · rename_i he
        simp only [List.cons.injEq, Lexeme.word.injEq] at he
        simp [← he.1]
      · rfl
  have hrow : startsRow (Keyword.select.lexeme :: rest) = false := by
    simp [startsRow, Keyword.lexeme]
  simp [predicate?, hexists, hnot, hrow, hterm]

/-- No predicate has a comma after its first term. -/
theorem predicate?_comma {t : Term} (h : t.Legal) (rest : List Lexeme) (n : Nat) :
    predicate? n (t.tokens ++ .mark ',' :: rest) = none := by
  have hnot : dropNot (.mark ',' :: rest) = (false, .mark ',' :: rest) := by
    refine dropNot_of_head fun l hl => ?_
    obtain rfl : .mark ',' = l := by simpa using hl
    exact (Keyword.lexeme_ne_mark .not ',').symm
  have hkeyword : ∀ k : Keyword, Lexeme.mark ',' ≠ k.lexeme := fun k =>
    (k.lexeme_ne_mark ',').symm
  rw [Term.predicate?_tokens h (by simp)]
  simp [termTail?, comparison?, expect_of_ne (hkeyword .is), hnot, verbTail?, hkeyword]

namespace Term

variable {t : Term}

theorem startsNegation_tokens (h : t.Legal) (rest : List Lexeme) :
    startsNegation (t.tokens ++ rest) = false := by
  cases t with
  | column q n => simp [tokens, startsNegation]
  | number ds => exact startsNegation_of_ne (word_ne_keyword h .not) _
  | parameter => exact startsNegation_of_ne (Keyword.lexeme_ne_mark .not _).symm _
  | subQuery body => exact startsNegation_of_ne (Keyword.lexeme_ne_mark .not _).symm _

/-- A parenthesis at the beginning of a term is that of a sub-query. -/
theorem startsQuery_of_expect (h : t.Legal) {ls rest : List Lexeme}
    (he : expect (.mark '(') (t.tokens ++ ls) = some rest) : startsQuery rest = true := by
  cases t with
  | column q n =>
    obtain rfl : q = .mark '(' := by
      by_cases hq : q = .mark '('
      · exact hq
      · simp [tokens, expect, hq] at he
    exact absurd h.1 (by simp [Lexeme.isName])
  | number ds => simp [tokens, expect] at he
  | parameter => simp [tokens, expect] at he
  | subQuery body =>
    simp only [tokens, List.cons_append, expect_self, Option.some.injEq] at he
    rw [← he, List.append_assoc]
    exact IsQuery.startsQuery h _

end Term

namespace Barren

variable {ls : List Lexeme}

theorem startsNegation_eq (h : Barren ls) : startsNegation ls = false := by
  rcases h with h | ⟨t, ht, rest, rfl⟩
  · obtain ⟨rest, rfl, _⟩ := startsQuery_cons h
    exact startsNegation_of_ne (fun he => by simpa using Keyword.lexeme_inj.mp he) rest
  · exact Term.startsNegation_tokens ht _

theorem predicate?_eq (h : Barren ls) (n : Nat) : predicate? n ls = none := by
  rcases h with h | ⟨t, ht, rest, rfl⟩
  · exact predicate?_startsQuery h n
  · exact predicate?_comma ht rest n

/-- What stands behind a parenthesis at the beginning of a term is again barren. -/
theorem expect_eq (h : Barren ls) {rest : List Lexeme} (he : expect (.mark '(') ls = some rest) :
    Barren rest := by
  rcases h with h | ⟨t, ht, more, rfl⟩
  · obtain ⟨more, rfl, _⟩ := startsQuery_cons h
    simp [expect, Keyword.lexeme] at he
  · exact .inl (Term.startsQuery_of_expect ht he)

theorem parse_eq (h : Barren ls) (n : Nat) (k : Rank) : parse n k ls = none := by
  induction n generalizing k ls with
  | zero => rfl
  | succ n ih =>
    cases k with
    | disjunction => rw [parse, chain_eq_none (ih h _) n, Option.map_none]
    | conjunction => rw [parse, chain_eq_none (ih h _) n, Option.map_none]
    | negation => simp [parse, h.startsNegation_eq, ih h]
    | primary =>
      cases he : expect (.mark '(') ls with
      | none => simp [parse, he, h.predicate?_eq]
      | some rest => simp [parse, he, ih (h.expect_eq he), h.predicate?_eq]

end Barren

/-- Two tokens at least, of which the first is no point. -/
def Begins (ts : List Lexeme) : Prop := ∃ l m ls, ts = l :: m :: ls ∧ l ≠ .mark '.'

theorem Begins.joinTokens {separator : Lexeme} {parts : List (List Lexeme × Reading)}
    (hne : parts ≠ []) (h : ∀ x ∈ parts, Begins x.1) :
    Begins (joinTokens separator (parts.map (·.1))) := by
  cases parts with
  | nil => exact absurd rfl hne
  | cons x parts =>
    obtain ⟨l, m, ls, hx, hl⟩ := h x List.mem_cons_self
    obtain ⟨more, hmore⟩ := joinTokens_cons separator x.1 (parts.map (·.1))
    refine ⟨l, m, ls ++ more, ?_, hl⟩
    rw [List.map_cons, hmore, hx, List.cons_append, List.cons_append]

namespace Predicate

/-- A predicate begins with a term, with a row value or with `[not] exists`. -/
theorem exists_tokens {p : Predicate} (h : p.Legal) :
    (∃ t : Term, t.Legal ∧ ∃ more, p.tokens = t.tokens ++ more ∧ more ≠ []) ∨
      (∃ r : Row, r.Legal ∧ ∃ more, p.tokens = r.tokens ++ more) ∨
        ∃ negated body, p = .exists negated body := by
  cases p with
  | compare op l r =>
    have hne : op.tokens ++ r.tokens ≠ [] := by cases op <;> simp [Comparison.tokens]
    exact .inl ⟨l, h.1, _, List.append_assoc _ _ _, hne⟩
  | isNull negated t => exact .inl ⟨t, h, _, List.append_assoc _ _ _, by simp⟩
  | like negated t pattern escape =>
    refine .inl ⟨t, h.1, _, (List.append_assoc _ _ _).trans (List.append_assoc _ _ _), ?_⟩
    simp
  | between negated t low high =>
    refine .inl ⟨t, h.1, _, (List.append_assoc _ _ _).trans (List.append_assoc _ _ _), ?_⟩
    simp
  | inList negated t values => exact .inl ⟨t, h.1, _, List.append_assoc _ _ _, by simp⟩
  | inQuery negated t body => exact .inl ⟨t, h.1, _, List.append_assoc _ _ _, by simp⟩
  | rowInList negated r values => exact .inr (.inl ⟨r, h.1, _, List.append_assoc _ _ _⟩)
  | rowInQuery negated r body => exact .inr (.inl ⟨r, h.1, _, List.append_assoc _ _ _⟩)
  | «exists» negated body => exact .inr (.inr ⟨negated, body, rfl⟩)

theorem startsNegation_tokens {p : Predicate} (h : p.Legal) (rest : List Lexeme) :
    startsNegation (p.tokens ++ rest) = false := by
  rcases exists_tokens h with ⟨t, ht, more, hp, _⟩ | ⟨r, _, more, hp⟩ | ⟨negated, body, rfl⟩
  · rw [hp, List.append_assoc]
    exact Term.startsNegation_tokens ht _
  · rw [hp]
    exact startsNegation_of_ne (Keyword.lexeme_ne_mark .not _).symm _
  · cases negated with
    | false => exact startsNegation_of_ne (fun he => by simpa using Keyword.lexeme_inj.mp he) _
    | true => simp [tokens, notTokens, parenthesize, startsNegation, startsExists_exists]

/-- No condition stands behind a parenthesis at the beginning of a predicate. -/
theorem barren {p : Predicate} (h : p.Legal) {rest ls : List Lexeme}
    (he : expect (.mark '(') (p.tokens ++ rest) = some ls) : Barren ls := by
  rcases exists_tokens h with ⟨t, ht, more, hp, _⟩ | ⟨r, hr, more, hp⟩ | ⟨negated, body, rfl⟩
  · rw [hp, List.append_assoc] at he
    exact .inl (Term.startsQuery_of_expect ht he)
  · simp only [hp, Row.tokens, List.cons_append, List.append_assoc, expect_self,
      Option.some.injEq] at he
    exact .inr ⟨r.first, hr.1, _, he.symm⟩
  · cases negated <;> simp [tokens, notTokens, expect, Keyword.lexeme] at he

theorem begins {p : Predicate} (h : p.Legal) : Begins p.tokens := by
  rcases exists_tokens h with ⟨t, ht, more, he, hmore⟩ | ⟨q, hq, more, he⟩ | ⟨negated, body, rfl⟩
  · obtain ⟨l, ls, hl, _⟩ := Term.head_tokens ht
    have hpoint := Term.head_ne_mark ht (c := '.') (by decide) more
    obtain ⟨m, ms, hm⟩ := List.exists_cons_of_ne_nil hmore
    rw [hl] at hpoint
    -- a term may be one token, and then the second one comes from what follows it
    cases ls with
    | nil => exact ⟨l, m, ms, by rw [he, hl, hm]; rfl, hpoint l rfl⟩
    | cons n ls => exact ⟨l, n, ls ++ more, by rw [he, hl]; rfl, hpoint l rfl⟩
  · obtain ⟨l, ls, hl, _⟩ := Term.head_tokens hq.1
    exact ⟨.mark '(', l, _, by rw [he, Row.tokens, hl]; rfl, by simp⟩
  · cases negated with
    | false => exact ⟨_, _, _, rfl, Keyword.lexeme_ne_mark _ _⟩
    | true => exact ⟨_, _, _, rfl, Keyword.lexeme_ne_mark _ _⟩

end Predicate

namespace Derives

variable {k : Rank} {ts : List Lexeme} {r s : Reading}

theorem begins (h : Derives k ts r) : Begins ts := by
  induction h with
  | predicate hp => exact Predicate.begins hp
  | parenthesized _ ih =>
    obtain ⟨l, m, ls, rfl, _⟩ := ih
    exact ⟨.mark '(', l, _, rfl, by simp⟩
  | primary _ ih => exact ih
  | not _ _ ih =>
    obtain ⟨l, m, ls, rfl, _⟩ := ih
    exact ⟨_, l, _, rfl, Keyword.lexeme_ne_mark _ _⟩
  | all hne _ ih => exact .joinTokens hne ih
  | any hne _ ih => exact .joinTokens hne ih

theorem startsNegation_primary (h : Derives .primary ts r) (rest : List Lexeme) :
    startsNegation (ts ++ rest) = false := by
  cases h with
  | predicate hp => exact Predicate.startsNegation_tokens hp rest
  | parenthesized _ => exact startsNegation_of_ne (Keyword.lexeme_ne_mark .not _).symm _

theorem startsNegation_not (h : Derives .negation ts r) (hexists : startsExists ts = false)
    (rest : List Lexeme) : startsNegation (Keyword.not.lexeme :: ts ++ rest) = true := by
  obtain ⟨l, m, ls, rfl, hl⟩ := begins h
  have hmore : startsExists (l :: m :: ls ++ rest) = false := by
    rw [startsExists_append, hexists]
  simp only [List.cons_append] at hmore
  simp [startsNegation, hl, hmore]

/-- The parser finds the reading, whatever follows the tokens without going on with them. -/
def Found (n : Nat) (k : Rank) (ts : List Lexeme) (r : Reading) : Prop :=
  ∀ rest : List Lexeme, (∀ l ∈ rest.head?, k.Ends l) → parse n k (ts ++ rest) = some (r, rest)

end Derives

theorem exists_depth {α : Type} {P : Nat → α → Prop} {xs : List α}
    (h : ∀ x ∈ xs, ∃ N, ∀ n ≥ N, P n x) : ∃ N, ∀ n ≥ N, ∀ x ∈ xs, P n x := by
  induction xs with
  | nil => exact ⟨0, fun _ _ x hx => absurd hx List.not_mem_nil⟩
  | cons x xs ih =>
    obtain ⟨N, hN⟩ := h x List.mem_cons_self
    obtain ⟨M, hM⟩ := ih fun y hy => h y (List.mem_cons_of_mem _ hy)
    refine ⟨max N M, fun n hn y hy => ?_⟩
    rcases List.mem_cons.mp hy with rfl | hy
    · exact hN n (by omega)
    · exact hM n (by omega) y hy

namespace Derives

variable {k : Rank} {ts : List Lexeme} {r s : Reading}

theorem found_chain {separator : Lexeme} {parts : List (List Lexeme × Reading)}
    (hne : parts ≠ []) (h : ∀ x ∈ parts, ∃ N, ∀ n ≥ N, Found n k x.1 x.2)
    (hseparator : k.Ends separator) :
    ∃ N, ∀ n ≥ N, ∀ rest : List Lexeme, (∀ l ∈ rest.head?, k.Ends l ∧ l ≠ separator) →
      chain separator (parse n k) n (joinTokens separator (parts.map (·.1)) ++ rest) =
        some (parts.map (·.2), rest) := by
  -- the depth has to do for each part and for the number of parts
  obtain ⟨N, hN⟩ := exists_depth h
  refine ⟨max N parts.length, fun n hn rest hrest => ?_⟩
  exact chain_joinTokens hne (hN n (by omega)) hseparator (fun l hl => (hrest l hl).1)
    (fun l hl => (hrest l hl).2) (by omega)

/-- Every reading that the grammar allows is found at some depth, and at every greater one. -/
theorem found (h : Derives k ts r) : ∃ N, ∀ n ≥ N, Found n k ts r := by
  induction h with
  | predicate hp =>
    rename_i p
    refine ⟨p.width + 1, fun n hn rest hrest => ?_⟩
    obtain ⟨n, rfl⟩ : ∃ m, n = m + 1 := ⟨n - 1, by omega⟩
    have hread := Predicate.predicate?_tokens hp hrest (n := n) (by omega)
    cases he : expect (.mark '(') (p.tokens ++ rest) with
    | none => simp [parse, he, hread]
    | some ls => simp [parse, he, hread, (Predicate.barren hp he).parse_eq n]
  | parenthesized _ ih =>
    obtain ⟨N, hN⟩ := ih
    refine ⟨N + 1, fun n hn rest hrest => ?_⟩
    obtain ⟨n, rfl⟩ : ∃ m, n = m + 1 := ⟨n - 1, by omega⟩
    have hinner := hN n (by omega) (.mark ')' :: rest) (by simp [Rank.Ends, Keyword.lexeme])
    simp [parse, parenthesize, hinner]
  | primary h ih =>
    obtain ⟨N, hN⟩ := ih
    refine ⟨N + 1, fun n hn rest hrest => ?_⟩
    obtain ⟨n, rfl⟩ : ∃ m, n = m + 1 := ⟨n - 1, by omega⟩
    simp [parse, startsNegation_primary h, hN n (by omega) rest hrest]
  | not h hexists ih =>
    obtain ⟨N, hN⟩ := ih
    refine ⟨N + 1, fun n hn rest hrest => ?_⟩
    obtain ⟨n, rfl⟩ : ∃ m, n = m + 1 := ⟨n - 1, by omega⟩
    rw [parse, if_pos (startsNegation_not h hexists rest), List.cons_append, List.tail_cons,
      hN n (by omega) rest hrest, Option.map_some]
  | all hne _ ih =>
    have hand : Rank.Ends .negation Keyword.and.lexeme := by
      simp [Rank.Ends, Keyword.lexeme_inj, Keyword.lexeme_ne_mark]
    obtain ⟨N, hN⟩ := found_chain hne ih hand
    refine ⟨N + 1, fun n hn rest hrest => ?_⟩
    obtain ⟨n, rfl⟩ : ∃ m, n = m + 1 := ⟨n - 1, by omega⟩
    rw [parse, hN n (by omega) rest hrest, Option.map_some]
  | any hne _ ih =>
    have hor : Rank.Ends .conjunction Keyword.or.lexeme := by
      simp [Rank.Ends, Keyword.lexeme_inj, Keyword.lexeme_ne_mark]
    obtain ⟨N, hN⟩ := found_chain hne ih hor
    refine ⟨N + 1, fun n hn rest hrest => ?_⟩
    obtain ⟨n, rfl⟩ : ∃ m, n = m + 1 := ⟨n - 1, by omega⟩
    rw [parse, hN n (by omega) rest hrest, Option.map_some]

/-- A token sequence has one reading at most. -/
theorem unique (h : Derives k ts r) (hs : Derives k ts s) : r = s := by
  obtain ⟨N, hN⟩ := found h
  obtain ⟨M, hM⟩ := found hs
  have hr := hN (max N M) (le_max_left N M) [] (by simp)
  have hs := hM (max N M) (le_max_right N M) [] (by simp)
  rw [hr] at hs
  exact (Prod.mk.inj (Option.some.inj hs)).1

end Derives

end SqlCompose
