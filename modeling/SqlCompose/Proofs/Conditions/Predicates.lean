import SqlCompose.Proofs.Conditions.Parser

/-! A parser for predicates. The tokens that follow the first term or row value say which predicate
it is, so that no decision is gone back over. -/

namespace SqlCompose

/-- What follows the left side of `[not] like`. -/
def likeTail? (negated : Bool) (t : Term) (ls : List Lexeme) :
    Option (Predicate × List Lexeme) :=
  (term? ls).bind fun pattern =>
    match expect Keyword.escape.lexeme pattern.2 with
    | some rest => (term? rest).map fun e => (.like negated t pattern.1 (some e.1), e.2)
    | none => some (.like negated t pattern.1 none, pattern.2)

/-- What follows the left side of `[not] between`. -/
def betweenTail? (negated : Bool) (t : Term) (ls : List Lexeme) :
    Option (Predicate × List Lexeme) :=
  (term? ls).bind fun low => (expect Keyword.and.lexeme low.2).bind fun rest =>
    (term? rest).map fun high => (.between negated t low.1 high.1, high.2)

/-- What follows a term and possibly `not`. -/
def verbTail? (n : Nat) (negated : Bool) (t : Term) : List Lexeme → Option (Predicate × List Lexeme)
  | [] => none
  | l :: ls =>
    if l = Keyword.like.lexeme then likeTail? negated t ls
    else if l = Keyword.between.lexeme then betweenTail? negated t ls
    else if l = Keyword.inside.lexeme then (members? term? n ls).map fun x =>
      (match x.1 with
        | .inl values => .inList negated t values
        | .inr body => .inQuery negated t body, x.2)
    else none

/-- What follows the left side of a predicate. -/
def termTail? (n : Nat) (t : Term) (ls : List Lexeme) : Option (Predicate × List Lexeme) :=
  match comparison? ls with
  | some (op, rest) => (term? rest).map fun r => (.compare op t r.1, r.2)
  | none =>
    match expect Keyword.is.lexeme ls with
    | some rest =>
      (expect Keyword.null.lexeme (dropNot rest).2).map fun last =>
        (.isNull (dropNot rest).1 t, last)
    | none => verbTail? n (dropNot ls).1 t (dropNot ls).2

def rowTail? (n : Nat) (r : Row) (ls : List Lexeme) : Option (Predicate × List Lexeme) :=
  (expect Keyword.inside.lexeme (dropNot ls).2).bind fun rest =>
    (members? row? n rest).map fun x =>
      (match x.1 with
        | .inl values => .rowInList (dropNot ls).1 r values
        | .inr body => .rowInQuery (dropNot ls).1 r body, x.2)

/-- The first token opens a row value and not a sub-query. -/
def startsRow : List Lexeme → Bool
  | .mark '(' :: ls => !startsQuery ls
  | _ => false

def predicate? (n : Nat) (ls : List Lexeme) : Option (Predicate × List Lexeme) :=
  if startsExists ls then (closing? 0 (ls.drop 2)).map fun x => (.exists false x.1, x.2)
  else if (dropNot ls).1 && startsExists (dropNot ls).2 then
    (closing? 0 ((dropNot ls).2.drop 2)).map fun x => (.exists true x.1, x.2)
  else if startsRow ls then (row? ls).bind fun r => rowTail? n r.1 r.2
  else (term? ls).bind fun t => termTail? n t.1 t.2

theorem Predicate.head_notTokens_ne_mark (k : Keyword) (negated : Bool) (c : Char)
    (rest : List Lexeme) : ∀ l ∈ (notTokens negated ++ k.lexeme :: rest).head?, l ≠ .mark c := by
  cases negated <;> simp [notTokens, Keyword.lexeme]

/-- Neither a comparison nor `is` stands in front of a verb. -/
theorem termTail?_verb {k : Keyword} (hnot : k ≠ .not) (his : k ≠ .is) (n : Nat) (t : Term)
    (negated : Bool) (rest : List Lexeme) :
    termTail? n t (Predicate.notTokens negated ++ k.lexeme :: rest) =
      verbTail? n negated t (k.lexeme :: rest) := by
  have hcomparison : comparison? (Predicate.notTokens negated ++ k.lexeme :: rest) = none := by
    cases negated <;> exact comparison?_keyword _ _
  have hexpect : expect Keyword.is.lexeme (Predicate.notTokens negated ++ k.lexeme :: rest) =
      none := by
    cases negated with
    | true => exact expect_of_ne (fun he => by simpa using Keyword.lexeme_inj.mp he) _
    | false => exact expect_of_ne (fun he => his (Keyword.lexeme_inj.mp he)) _
  simp [termTail?, hcomparison, hexpect, dropNot_notTokens hnot]

/-- What may follow a predicate does not go on with it. -/
def EndsPredicate (rest : List Lexeme) : Prop :=
  ∀ l ∈ rest.head?, l ≠ .mark '.' ∧ l ≠ Keyword.escape.lexeme

theorem startsExists_exists (ls : List Lexeme) :
    startsExists (Keyword.exists.lexeme :: .mark '(' :: ls) = true := by
  simp [startsExists]

theorem startsExists_of_ne {l : Lexeme} (h : l ≠ Keyword.exists.lexeme) (ls : List Lexeme) :
    startsExists (l :: ls) = false := by
  unfold startsExists
  split
  · rename_i he
    simp only [List.cons.injEq] at he
    simpa [← he.1] using h
  · rfl

namespace Term

variable {t : Term}

theorem startsExists_tokens (h : t.Legal) (rest : List Lexeme) :
    startsExists (t.tokens ++ rest) = false := by
  cases t with
  | column q n => simp [tokens, startsExists]
  | number ds => exact startsExists_of_ne (word_ne_keyword h .exists) rest
  | parameter => exact startsExists_of_ne (Keyword.lexeme_ne_mark _ _).symm rest
  | subQuery body => exact startsExists_of_ne (Keyword.lexeme_ne_mark _ _).symm _

theorem startsNotExists_tokens (h : t.Legal) (rest : List Lexeme) :
    ((dropNot (t.tokens ++ rest)).1 && startsExists (dropNot (t.tokens ++ rest)).2) = false := by
  by_cases hnot : ∃ n, t = .column Keyword.not.lexeme n
  · obtain ⟨n, rfl⟩ := hnot
    have hpoint := startsExists_of_ne (Keyword.lexeme_ne_mark .exists '.').symm (n :: rest)
    simp [tokens, dropNot_not, hpoint]
  · have hhead : ∀ l ∈ (t.tokens ++ rest).head?, l ≠ Keyword.not.lexeme := by
      intro l hl
      cases t with
      | column q n =>
        obtain rfl : q = l := by simpa [tokens] using hl
        exact fun he => hnot ⟨n, he ▸ rfl⟩
      | number ds =>
        obtain rfl : .word ds = l := by simpa [tokens] using hl
        exact word_ne_keyword h .not
      | parameter =>
        obtain rfl : .mark '?' = l := by simpa [tokens] using hl
        exact (Keyword.lexeme_ne_mark .not '?').symm
      | subQuery body =>
        obtain rfl : .mark '(' = l := by simpa [tokens] using hl
        exact (Keyword.lexeme_ne_mark .not '(').symm
    simp [dropNot_of_head hhead]

theorem startsRow_tokens (h : t.Legal) (rest : List Lexeme) :
    startsRow (t.tokens ++ rest) = false := by
  cases t with
  | column q n =>
    have hq : q ≠ .mark '(' := by
      rintro rfl
      exact absurd h.1 (by simp [Lexeme.isName])
    simp only [tokens, List.cons_append]
    unfold startsRow
    split
    · rename_i he
      exact absurd (List.cons.inj he).1 hq
    · rfl
  | number ds => simp [tokens, startsRow]
  | parameter => simp [tokens, startsRow]
  | subQuery body => simp [tokens, startsRow, IsQuery.startsQuery h]

/-- A predicate that begins with a term is read from that term on. -/
theorem predicate?_tokens (h : t.Legal) {rest : List Lexeme}
    (hrest : ∀ l ∈ rest.head?, l ≠ .mark '.') (n : Nat) :
    predicate? n (t.tokens ++ rest) = termTail? n t rest := by
  simp [predicate?, startsExists_tokens h, startsNotExists_tokens h, startsRow_tokens h,
    term?_tokens h hrest]

theorem predicate?_verb (h : t.Legal) {k : Keyword} (hnot : k ≠ .not) (his : k ≠ .is) (n : Nat)
    (negated : Bool) (rest : List Lexeme) :
    predicate? n (t.tokens ++ (Predicate.notTokens negated ++ k.lexeme :: rest)) =
      verbTail? n negated t (k.lexeme :: rest) := by
  rw [predicate?_tokens h (Predicate.head_notTokens_ne_mark k negated '.' rest),
    termTail?_verb hnot his]

end Term

theorem likeTail?_tokens {pattern : Term} (h : pattern.Legal) (negated : Bool) (t : Term)
    {rest : List Lexeme} (hrest : EndsPredicate rest) :
    likeTail? negated t (pattern.tokens ++ rest) =
      some (.like negated t pattern none, rest) := by
  have hend : ∀ l ∈ rest.head?, l ≠ Keyword.escape.lexeme := fun l hl => (hrest l hl).2
  simp [likeTail?, Term.term?_tokens h fun l hl => (hrest l hl).1, expect_of_head hend]

theorem likeTail?_escape {pattern e : Term} (h : pattern.Legal) (he : e.Legal) (negated : Bool)
    (t : Term) {rest : List Lexeme} (hpoint : ∀ l ∈ rest.head?, l ≠ .mark '.') :
    likeTail? negated t (pattern.tokens ++ Keyword.escape.lexeme :: (e.tokens ++ rest)) =
      some (.like negated t pattern (some e), rest) := by
  have hmiddle := Term.term?_tokens_cons h (Keyword.lexeme_ne_mark .escape '.') (e.tokens ++ rest)
  simp [likeTail?, hmiddle, Term.term?_tokens he hpoint]

theorem betweenTail?_tokens {low high : Term} (hlow : low.Legal) (hhigh : high.Legal)
    (negated : Bool) (t : Term) {rest : List Lexeme} (hpoint : ∀ l ∈ rest.head?, l ≠ .mark '.') :
    betweenTail? negated t (low.tokens ++ Keyword.and.lexeme :: (high.tokens ++ rest)) =
      some (.between negated t low high, rest) := by
  have hmiddle := Term.term?_tokens_cons hlow (Keyword.lexeme_ne_mark .and '.')
    (high.tokens ++ rest)
  simp [betweenTail?, hmiddle, Term.term?_tokens hhigh hpoint]

/-- A predicate that begins with a row value is read from that row value on. -/
theorem Row.predicate?_tokens {r : Row} (h : r.Legal) (rest : List Lexeme) (n : Nat) :
    predicate? n (r.tokens ++ rest) = rowTail? n r rest := by
  have hhead : ∀ l ∈ (r.tokens ++ rest).head?, l ≠ Keyword.not.lexeme := by
    intro l hl
    obtain rfl : .mark '(' = l := by simpa [tokens] using hl
    exact (Keyword.lexeme_ne_mark .not '(').symm
  have hexists : startsExists (r.tokens ++ rest) = false :=
    startsExists_of_ne (Keyword.lexeme_ne_mark _ _).symm _
  have hrow : startsRow (r.tokens ++ rest) = true := by
    have hq := Term.startsQuery_tokens h.1
      (.mark ',' :: (r.second.tokens ++ .mark ')' :: rest))
    simp [tokens, startsRow, hq]
  simp [predicate?, hexists, dropNot_of_head hhead, hrow, row?_tokens h]

namespace Predicate

/-- How many members the list of a predicate has. -/
def width : Predicate → Nat
  | .inList _ _ values => values.length
  | .rowInList _ _ values => values.length
  | _ => 0

/-- Every predicate is read back, whatever follows it without going on with it. -/
theorem predicate?_tokens {p : Predicate} (h : p.Legal) {rest : List Lexeme}
    (hrest : EndsPredicate rest) {n : Nat} (hn : p.width ≤ n) :
    predicate? n (p.tokens ++ rest) = some (p, rest) := by
  have hpoint : ∀ l ∈ rest.head?, l ≠ .mark '.' := fun l hl => (hrest l hl).1
  cases p with
  | compare op l r =>
    obtain ⟨hl, hr⟩ := h
    have hop : comparison? (op.tokens ++ (r.tokens ++ rest)) = some (op, r.tokens ++ rest) :=
      op.comparison?_tokens (Term.head_ne_mark hr (by decide) rest)
        (Term.head_ne_mark hr (by decide) rest)
    have hstart : ∀ m ∈ (op.tokens ++ (r.tokens ++ rest)).head?, m ≠ .mark '.' := by
      cases op <;> simp [Comparison.tokens]
    simp [tokens, Term.predicate?_tokens hl hstart, termTail?, hop, Term.term?_tokens hr hpoint]
  | isNull negated t =>
    have ht : ∀ ls, predicate? n (t.tokens ++ Keyword.is.lexeme :: ls) =
        termTail? n t (Keyword.is.lexeme :: ls) := fun ls =>
      Term.predicate?_tokens h (by simp [Keyword.lexeme]) n
    simp only [tokens, List.append_assoc, List.cons_append, List.nil_append, ht]
    simp [termTail?, comparison?_keyword, dropNot_notTokens (k := .null) (by decide)]
  | like negated t pattern escape =>
    obtain ⟨ht, hpattern, hescape⟩ := h
    cases escape with
    | none =>
      simp only [tokens, List.append_assoc, List.cons_append, List.append_nil]
      rw [Term.predicate?_verb ht (by decide) (by decide)]
      simp [verbTail?, likeTail?_tokens hpattern negated t hrest]
    | some e =>
      simp only [tokens, List.append_assoc, List.cons_append]
      rw [Term.predicate?_verb ht (by decide) (by decide)]
      simp [verbTail?, likeTail?_escape hpattern (hescape e rfl) negated t hpoint]
  | between negated t low high =>
    obtain ⟨ht, hlow, hhigh⟩ := h
    simp only [tokens, List.append_assoc, List.cons_append]
    rw [Term.predicate?_verb ht (by decide) (by decide)]
    simp [verbTail?, Keyword.lexeme_inj, betweenTail?_tokens hlow hhigh negated t hpoint]
  | inList negated t values =>
    obtain ⟨ht, hne, hvalues⟩ := h
    have hlist : members? term? n (parenthesize (joinTokens (.mark ',')
        (values.map Term.tokens)) ++ rest) = some (.inl values, rest) :=
      members?_list hne (fun v hv _ => Term.term?_tokens (hvalues v hv))
        (fun v hv => Term.startsQuery_tokens (hvalues v hv)) hn rest
    simp only [tokens, List.append_assoc, List.cons_append]
    rw [Term.predicate?_verb ht (by decide) (by decide)]
    simp [verbTail?, Keyword.lexeme_inj, hlist]
  | inQuery negated t body =>
    obtain ⟨ht, hbody⟩ := h
    simp only [tokens, List.append_assoc, List.cons_append]
    rw [Term.predicate?_verb ht (by decide) (by decide)]
    simp [verbTail?, Keyword.lexeme_inj, members?_query hbody]
  | rowInList negated r values =>
    obtain ⟨hr, hne, hvalues⟩ := h
    have hlist : members? row? n (parenthesize (joinTokens (.mark ',')
        (values.map Row.tokens)) ++ rest) = some (.inl values, rest) :=
      members?_list hne (fun v hv _ _ => Row.row?_tokens (hvalues v hv) _)
        (fun v _ => v.startsQuery_tokens) hn rest
    simp only [tokens, List.append_assoc, List.cons_append, Row.predicate?_tokens hr]
    simp [rowTail?, dropNot_notTokens (k := .inside) (by decide), hlist]
  | rowInQuery negated r body =>
    obtain ⟨hr, hbody⟩ := h
    simp only [tokens, List.append_assoc, List.cons_append, Row.predicate?_tokens hr]
    simp [rowTail?, dropNot_notTokens (k := .inside) (by decide), members?_query hbody]
  | «exists» negated body =>
    have hclose := IsQuery.closing? h rest
    have hexists := startsExists_exists (body ++ .mark ')' :: rest)
    cases negated with
    | false => simp [tokens, notTokens, predicate?, parenthesize, hexists, hclose]
    | true =>
      have hnot := startsExists_of_ne (l := Keyword.not.lexeme)
        (fun he => by simpa using Keyword.lexeme_inj.mp he)
      simp [tokens, notTokens, predicate?, parenthesize, hnot, dropNot_not, hexists, hclose]

end Predicate

end SqlCompose
