import SqlCompose.Proofs.Conditions.Grammar

/-! Parsers for the parts of predicates. Each finds again what was written, whatever follows it
without going on with it. -/

namespace SqlCompose

namespace Keyword

theorem lexeme_inj : ∀ {j k : Keyword}, j.lexeme = k.lexeme ↔ j = k := by
  have h : ∀ j k : Keyword, j.text.toList = k.text.toList → j = k := by
    intro j k
    cases j <;> cases k <;> decide
  exact fun {j k} => ⟨fun he => h j k (Lexeme.word.inj he), fun he => he ▸ rfl⟩

theorem lexeme_ne_mark (k : Keyword) (c : Char) : k.lexeme ≠ .mark c := by simp [lexeme]

end Keyword

section Parser

variable {α β : Type}

/-- The tokens before the parenthesis that closes the ones open, and those after it. -/
def closing? : Nat → List Lexeme → Option (List Lexeme × List Lexeme)
  | _, [] => none
  | depth, .mark '(' :: ls =>
    (closing? (depth + 1) ls).map fun x => (.mark '(' :: x.1, x.2)
  | 0, .mark ')' :: ls => some ([], ls)
  | depth + 1, .mark ')' :: ls => (closing? depth ls).map fun x => (.mark ')' :: x.1, x.2)
  | depth, l :: ls => (closing? depth ls).map fun x => (l :: x.1, x.2)

def term? : List Lexeme → Option (Term × List Lexeme)
  | .mark '?' :: ls => some (.parameter, ls)
  | .mark '(' :: ls =>
    if startsQuery ls then (closing? 0 ls).map fun x => (.subQuery x.1, x.2) else none
  | q :: .mark '.' :: n :: ls => if q.isName && n.isName then some (.column q n, ls) else none
  | .word ds :: ls => if ds.all Char.isDigit then some (.number ds, ls) else none
  | _ => none

def comparison? : List Lexeme → Option (Comparison × List Lexeme)
  | .mark '=' :: ls => some (.equal, ls)
  | .mark '<' :: .mark '>' :: ls => some (.notEqual, ls)
  | .mark '<' :: .mark '=' :: ls => some (.lessOrEqual, ls)
  | .mark '<' :: ls => some (.less, ls)
  | .mark '>' :: .mark '=' :: ls => some (.greaterOrEqual, ls)
  | .mark '>' :: ls => some (.greater, ls)
  | _ => none

/-- Removes a token that has to come next. -/
def expect (l : Lexeme) : List Lexeme → Option (List Lexeme)
  | [] => none
  | m :: ls => if m = l then some ls else none

/-- Removes the keyword `not`, and tells whether it was there. -/
def dropNot (ls : List Lexeme) : Bool × List Lexeme :=
  match expect Keyword.not.lexeme ls with
  | some rest => (true, rest)
  | none => (false, ls)

def row? (ls : List Lexeme) : Option (Row × List Lexeme) :=
  (expect (.mark '(') ls).bind fun ls => (term? ls).bind fun a =>
    (expect (.mark ',') a.2).bind fun ls => (term? ls).bind fun b =>
      (expect (.mark ')') b.2).map fun ls => (⟨a.1, b.1⟩, ls)

/-- What a parser finds again and again, with a separator between neighbours. -/
def chain (separator : Lexeme) (find : List Lexeme → Option (α × List Lexeme)) :
    Nat → List Lexeme → Option (List α × List Lexeme)
  | 0, _ => none
  | n + 1, ls => (find ls).bind fun a =>
    match expect separator a.2 with
    | some rest => (chain separator find n rest).map fun x => (a.1 :: x.1, x.2)
    | none => some ([a.1], a.2)

/-- The right side of `in`: a list of what the parser finds, or a sub-query. -/
def members? (find : List Lexeme → Option (α × List Lexeme)) (n : Nat) (ls : List Lexeme) :
    Option ((List α ⊕ List Lexeme) × List Lexeme) :=
  (expect (.mark '(') ls).bind fun ls =>
    if startsQuery ls then (closing? 0 ls).map fun x => (.inr x.1, x.2)
    else (chain (.mark ',') find n ls).bind fun x =>
      (expect (.mark ')') x.2).map fun rest => (.inl x.1, rest)

end Parser

@[simp] theorem expect_self (l : Lexeme) (ls : List Lexeme) : expect l (l :: ls) = some ls := by
  simp [expect]

theorem expect_of_ne {l m : Lexeme} (h : m ≠ l) (ls : List Lexeme) : expect l (m :: ls) = none := by
  simp [expect, h]

theorem expect_of_head {l : Lexeme} {ls : List Lexeme} (h : ∀ m ∈ ls.head?, m ≠ l) :
    expect l ls = none := by
  cases ls with
  | nil => rfl
  | cons m ls => exact expect_of_ne (h m rfl) ls

theorem closing?_append {ls : List Lexeme} {depth after : Nat}
    (h : Lexeme.depth? depth ls = some after) (more : List Lexeme) :
    closing? depth (ls ++ more) = (closing? after more).map fun x => (ls ++ x.1, x.2) := by
  induction ls generalizing depth with
  | nil =>
    obtain rfl : depth = after := by simpa [Lexeme.depth?] using h
    simp
  | cons l ls ih =>
    rw [List.cons_append]
    rcases Lexeme.depth?_cons_eq_some h with
      ⟨rfl, hls⟩ | ⟨rfl, below, rfl, hls⟩ | ⟨hopen, hclose, hls⟩
    · simp [closing?, ih hls, Function.comp_def]
    · simp [closing?, ih hls, Function.comp_def]
    · simp [closing?, hclose, ih hls, Function.comp_def]

namespace IsQuery

variable {body : List Lexeme}

theorem closing? (h : IsQuery body) (rest : List Lexeme) :
    SqlCompose.closing? 0 (body ++ .mark ')' :: rest) = some (body, rest) := by
  rw [closing?_append h.balanced]
  simp [SqlCompose.closing?]

theorem startsQuery (h : IsQuery body) (rest : List Lexeme) :
    SqlCompose.startsQuery (body ++ .mark ')' :: rest) = true := by
  have hs := h.starts
  match body with
  | [] => simp [SqlCompose.startsQuery] at hs
  | [l] => simpa [SqlCompose.startsQuery] using hs
  | l :: m :: ls => simpa [SqlCompose.startsQuery] using hs

end IsQuery

namespace Term

variable {t : Term}

theorem word_ne_keyword {ds : List Char} (h : (number ds).Legal) (k : Keyword) :
    Lexeme.word ds ≠ k.lexeme := by
  intro he
  have hds : ds = k.text.toList := Lexeme.word.inj he
  have hletter : ∀ k : Keyword, k.text.toList.all Char.isDigit = false := by
    intro k
    cases k <;> decide
  have hdigits : ds.all Char.isDigit = true := List.all_eq_true.mpr h.2
  rw [hds, hletter k] at hdigits
  exact absurd hdigits (by simp)

/-- A term begins with a name, with a number, with a placeholder or with a parenthesis. -/
theorem head_tokens (h : t.Legal) :
    ∃ l ls, t.tokens = l :: ls ∧ (l.isName = true ∨ l = .mark '?' ∨ l = .mark '(') := by
  cases t with
  | column q n => exact ⟨q, _, rfl, .inl h.1⟩
  | number ds => exact ⟨.word ds, _, rfl, .inl rfl⟩
  | parameter => exact ⟨_, _, rfl, .inr (.inl rfl)⟩
  | subQuery body => exact ⟨_, _, rfl, .inr (.inr rfl)⟩

theorem head_ne_mark (h : t.Legal) {c : Char} (hc : c ≠ '?' ∧ c ≠ '(') (rest : List Lexeme) :
    ∀ l ∈ (t.tokens ++ rest).head?, l ≠ .mark c := by
  obtain ⟨l, ls, hl, hhead⟩ := head_tokens h
  intro m hm
  rw [hl] at hm
  obtain rfl : l = m := by simpa using hm
  rintro rfl
  rcases hhead with hname | he | he
  · exact absurd hname (by simp [Lexeme.isName])
  · exact hc.1 (Lexeme.mark.inj he)
  · exact hc.2 (Lexeme.mark.inj he)

theorem term?_tokens (h : t.Legal) {rest : List Lexeme}
    (hrest : ∀ l ∈ rest.head?, l ≠ .mark '.') : term? (t.tokens ++ rest) = some (t, rest) := by
  cases t with
  | column q n =>
    obtain ⟨hq, hn⟩ := h
    cases q with
    | word w => simp [tokens, term?, hq, hn]
    | quoted w => simp [tokens, term?, hq, hn]
    | unclosed w => simp [Lexeme.isName] at hq
    | mark c => simp [Lexeme.isName] at hq
  | number ds =>
    have hdigits : ds.all Char.isDigit = true := List.all_eq_true.mpr h.2
    cases rest with
    | nil => simp [tokens, term?, hdigits]
    | cons l rest =>
      have hl : l ≠ .mark '.' := hrest l rfl
      simp only [tokens, List.singleton_append]
      unfold term?
      split
      · rename_i he
        simp at he
      · rename_i he
        simp at he
      · rename_i he
        simp only [List.cons.injEq] at he
        exact absurd he.2.1 hl
      · rename_i he
        simp only [List.cons.injEq, Lexeme.word.injEq] at he
        obtain ⟨rfl, rfl⟩ := he
        simp [hdigits]
      · rename_i he
        exact absurd rfl (he ds (l :: rest))
  | parameter => simp [tokens, term?]
  | subQuery body =>
    simp [tokens, term?, IsQuery.startsQuery h, IsQuery.closing? h]

/-- No term begins like a sub-query. -/
theorem startsQuery_tokens (h : t.Legal) (rest : List Lexeme) :
    startsQuery (t.tokens ++ rest) = false := by
  cases t with
  | column q n => simp [tokens, startsQuery]
  | number ds =>
    have hne := word_ne_keyword h .select
    cases rest <;> simp [tokens, startsQuery, hne]
  | parameter => cases rest <;> simp [tokens, startsQuery, Keyword.lexeme]
  | subQuery body =>
    cases body <;> simp [tokens, startsQuery, Keyword.lexeme]

theorem term?_tokens_cons (h : t.Legal) {l : Lexeme} (hl : l ≠ .mark '.') (rest : List Lexeme) :
    term? (t.tokens ++ l :: rest) = some (t, l :: rest) :=
  term?_tokens h fun m hm => by
    obtain rfl : l = m := by simpa using hm
    exact hl

end Term

namespace Row

variable {r : Row}

theorem row?_tokens (h : r.Legal) (rest : List Lexeme) :
    row? (r.tokens ++ rest) = some (r, rest) := by
  have hfirst := Term.term?_tokens_cons h.1 (l := .mark ',') (by simp)
    (r.second.tokens ++ .mark ')' :: rest)
  have hsecond := Term.term?_tokens_cons h.2 (l := .mark ')') (by simp) rest
  simp [row?, tokens, hfirst, hsecond]

theorem startsQuery_tokens (rest : List Lexeme) : startsQuery (r.tokens ++ rest) = false := by
  obtain ⟨a, b⟩ := r
  unfold tokens
  cases a.tokens <;> simp [startsQuery, Keyword.lexeme]

end Row

theorem Comparison.comparison?_tokens (op : Comparison) {rest : List Lexeme}
    (hequal : ∀ l ∈ rest.head?, l ≠ .mark '=') (hgreater : ∀ l ∈ rest.head?, l ≠ .mark '>') :
    comparison? (op.tokens ++ rest) = some (op, rest) := by
  cases rest with
  | nil => cases op <;> rfl
  | cons l rest =>
    have he := hequal l rfl
    have hg := hgreater l rfl
    cases op <;> simp [tokens, comparison?, he, hg]

theorem comparison?_keyword (k : Keyword) (rest : List Lexeme) :
    comparison? (k.lexeme :: rest) = none := by
  simp [comparison?, Keyword.lexeme]

theorem dropNot_not (rest : List Lexeme) : dropNot (Keyword.not.lexeme :: rest) = (true, rest) := by
  simp [dropNot]

theorem dropNot_of_head {ls : List Lexeme} (h : ∀ l ∈ ls.head?, l ≠ Keyword.not.lexeme) :
    dropNot ls = (false, ls) := by
  simp [dropNot, expect_of_head h]

/-- Whether a keyword is negated is seen from the token in front of it. -/
theorem dropNot_notTokens {k : Keyword} (hk : k ≠ .not) (negated : Bool) (rest : List Lexeme) :
    dropNot (Predicate.notTokens negated ++ k.lexeme :: rest) = (negated, k.lexeme :: rest) := by
  cases negated with
  | true => exact dropNot_not _
  | false =>
    refine dropNot_of_head fun l hl => ?_
    obtain rfl : k.lexeme = l := by simpa [Predicate.notTokens] using hl
    exact fun he => hk (Keyword.lexeme_inj.mp he)

section Chain

variable {α : Type} {separator : Lexeme} {find : List Lexeme → Option (α × List Lexeme)}

@[simp] theorem joinTokens_singleton (separator : Lexeme) (ts : List Lexeme) :
    joinTokens separator [ts] = ts := List.intercalate_singleton

@[simp] theorem joinTokens_cons_cons (separator : Lexeme) (ts us : List Lexeme)
    (parts : List (List Lexeme)) :
    joinTokens separator (ts :: us :: parts) =
      ts ++ separator :: joinTokens separator (us :: parts) := by
  simp [joinTokens, List.intercalate_cons_cons]

theorem joinTokens_cons (separator : Lexeme) (ts : List Lexeme) (parts : List (List Lexeme)) :
    ∃ more, joinTokens separator (ts :: parts) = ts ++ more := by
  cases parts with
  | nil => exact ⟨[], by simp⟩
  | cons us parts => exact ⟨_, joinTokens_cons_cons separator ts us parts⟩

/-- What a parser finds in each part it finds in the parts side by side, when it stops at the
separator. -/
theorem chain_joinTokens {parts : List (List Lexeme × α)} (hne : parts ≠ []) {stop : Lexeme → Prop}
    (h : ∀ x ∈ parts, ∀ rest : List Lexeme, (∀ l ∈ rest.head?, stop l) →
      find (x.1 ++ rest) = some (x.2, rest))
    (hseparator : stop separator) {rest : List Lexeme} (hrest : ∀ l ∈ rest.head?, stop l)
    (hend : ∀ l ∈ rest.head?, l ≠ separator) {n : Nat} (hn : parts.length ≤ n) :
    chain separator find n (joinTokens separator (parts.map (·.1)) ++ rest) =
      some (parts.map (·.2), rest) := by
  induction parts generalizing n with
  | nil => exact absurd rfl hne
  | cons x parts ih =>
    have hx := h x List.mem_cons_self
    cases n with
    | zero => simp at hn
    | succ n =>
      cases parts with
      | nil => simp [chain, hx rest hrest, expect_of_head hend]
      | cons y parts =>
        have hy := ih (by simp) (fun z hz => h z (List.mem_cons_of_mem _ hz)) (n := n)
          (by simpa using hn)
        have hfind := hx (separator :: (joinTokens separator ((y :: parts).map (·.1)) ++ rest))
          (by simpa using hseparator)
        simp only [List.map_cons, joinTokens_cons_cons, List.append_assoc, List.cons_append] at hfind hy ⊢
        simp [chain, hfind, hy]

theorem members?_query {body : List Lexeme} (h : IsQuery body) (n : Nat) (rest : List Lexeme) :
    members? find n (parenthesize body ++ rest) = some (.inr body, rest) := by
  simp [members?, parenthesize, h.startsQuery, h.closing?]

theorem members?_list {values : List α} (hne : values ≠ []) {tokens : α → List Lexeme}
    (hfind : ∀ v ∈ values, ∀ rest : List Lexeme, (∀ l ∈ rest.head?, l ≠ .mark '.') →
      find (tokens v ++ rest) = some (v, rest))
    (hstarts : ∀ v ∈ values, ∀ rest, startsQuery (tokens v ++ rest) = false) {n : Nat}
    (hn : values.length ≤ n) (rest : List Lexeme) :
    members? find n (parenthesize (joinTokens (.mark ',') (values.map tokens)) ++ rest) =
      some (.inl values, rest) := by
  have hparts : (values.map fun v => (tokens v, v)) ≠ [] := by simpa using hne
  have hfound : ∀ x ∈ values.map fun v => (tokens v, v), ∀ rest : List Lexeme,
      (∀ l ∈ rest.head?, l ≠ .mark '.') → find (x.1 ++ rest) = some (x.2, rest) := by
    simpa using hfind
  have hcomma : Lexeme.mark ',' ≠ .mark '.' := by decide
  have hrest : ∀ l ∈ (Lexeme.mark ')' :: rest).head?, l ≠ .mark '.' := by simp
  have hchain := chain_joinTokens hparts hfound hcomma hrest (by simp) (n := n) (by simpa using hn)
  have hquery : startsQuery (joinTokens (.mark ',') (values.map tokens) ++ .mark ')' :: rest) =
      false := by
    match values with
    | [] => exact absurd rfl hne
    | [v] => simpa using hstarts v List.mem_cons_self (.mark ')' :: rest)
    | v :: w :: values =>
      have hv := hstarts v List.mem_cons_self
      simp only [List.map_cons, joinTokens_cons_cons, List.append_assoc, List.cons_append]
      exact hv _
  simp only [List.map_map, Function.comp_def] at hchain
  simp [members?, parenthesize, hquery, hchain]

end Chain

end SqlCompose
