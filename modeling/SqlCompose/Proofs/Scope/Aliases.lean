import SqlCompose.Proofs.Scope.Legality

/-! The alias that a table gets beside the names in use: its own name, or the first of its numbered
names that is free. Numbers are tried one after the other without a bound, and one of them is free. -/

namespace SqlCompose.Alias

/-- Trying the number `n` and then those after it comes to an end at `m`. -/
inductive Search (used : List String) (stem : String) : Nat → Nat → Prop where
  | free {n : Nat} (h : numbered stem n ∉ used) : Search used stem n n
  | taken {n m : Nat} (h : numbered stem n ∈ used) (rest : Search used stem (n + 1) m) :
    Search used stem n m

namespace Search

variable {used : List String} {stem : String} {n m : Nat}

theorem not_mem (h : Search used stem n m) : numbered stem m ∉ used := by
  induction h with
  | free h => exact h
  | taken _ _ ih => exact ih

theorem le (h : Search used stem n m) : n ≤ m := by
  induction h with
  | free => exact Nat.le_refl _
  | taken _ _ ih => omega

theorem mem_of_lt (h : Search used stem n m) {k : Nat} (hk : n ≤ k) (hlt : k < m) :
    numbered stem k ∈ used := by
  induction h with
  | free => omega
  | @taken n m hn _ ih =>
    by_cases hkn : k = n
    · exact hkn ▸ hn
    · exact ih (by omega) hlt

theorem of_first (hle : n ≤ m) (hbefore : ∀ k, n ≤ k → k < m → numbered stem k ∈ used)
    (hm : numbered stem m ∉ used) : Search used stem n m := by
  obtain ⟨d, rfl⟩ := Nat.exists_eq_add_of_le hle
  induction d generalizing n with
  | zero => exact .free hm
  | succ d ih =>
    have hnext : n + 1 + d = n + (d + 1) := by omega
    have hrest : Search used stem (n + 1) (n + 1 + d) :=
      ih (by omega) (fun k hk hlt => hbefore k (by omega) (by omega)) (hnext ▸ hm)
    exact .taken (hbefore n (Nat.le_refl n) (by omega)) (hnext ▸ hrest)

end Search

/-- As many tries as there are names in use are enough. -/
theorem exists_search_firstFree (used : List String) (stem : String) :
    ∃ n, Search used stem 1 n ∧ n ≤ used.length + 1 ∧
      firstFree used stem used.length 1 = numbered stem n := by
  obtain ⟨n, hle, hfound, hbefore, _⟩ := firstFree_spec used stem used.length 1
  have hfree : numbered stem n ∉ used := hfound ▸ firstFree_not_mem used stem
  obtain ⟨k, hk, hbound, hkfree⟩ := exists_numbered_not_mem used stem
  have hnk : n ≤ k := by
    apply Classical.byContradiction
    intro hlt
    exact hkfree (hbefore k hk (by omega))
  exact ⟨n, .of_first hle hbefore hfree, by omega, hfound⟩

section

variable (i : Identifier) (n : Nat)

theorem numbered_ascii {c : Char} (hc : c ∈ (numbered i.stem n).toList) :
    c = '_' ∨ c.isDigit = true ∨ c.isLower = true := by
  have hstem := isStemChar_of_mem_numbered hc
  simpa only [Identifier.isStemChar, Bool.or_eq_true, beq_iff_eq, or_assoc] using hstem

theorem parse_numbered :
    Identifier.parse (numbered i.stem n) = .ok (.plain (numbered i.stem n)) := by
  obtain ⟨c, cs, hname, hc, hcs⟩ := (numbered_legal i n).plain
  exact Identifier.parse_plain hname hc hcs

end

/-- A table whose name is not in use keeps it. Otherwise the numbers are tried from one on until the
numbered name is free, which takes at most one try more than there are names in use. That name
consists of lower-case letters, digits and underscores and is read back as it is. In both cases the
lower-case form of the alias was not in use, and nothing else is in use afterwards that was not
before. -/
theorem next_least (name : Identifier) (used : List String) :
    (name.key ∉ used → (next name used).1 = name) ∧
    (name.key ∈ used → ∃ n, Search used name.stem 1 n ∧ n ≤ used.length + 1 ∧
      1 ≤ n ∧ numbered name.stem n ∉ used ∧
      (∀ k, 1 ≤ k → k < n → numbered name.stem k ∈ used) ∧
      (next name used).1 = .plain (numbered name.stem n) ∧
      (∀ c ∈ (numbered name.stem n).toList, c = '_' ∨ c.isDigit = true ∨ c.isLower = true) ∧
      Identifier.parse (numbered name.stem n) = .ok (.plain (numbered name.stem n))) ∧
    (next name used).1.key ∉ used ∧
    ∀ key, key ∈ (next name used).2 ↔ key = (next name used).1.key ∨ key ∈ used := by
  obtain ⟨hfresh, hused⟩ := next_spec name used
  refine ⟨fun h => ?_, fun h => ?_, hfresh, fun key => ?_⟩
  · exact congrArg Prod.fst (if_neg h)
  · obtain ⟨n, hsearch, hbound, hfound⟩ := exists_search_firstFree used name.stem
    have halias : (next name used).1 = .plain (firstFree used name.stem used.length 1) :=
      congrArg Prod.fst (if_pos h)
    exact ⟨n, hsearch, hbound, hsearch.le, hsearch.not_mem, fun k => hsearch.mem_of_lt,
      hfound ▸ halias, fun c => numbered_ascii name n, parse_numbered name n⟩
  · rw [hused, List.mem_cons]

/-- The name starts with a digit and holds a character that no plain name has, and its first number
is taken. -/
example :
    next (.quoted "2024 Übersicht") ["2024 übersicht", "t_2024__bersicht_1"] =
      (.plain "t_2024__bersicht_2",
        ["t_2024__bersicht_2", "2024 übersicht", "t_2024__bersicht_1"]) := by decide +kernel

end SqlCompose.Alias
