import SqlCompose.Scope.Alias

/-! New aliases differ from all names in use. A numbered alias consists of lower-case letters,
digits and underscores, so that the form under which names are compared leaves it as it is. -/

namespace SqlCompose

/-- What holds of the first 128 code points holds of every character among them. -/
theorem forall_ascii {P : Char → Prop} (h : ∀ n < 128, P (Char.ofNat n)) (c : Char)
    (hc : c.toNat < 128) : P c := by
  simpa using h c.toNat hc

theorem toNat_lt_of_isAlphanum {c : Char} (h : c.isAlphanum = true) : c.toNat < 128 := by
  delta Char.isAlphanum Char.isAlpha Char.isUpper Char.isLower Char.isDigit at h
  simp only [Bool.or_eq_true, Bool.and_eq_true, decide_eq_true_eq, ge_iff_le,
    UInt32.le_iff_toNat_le] at h
  change ((65 ≤ c.toNat ∧ c.toNat ≤ 90) ∨ 97 ≤ c.toNat ∧ c.toNat ≤ 122) ∨
    48 ≤ c.toNat ∧ c.toNat ≤ 57 at h
  omega

theorem isAlphanum_of_isLower {c : Char} (h : c.isLower = true) : c.isAlphanum = true := by
  change ((c.isUpper || c.isLower) || c.isDigit) = true
  rw [h, Bool.or_true, Bool.true_or]

namespace Identifier

/-- The form under which names are compared. -/
def key (i : Identifier) : String := Lowercase.lower i.name

/-- The characters of numbered aliases. -/
def isStemChar (c : Char) : Bool := c == '_' || c.isDigit || c.isLower

theorem isStemChar_stemChar (c : Char) : isStemChar (stemChar c) = true := by
  by_cases h : c.isAlphanum = true
  · have hall : ∀ n < 128, isStemChar (stemChar (Char.ofNat n)) = true := by decide
    exact forall_ascii (P := fun c => isStemChar (stemChar c) = true) hall c
      (toNat_lt_of_isAlphanum h)
  · by_cases hc : c = '_'
    · rw [hc]
      decide
    · simp [stemChar, h, hc, isStemChar]

theorem isStemChar_of_isDigit {c : Char} (h : c.isDigit = true) : isStemChar c = true := by
  simp [isStemChar, h]

theorem toNat_lt_of_isStemChar {c : Char} (h : isStemChar c = true) : c.toNat < 128 := by
  simp only [isStemChar, Bool.or_eq_true, beq_iff_eq] at h
  rcases h with (h | h) | h
  · rw [h]
    decide
  · exact toNat_lt_of_isAlphanum (by simp [Char.isAlphanum, h])
  · exact toNat_lt_of_isAlphanum (isAlphanum_of_isLower h)

theorem toLower_of_isStemChar {c : Char} (h : isStemChar c = true) : c.toLower = c := by
  have hall : ∀ n < 128, isStemChar (Char.ofNat n) = true →
      (Char.ofNat n).toLower = Char.ofNat n := by decide
  exact forall_ascii (P := fun c => isStemChar c = true → c.toLower = c) hall c
    (toNat_lt_of_isStemChar h) h

theorem stem_toList (i : Identifier) :
    i.stem.toList = i.name.toList.map stemChar ∨
      i.stem.toList = 't' :: '_' :: i.name.toList.map stemChar := by
  unfold stem
  split
  · rename_i h
    simp [h]
  · rename_i c cs h
    by_cases hc : isStart c = true <;> simp [h, hc]

theorem isStemChar_of_mem_stem {i : Identifier} {c : Char} (h : c ∈ i.stem.toList) :
    isStemChar c = true := by
  have hmap : ∀ c ∈ i.name.toList.map stemChar, isStemChar c = true := by
    intro c hc
    obtain ⟨b, _, rfl⟩ := List.mem_map.mp hc
    exact isStemChar_stemChar b
  rcases stem_toList i with hs | hs
  · exact hmap c (hs ▸ h)
  · rw [hs, List.mem_cons, List.mem_cons] at h
    rcases h with rfl | rfl | h
    · decide
    · decide
    · exact hmap c h

end Identifier

namespace Lowercase

/-- Lower-case ASCII letters, digits and underscores are their own lower-case form. -/
theorem following_of_isStemChar {cs : List Char} (before : List Char)
    (h : ∀ c ∈ cs, Identifier.isStemChar c = true) : following before cs = cs := by
  induction cs generalizing before with
  | nil => rfl
  | cons c cs ih =>
    have hc := h c List.mem_cons_self
    have hlt := Identifier.toNat_lt_of_isStemChar hc
    have hsigma : c.toNat ≠ 0x3a3 := by omega
    have hascii : c.toNat < 0x80 := by omega
    simp only [following, hsigma, if_false, single, hascii, if_true,
      Identifier.toLower_of_isStemChar hc, List.singleton_append,
      ih (c :: before) fun b hb => h b (List.mem_cons_of_mem _ hb)]

theorem lower_of_isStemChar {s : String} (h : ∀ c ∈ s.toList, Identifier.isStemChar c = true) :
    lower s = s := by
  rw [lower, following_of_isStemChar [] h, String.ofList_toList]

end Lowercase

namespace Alias

theorem toList_numbered (stem : String) (n : Nat) :
    (numbered stem n).toList = stem.toList ++ '_' :: Nat.toDigits 10 n := by
  simp [numbered, Nat.toString_eq_repr]

theorem numbered_inj {stem : String} {m n : Nat} (h : numbered stem m = numbered stem n) :
    m = n := by
  have hl := congrArg String.toList h
  simp only [toList_numbered, List.append_cancel_left_eq, List.cons.injEq, true_and] at hl
  simpa [Nat.ofDigitChars_toDigits] using congrArg (Nat.ofDigitChars 10 · 0) hl

theorem isStemChar_of_mem_numbered {i : Identifier} {n : Nat} {c : Char}
    (h : c ∈ (numbered i.stem n).toList) : Identifier.isStemChar c = true := by
  rw [toList_numbered, List.mem_append, List.mem_cons] at h
  rcases h with h | rfl | h
  · exact Identifier.isStemChar_of_mem_stem h
  · decide
  · exact Identifier.isStemChar_of_isDigit
      (Nat.isDigit_of_mem_toDigits (by decide) (by decide) h)

/-- The number found is the first that is free, unless the tries run out before. -/
theorem firstFree_spec (used : List String) (stem : String) (tries n : Nat) :
    ∃ m, n ≤ m ∧ firstFree used stem tries n = numbered stem m ∧
      (∀ k, n ≤ k → k < m → numbered stem k ∈ used) ∧
      (m = n + tries ∨ numbered stem m ∉ used) := by
  induction tries generalizing n with
  | zero => exact ⟨n, Nat.le_refl n, rfl, fun k _ _ => by omega, .inl rfl⟩
  | succ tries ih =>
    by_cases h : numbered stem n ∈ used
    · obtain ⟨m, hm, he, hbefore, hend⟩ := ih (n + 1)
      refine ⟨m, by omega, by simp [firstFree, h, he], ?_, ?_⟩
      · intro k hk hkm
        by_cases hkn : k = n
        · exact hkn ▸ h
        · exact hbefore k (by omega) hkm
      · rcases hend with hend | hend
        · exact .inl (by omega)
        · exact .inr hend
    · exact ⟨n, Nat.le_refl n, by simp [firstFree, h], fun k _ _ => by omega, .inr h⟩

theorem exists_numbered_not_mem (used : List String) (stem : String) :
    ∃ k, 1 ≤ k ∧ k ≤ used.length + 1 ∧ numbered stem k ∉ used := by
  apply Classical.byContradiction
  intro h
  have hall : ∀ k, 1 ≤ k → k ≤ used.length + 1 → numbered stem k ∈ used := by
    intro k hk hlen
    exact Classical.byContradiction fun hk' => h ⟨k, hk, hlen, hk'⟩
  have hnd : ((List.range (used.length + 1)).map fun k => numbered stem (k + 1)).Nodup := by
    refine List.Pairwise.map _ ?_ List.nodup_range
    intro a b hab he
    exact hab (by have := numbered_inj he; omega)
  have hsub : ((List.range (used.length + 1)).map fun k => numbered stem (k + 1)) ⊆ used := by
    intro s hs
    obtain ⟨k, hk, rfl⟩ := List.mem_map.mp hs
    have := List.mem_range.mp hk
    exact hall (k + 1) (by omega) (by omega)
  have hlen := hnd.length_le_of_subset hsub
  simp only [List.length_map, List.length_range] at hlen
  omega

theorem firstFree_not_mem (used : List String) (stem : String) :
    firstFree used stem used.length 1 ∉ used := by
  obtain ⟨m, _, he, hbefore, hend⟩ := firstFree_spec used stem used.length 1
  rw [he]
  rcases hend with hend | hend
  · obtain ⟨k, hk, hlen, hfree⟩ := exists_numbered_not_mem used stem
    by_cases hkm : k = m
    · exact hkm ▸ hfree
    · exact False.elim (hfree (hbefore k hk (by omega)))
  · exact hend

theorem key_plain_firstFree (used : List String) (name : Identifier) (tries n : Nat) :
    (Identifier.plain (firstFree used name.stem tries n)).key =
      firstFree used name.stem tries n := by
  obtain ⟨m, _, he, _⟩ := firstFree_spec used name.stem tries n
  rw [he]
  exact Lowercase.lower_of_isStemChar fun c hc => isStemChar_of_mem_numbered hc

theorem next_spec (name : Identifier) (used : List String) :
    (next name used).1.key ∉ used ∧ (next name used).2 = (next name used).1.key :: used := by
  by_cases h : Lowercase.lower name.name ∈ used
  · simp only [next, h, if_true, key_plain_firstFree, and_true]
    exact firstFree_not_mem used name.stem
  · simp [next, h, Identifier.key]

end Alias

end SqlCompose
