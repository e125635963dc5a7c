import SqlCompose.Text.Truncation

/-! Where a text is cut. The characters that fit end at the last place within the limit that splits no
character, which is found by going back byte by byte from the limit. -/

namespace SqlCompose.Truncation

theorem utf8ByteSize_ofList_cons (c : Char) (cs : List Char) :
    (String.ofList (c :: cs)).utf8ByteSize = c.utf8Size + (String.ofList cs).utf8ByteSize := by
  rw [String.ofList_cons, String.utf8ByteSize_append, String.utf8ByteSize_singleton]

section

variable (budget : Nat) (cs : List Char)

theorem fitting_prefix : fitting budget cs <+: cs := by
  induction cs generalizing budget with
  | nil => exact List.prefix_rfl
  | cons c cs ih =>
    by_cases hc : c.utf8Size ≤ budget
    · rw [fitting, if_pos hc]
      exact (List.prefix_cons_inj c).mpr (ih _)
    · rw [fitting, if_neg hc]
      exact List.nil_prefix

theorem utf8ByteSize_fitting_le : (String.ofList (fitting budget cs)).utf8ByteSize ≤ budget := by
  induction cs generalizing budget with
  | nil => exact Nat.zero_le budget
  | cons c cs ih =>
    by_cases hc : c.utf8Size ≤ budget
    · have hrest := ih (budget - c.utf8Size)
      rw [fitting, if_pos hc, utf8ByteSize_ofList_cons]
      omega
    · rw [fitting, if_neg hc]
      exact Nat.zero_le budget

end

variable {budget : Nat} {cs : List Char}

/-- No run of whole characters that fits is longer. -/
theorem prefix_fitting {ds : List Char} (h : ds <+: cs)
    (hsize : (String.ofList ds).utf8ByteSize ≤ budget) : ds <+: fitting budget cs := by
  induction cs generalizing budget ds with
  | nil => exact h
  | cons c cs ih =>
    rcases List.prefix_cons_iff.mp h with rfl | ⟨ds, rfl, hds⟩
    · exact List.nil_prefix
    · rw [utf8ByteSize_ofList_cons] at hsize
      have hc : c.utf8Size ≤ budget := by omega
      rw [fitting, if_pos hc]
      exact (List.prefix_cons_inj c).mpr (ih hds (by omega))

/-- What is left of the limit is less than a character takes. -/
theorem lt_utf8ByteSize_fitting (h : budget < (String.ofList cs).utf8ByteSize) :
    budget < (String.ofList (fitting budget cs)).utf8ByteSize + 4 := by
  induction cs generalizing budget with
  | nil => exact absurd h (Nat.not_lt_zero budget)
  | cons c cs ih =>
    rw [utf8ByteSize_ofList_cons] at h
    have hfour := c.utf8Size_le_four
    by_cases hc : c.utf8Size ≤ budget
    · have hleft : budget - c.utf8Size < (String.ofList cs).utf8ByteSize := by omega
      have hrest := ih hleft
      rw [fitting, if_pos hc, utf8ByteSize_ofList_cons]
      omega
    · rw [fitting, if_neg hc]
      omega

theorem boundary_isValid (text : String) (bytes : Nat) :
    (⟨boundary text bytes⟩ : String.Pos.Raw).IsValid text := by
  induction bytes with
  | zero => exact String.Pos.Raw.isValid_zero
  | succ bytes ih =>
    by_cases h : (⟨bytes + 1⟩ : String.Pos.Raw).IsValid text
    · rwa [boundary, if_pos h]
    · rwa [boundary, if_neg h]

theorem boundary_le (text : String) (bytes : Nat) : boundary text bytes ≤ bytes := by
  induction bytes with
  | zero => exact Nat.le_refl 0
  | succ bytes ih =>
    by_cases h : (⟨bytes + 1⟩ : String.Pos.Raw).IsValid text
    · have hhere : boundary text (bytes + 1) = bytes + 1 := by rw [boundary, if_pos h]
      omega
    · rw [boundary, if_neg h]
      omega

theorem le_boundary {text : String} {place bytes : Nat}
    (h : (⟨place⟩ : String.Pos.Raw).IsValid text) (hle : place ≤ bytes) :
    place ≤ boundary text bytes := by
  induction bytes with
  | zero => exact hle
  | succ bytes ih =>
    by_cases hvalid : (⟨bytes + 1⟩ : String.Pos.Raw).IsValid text
    · rwa [boundary, if_pos hvalid]
    · have hne : place ≠ bytes + 1 := by
        rintro rfl
        exact hvalid h
      rw [boundary, if_neg hvalid]
      exact ih (by omega)

theorem isValid_utf8ByteSize {text kept rest : String} (h : text = kept ++ rest) :
    (⟨kept.utf8ByteSize⟩ : String.Pos.Raw).IsValid text :=
  String.Pos.Raw.isValid_iff_exists_append.mpr ⟨kept, rest, h, rfl⟩

theorem before?_utf8ByteSize {text kept rest : String} (h : text = kept ++ rest) :
    before? text kept.utf8ByteSize = some kept := by
  rw [before?, dif_pos (isValid_utf8ByteSize h), Option.some.injEq]
  exact String.copy_sliceTo_eq_iff_exists_splits.mpr ⟨rest, h, rfl⟩

section

variable (text : String) (bytes : Nat)

theorem exists_eq_fitting_append :
    ∃ rest, text = String.ofList (fitting bytes text.toList) ++ rest := by
  obtain ⟨rest, hrest⟩ := fitting_prefix bytes text.toList
  exact ⟨String.ofList rest, by rw [← String.ofList_append, hrest, String.ofList_toList]⟩

variable {text bytes}

/-- Every beginning of the text that fits is a beginning of the characters that fit. -/
theorem exists_fitting_eq_append {start more : String} (h : text = start ++ more)
    (hsize : start.utf8ByteSize ≤ bytes) :
    ∃ between, String.ofList (fitting bytes text.toList) = start ++ between := by
  have hstart : start.toList <+: text.toList := ⟨more.toList, by rw [h, String.toList_append]⟩
  rw [← String.ofList_toList (s := start)] at hsize
  obtain ⟨between, hbetween⟩ := prefix_fitting hstart hsize
  exact ⟨String.ofList between, by rw [← hbetween, String.ofList_append, String.ofList_toList]⟩

variable (text bytes)

/-- Going back from the limit ends behind the characters that fit. -/
theorem boundary_eq :
    boundary text bytes = (String.ofList (fitting bytes text.toList)).utf8ByteSize := by
  apply Nat.le_antisymm
  · obtain ⟨start, more, htext, hplace⟩ :=
      String.Pos.Raw.isValid_iff_exists_append.mp (boundary_isValid text bytes)
    have hsize : boundary text bytes = start.utf8ByteSize := congrArg String.Pos.Raw.byteIdx hplace
    obtain ⟨between, hbetween⟩ := exists_fitting_eq_append htext (hsize ▸ boundary_le text bytes)
    rw [hsize, hbetween, String.utf8ByteSize_append]
    exact Nat.le_add_right _ _
  · obtain ⟨rest, htext⟩ := exists_eq_fitting_append text bytes
    exact le_boundary (isValid_utf8ByteSize htext) (utf8ByteSize_fitting_le bytes text.toList)

end

/-- A text that is not too long is left as it is. Any other is cut where the way back from the limit
ends, after at most three bytes. The place splits no character, what is kept of the text fits, and
every beginning of the text that fits is a beginning of it. -/
theorem truncate_longest (text : String) :
    truncate none text = text ∧
    (∀ bytes, text.utf8ByteSize ≤ bytes → truncate (some bytes) text = text) ∧
    ∀ bytes, bytes < text.utf8ByteSize → ∃ kept rest,
      truncate (some bytes) text = kept ++ "..." ∧ text = kept ++ rest ∧
      before? text (boundary text bytes) = some kept ∧ kept.utf8ByteSize ≤ bytes ∧
      bytes ≤ boundary text bytes + 3 ∧
      ∀ start more, text = start ++ more → start.utf8ByteSize ≤ bytes →
        ∃ between, kept = start ++ between := by
  refine ⟨rfl, fun bytes h => if_neg (Nat.not_lt.mpr h), fun bytes h => ?_⟩
  obtain ⟨rest, htext⟩ := exists_eq_fitting_append text bytes
  have hplace := boundary_eq text bytes
  refine ⟨_, rest, if_pos h, htext, ?_, utf8ByteSize_fitting_le bytes text.toList, ?_,
    fun start more hsplit hsize => exists_fitting_eq_append hsplit hsize⟩
  · rw [hplace]
    exact before?_utf8ByteSize htext
  · rw [← String.ofList_toList (s := text)] at h
    have hlt := lt_utf8ByteSize_fitting h
    omega

/-- The second character takes two bytes and the third takes four. -/
example : truncate (some 2) "héllo" = "h..." ∧ truncate (some 6) "hé😀" = "hé..." ∧
    truncate (some 7) "hé😀" = "hé😀" ∧ truncate (some 0) "é" = "..." := by decide +kernel

end SqlCompose.Truncation
