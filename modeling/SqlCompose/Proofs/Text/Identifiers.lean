import SqlCompose.Identifier

/-! Names that may be written in a statement: those that reading a text or quoting a name gives. -/

namespace SqlCompose.Identifier

/-- A name that was read or that was given as a quoted one. -/
def Legal (i : Identifier) : Prop :=
  (∃ text, parse text = .ok i) ∨ ∃ name, quote name = .ok i

theorem quote_ne_plain {name s : String} : quote name ≠ .ok (.plain s) := by
  unfold quote
  split
  · simp
  · split <;> simp

/-- A plain name starts with a letter or an underscore and goes on with characters of words. -/
theorem Legal.plain {s : String} (h : (Identifier.plain s).Legal) :
    ∃ c cs, s.toList = c :: cs ∧ isStart c = true ∧ ∀ b ∈ cs, isRest b = true := by
  rcases h with ⟨text, h⟩ | ⟨name, h⟩
  · unfold parse at h
    split at h
    · exact absurd h quote_ne_plain
    · cases ht : text.toList with
      | nil => simp [ht] at h
      | cons c cs =>
        by_cases hc : isStart c = true
        · cases hf : cs.find? (!isRest ·) with
          | some bad => simp [ht, hc, hf] at h
          | none =>
            have hs : text = s := by simpa [ht, hc, hf] using h
            refine ⟨c, cs, hs ▸ ht, hc, fun b hb => ?_⟩
            simpa using List.find?_eq_none.mp hf b hb
        · simp [ht, hc] at h
  · exact absurd h quote_ne_plain

/-- What starts with a letter or an underscore and goes on with characters of words is read as a
plain name. -/
theorem parse_plain {s : String} {c : Char} {cs : List Char} (hs : s.toList = c :: cs)
    (hc : isStart c = true) (hcs : ∀ b ∈ cs, isRest b = true) : parse s = .ok (.plain s) := by
  have hne : c ≠ '\x22' := by
    rintro rfl
    revert hc
    decide
  have hquotes : betweenQuotes? (c :: cs) = none := by
    unfold betweenQuotes?
    split
    · rename_i he
      exact absurd (List.cons.inj he).1 hne
    · rfl
  have hfind : cs.find? (!isRest ·) = none := by
    refine List.find?_eq_none.mpr fun b hb => ?_
    simp [hcs b hb]
  simp [parse, hs, hquotes, hc, hfind]

theorem legal_plain {s : String} {c : Char} {cs : List Char} (hs : s.toList = c :: cs)
    (hc : isStart c = true) (hcs : ∀ b ∈ cs, isRest b = true) : (Identifier.plain s).Legal :=
  .inl ⟨s, parse_plain hs hc hcs⟩

end SqlCompose.Identifier
