import SqlCompose.Proofs.Like.Matching

/-! Escaped fragments of LIKE patterns. Whatever stands behind it, an escaped text is read as its own
characters, and the wildcards around it are read as wildcards. -/

namespace SqlCompose

/-- What the option lets stand before and behind the text. -/
def LikeOption.around (option : LikeOption) (l : Language Char) : Language Char :=
  match option with
  | .raw => l
  | .literal => l
  | .leading => l * ⊤
  | .anywhere => ⊤ * l * ⊤
  | .trailing => ⊤ * l

/-- The texts that an escaped fragment is to match. -/
def PatternPart.language (part : PatternPart) : Language Char :=
  part.option.around {part.text.toList}

/-- What an escaped fragment is to be read as. -/
def PatternPart.tokens (part : PatternPart) : List Like.Token :=
  let text := part.text.toList.map Like.Token.literal
  match part.option with
  | .raw => text
  | .literal => text
  | .leading => text ++ [.anyText]
  | .anywhere => [.anyText] ++ text ++ [.anyText]
  | .trailing => [.anyText] ++ text

namespace Like

/-- The characters that are escaped are those that the reader knows, and the escape character is
another. -/
structure Sound (escape : Char) (classes : Bool) (wildcards : List Char) : Prop where
  anyText : '%' ∈ wildcards
  anyChar : '_' ∈ wildcards
  opening : classes = true → '[' ∈ wildcards
  escape : escape ∉ wildcards

theorem sound_wildcards {k : DialectKind} {escape : Char} (h : escape ∉ k.wildcards) :
    Sound escape k.hasClasses k.wildcards := by
  refine ⟨by simp [DialectKind.wildcards], by simp [DialectKind.wildcards], fun hclasses => ?_, h⟩
  simp [DialectKind.wildcards, hclasses]

theorem language_literals (cs : List Char) : language (cs.map .literal) = {cs} := by
  induction cs with
  | nil => rfl
  | cons c cs ih =>
    rw [List.map_cons, language_cons, ih]
    ext w
    rw [Language.mem_mul]
    constructor
    · rintro ⟨a, ha, b, rfl, rfl⟩
      rw [Token.mem_language_literal.mp ha]
      rfl
    · rintro rfl
      exact ⟨[c], Token.mem_language_literal.mpr rfl, cs, rfl, rfl⟩

/-- Whatever stands behind the characters, they are read as the tokens. -/
def Spells (escape : Char) (classes : Bool) (cs : List Char) (ts : List Token) : Prop :=
  ∀ rest, Reader.between.read escape classes (cs ++ rest) =
    (Reader.between.read escape classes rest).map (ts ++ ·)

section

variable {escape : Char} {classes : Bool} {wildcards : List Char}

theorem Spells.nil : Spells escape classes [] [] := by
  intro rest
  simp

theorem Spells.append {cs ds : List Char} {ts us : List Token} (h : Spells escape classes cs ts)
    (h' : Spells escape classes ds us) : Spells escape classes (cs ++ ds) (ts ++ us) := by
  intro rest
  rw [List.append_assoc, h, h', Option.map_map]
  exact congrArg (Option.map · _) (funext fun vs => (List.append_assoc ts us vs).symm)

theorem Spells.read_eq {cs : List Char} {ts : List Token} (h : Spells escape classes cs ts) :
    Reader.between.read escape classes cs = some ts := by
  have hrest := h []
  rw [List.append_nil] at hrest
  rw [hrest]
  simp [Reader.read]

theorem spells_escaped (c : Char) : Spells escape classes [escape, c] [.literal c] := by
  intro rest
  simp [Reader.read]

theorem spells_plain (h : Sound escape classes wildcards) {c : Char} (hescape : c ≠ escape)
    (hwild : c ∉ wildcards) : Spells escape classes [c] [.literal c] := by
  intro rest
  have hanyText : c ≠ '%' := fun hc => hwild (hc ▸ h.anyText)
  have hanyChar : c ≠ '_' := fun hc => hwild (hc ▸ h.anyChar)
  cases classes with
  | false => simp [Reader.read, hescape, hanyText, hanyChar]
  | true =>
    have hopening : c ≠ '[' := fun hc => hwild (hc ▸ h.opening rfl)
    simp [Reader.read, hescape, hanyText, hanyChar, hopening]

theorem spells_anyText (h : Sound escape classes wildcards) :
    Spells escape classes ['%'] [.anyText] := by
  intro rest
  have hescape : '%' ≠ escape := fun hc => h.escape (hc ▸ h.anyText)
  simp [Reader.read, hescape]

theorem escapeChars_cons (c : Char) (cs : List Char) :
    escapeChars [escape] wildcards (c :: cs) =
      (if c = escape ∨ c ∈ wildcards then [escape, c] else [c]) ++
        escapeChars [escape] wildcards cs := by
  rw [escapeChars]
  by_cases hescape : c = escape
  · simp [hescape]
  · by_cases hwild : c ∈ wildcards
    · simp [hescape, Ne.symm hescape, hwild]
    · simp [hescape, Ne.symm hescape, hwild]

/-- An escaped text is read as itself, also where it ends in escape characters. -/
theorem spells_escapeChars (h : Sound escape classes wildcards) (cs : List Char) :
    Spells escape classes (escapeChars [escape] wildcards cs) (cs.map .literal) := by
  induction cs with
  | nil =>
    rw [escapeChars]
    exact .nil
  | cons c cs ih =>
    have hfirst : Spells escape classes
        (if c = escape ∨ c ∈ wildcards then [escape, c] else [c]) [.literal c] := by
      by_cases hspecial : c = escape ∨ c ∈ wildcards
      · rw [if_pos hspecial]
        exact spells_escaped c
      · rw [if_neg hspecial]
        rw [not_or] at hspecial
        exact spells_plain h hspecial.1 hspecial.2
    rw [escapeChars_cons]
    exact hfirst.append ih

end

end Like

theorem PatternPart.language_tokens (part : PatternPart) :
    Like.language part.tokens = part.language := by
  obtain ⟨text, option⟩ := part
  have hliterals := Like.language_literals text.toList
  have htop : Like.language [.anyText] = ⊤ := Like.language_singleton _
  cases option with
  | raw => exact hliterals
  | literal => exact hliterals
  | leading =>
    simp only [tokens, Like.language_append, hliterals, htop]
    rfl
  | anywhere =>
    simp only [tokens, Like.language_append, hliterals, htop]
    rfl
  | trailing =>
    simp only [tokens, Like.language_append, hliterals, htop]
    rfl

namespace Setting

variable {σ : Setting} {c : Char} {classes : Bool}

theorem toList_escapeText (hc : σ.escape = String.singleton c) (text : String) :
    (σ.escapeText text).toList = Like.escapeChars [c] σ.dialect.wildcards text.toList := by
  have hne : σ.escape.isEmpty = false := by
    rw [hc]
    simp
  have hlist : (String.singleton c).toList = [c] := by simp
  rw [escapeText, hne, hc, Like.escape, hlist]
  simp

/-- The wildcards that an option adds stay wildcards. -/
theorem spells_partText (hc : σ.escape = String.singleton c)
    (h : Like.Sound c classes σ.dialect.wildcards) {part : PatternPart}
    (hpart : part.option ≠ .raw) : Like.Spells c classes (σ.partText part).toList part.tokens := by
  obtain ⟨text, option⟩ := part
  have hspells := Like.spells_escapeChars h text.toList
  have hany := Like.spells_anyText h
  rw [← toList_escapeText hc text] at hspells
  cases option with
  | raw => exact absurd rfl hpart
  | literal => exact hspells
  | leading =>
    rw [partText, String.toList_append]
    exact hspells.append hany
  | anywhere =>
    rw [partText, String.toList_append, String.toList_append]
    exact (hany.append hspells).append hany
  | trailing =>
    rw [partText, String.toList_append]
    exact hany.append hspells

theorem toList_patternText (σ : Setting) (parts : List PatternPart) :
    (σ.patternText parts).toList = parts.flatMap fun part => (σ.partText part).toList := by
  rw [patternText, String.toList_join, List.flatMap_map]

theorem exists_spells_parts (hc : σ.escape = String.singleton c)
    (h : Like.Sound c classes σ.dialect.wildcards) {parts : List PatternPart}
    (hparts : ∀ part ∈ parts, part.option ≠ .raw) :
    ∃ ts, Like.Spells c classes (parts.flatMap fun part => (σ.partText part).toList) ts ∧
      Like.language ts = (parts.map PatternPart.language).prod := by
  induction parts with
  | nil => exact ⟨[], .nil, rfl⟩
  | cons part parts ih =>
    have hpart := spells_partText hc h (hparts part List.mem_cons_self)
    obtain ⟨us, hus, hrest⟩ := ih fun x hx => hparts x (List.mem_cons_of_mem _ hx)
    refine ⟨part.tokens ++ us, ?_, ?_⟩
    · rw [List.flatMap_cons]
      exact hpart.append hus
    · rw [Like.language_append, part.language_tokens, hrest, List.map_cons, List.prod_cons]

/-- A pattern of escaped fragments matches what the fragments are to match, one after the other. -/
theorem holds_patternText (hc : σ.escape = String.singleton c)
    (h : Like.Sound c classes σ.dialect.wildcards) {parts : List PatternPart}
    (hparts : ∀ part ∈ parts, part.option ≠ .raw) (text : String) :
    Like.holds c classes (σ.patternText parts) text = true ↔
      text.toList ∈ (parts.map PatternPart.language).prod := by
  obtain ⟨ts, hts, hlanguage⟩ := exists_spells_parts hc h hparts
  rw [← toList_patternText] at hts
  rw [Like.holds_iff hts.read_eq, hlanguage]

end Setting

end SqlCompose
