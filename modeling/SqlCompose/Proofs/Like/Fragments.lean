import SqlCompose.Proofs.Like.Statements

/-! Neighbours in LIKE patterns. Every fragment is escaped for itself, and a token that a raw fragment
leaves open takes in the beginning of the fragment behind it. -/

namespace SqlCompose

namespace Like

namespace Reader

section

variable (escape : Char) (classes : Bool)

/-- The token that ends with a character, and where the reader is behind it. -/
def step : Reader → Char → Option Token × Reader
  | .between, c =>
    if c = escape then (none, .escaped)
    else if c = '%' then (some .anyText, .between)
    else if c = '_' then (some .anyChar, .between)
    else if classes && c = '[' then (none, .inside [])
    else (some (.literal c), .between)
  | .escaped, c => (some (.literal c), .between)
  | .inside members, c =>
    if c = ']' then (some (.oneOf members.reverse), .between)
    else (none, .inside (c :: members))

def after : Reader → List Char → Reader
  | r, [] => r
  | r, c :: cs => after (step escape classes r c).2 cs

/-- The tokens that end within the characters. -/
def tokens : Reader → List Char → List Token
  | _, [] => []
  | r, c :: cs => (step escape classes r c).1.toList ++ tokens (step escape classes r c).2 cs

end

variable {escape : Char} {classes : Bool}

theorem after_append (r : Reader) (cs ds : List Char) :
    r.after escape classes (cs ++ ds) = (r.after escape classes cs).after escape classes ds := by
  induction cs generalizing r with
  | nil => rfl
  | cons c cs ih => exact ih _

theorem tokens_append (r : Reader) (cs ds : List Char) :
    r.tokens escape classes (cs ++ ds) =
      r.tokens escape classes cs ++ (r.after escape classes cs).tokens escape classes ds := by
  induction cs generalizing r with
  | nil => rfl
  | cons c cs ih => rw [List.cons_append, tokens, tokens, ih, List.append_assoc, after]

theorem read_cons (r : Reader) (c : Char) (cs : List Char) :
    r.read escape classes (c :: cs) =
      ((step escape classes r c).2.read escape classes cs).map
        ((step escape classes r c).1.toList ++ ·) := by
  cases r with
  | between =>
    simp only [read, step]
    split_ifs <;> simp
  | escaped => simp [read, step]
  | inside members =>
    simp only [read, step]
    split_ifs <;> simp

/-- A pattern is read when its last token ends with it. -/
theorem read_eq_some_iff {r : Reader} {cs : List Char} {ts : List Token} :
    r.read escape classes cs = some ts ↔
      r.tokens escape classes cs = ts ∧ r.after escape classes cs = .between := by
  induction cs generalizing r ts with
  | nil => cases r <;> simp [read, tokens, after]
  | cons c cs ih =>
    rw [read_cons, Option.map_eq_some_iff, tokens, after]
    constructor
    · rintro ⟨us, hus, rfl⟩
      obtain ⟨htokens, hafter⟩ := ih.mp hus
      exact ⟨by rw [htokens], hafter⟩
    · rintro ⟨rfl, hafter⟩
      exact ⟨_, ih.mpr ⟨rfl, hafter⟩, rfl⟩

/-- The first token that ends behind an open bracket is a class. -/
theorem exists_oneOf_of_inside {members : List Char} {cs : List Char} {t : Token} {ts : List Token}
    (h : (inside members).tokens escape classes cs = t :: ts) : ∃ ms, t = .oneOf ms := by
  induction cs generalizing members with
  | nil => cases h
  | cons c cs ih =>
    rw [tokens, step] at h
    by_cases hclosing : c = ']'
    · rw [if_pos hclosing] at h
      exact ⟨_, (List.cons.inj h).1.symm⟩
    · rw [if_neg hclosing] at h
      exact ih h

end Reader

section

variable {escape : Char} {classes : Bool} {wildcards : List Char}

theorem Spells.tokens_eq {cs : List Char} {ts : List Token} (h : Spells escape classes cs ts) :
    Reader.between.tokens escape classes cs = ts := (Reader.read_eq_some_iff.mp h.read_eq).1

theorem Spells.after_eq {cs : List Char} {ts : List Token} (h : Spells escape classes cs ts) :
    Reader.between.after escape classes cs = .between := (Reader.read_eq_some_iff.mp h.read_eq).2

/-- An escape character in front of an escaped text, which moves over the ones that the text begins
with. It makes no difference to a plain character behind them. -/
theorem tokens_escaped_iff (h : Sound escape classes wildcards) (cs ds : List Char) {us : List Token}
    (hus : Reader.between.tokens escape classes ds = us) :
    Reader.escaped.tokens escape classes (escapeChars [escape] wildcards cs ++ ds) =
        cs.map .literal ++ us ↔
      match cs.find? (· != escape) with
      | some c => c ∉ wildcards
      | none => Reader.escaped.tokens escape classes ds = us := by
  induction cs with
  | nil => simp [escapeChars]
  | cons c cs ih =>
    have hbehind : Reader.between.tokens escape classes (escapeChars [escape] wildcards cs ++ ds) =
        cs.map .literal ++ us := by
      have hcs := spells_escapeChars h cs
      rw [Reader.tokens_append, hcs.tokens_eq, hcs.after_eq, hus]
    rw [escapeChars_cons, List.map_cons]
    by_cases hescape : c = escape
    · subst hescape
      -- Of the pair, the first is the escaped one and the second escapes what follows.
      have hfind : (c :: cs).find? (· != c) = cs.find? (· != c) := by simp
      rw [hfind, ← ih]
      simp [Reader.tokens, Reader.step]
    · have hfind : (c :: cs).find? (· != escape) = some c := by simp [hescape]
      rw [hfind]
      by_cases hwild : c ∈ wildcards
      · -- A literal escape character stands where the wildcard should.
        simp [Reader.tokens, Reader.step, hwild, Ne.symm hescape]
      · simpa [Reader.tokens, Reader.step, hwild, hescape] using hbehind

end

end Like

namespace PatternPart

/-- No wildcard comes before the first plain character, and there is such a character if a wildcard
comes at all. Escape characters are passed over. -/
def BeginsPlain (escape : Char) (wildcards : List Char) (part : PatternPart) : Prop :=
  match part.option, part.text.toList.find? (· != escape) with
  | .literal, none => True
  | .literal, some c => c ∉ wildcards
  | .leading, some c => c ∉ wildcards
  | _, _ => False

/-- Where the reader may be for a fragment to be read as its own. -/
def KeptFrom (escape : Char) (wildcards : List Char) (part : PatternPart) : Like.Reader → Prop
  | .between => True
  | .escaped => part.BeginsPlain escape wildcards
  | .inside _ => part.tokens = []

theorem oneOf_not_mem_tokens (part : PatternPart) (ms : List Char) : .oneOf ms ∉ part.tokens := by
  obtain ⟨text, option⟩ := part
  cases option <;> simp [tokens]

end PatternPart

namespace Setting

open Like (Reader Sound)

variable {σ : Setting} {c : Char} {classes : Bool} {part : PatternPart}

theorem partText_eq_nil (hc : σ.escape = String.singleton c) (hpart : part.option ≠ .raw)
    (h : part.tokens = []) : (σ.partText part).toList = [] := by
  obtain ⟨text, option⟩ := part
  cases option with
  | raw => exact absurd rfl hpart
  | literal =>
    have htext : text.toList = [] := List.map_eq_nil_iff.mp h
    rw [partText, toList_escapeText hc, htext, Like.escapeChars]
  | leading => simp [PatternPart.tokens] at h
  | anywhere => simp [PatternPart.tokens] at h
  | trailing => simp [PatternPart.tokens] at h

theorem tokens_partText_escaped_iff (hc : σ.escape = String.singleton c)
    (h : Sound c classes σ.dialect.wildcards) (hpart : part.option ≠ .raw) :
    Reader.escaped.tokens c classes (σ.partText part).toList = part.tokens ↔
      part.BeginsPlain c σ.dialect.wildcards := by
  obtain ⟨text, option⟩ := part
  have htext := toList_escapeText hc text
  cases option with
  | raw => exact absurd rfl hpart
  | literal =>
    have hnothing : Reader.between.tokens c classes [] = [] := rfl
    have hiff := Like.tokens_escaped_iff h text.toList [] hnothing
    rw [List.append_nil, List.append_nil] at hiff
    rw [partText, htext, PatternPart.tokens, hiff, PatternPart.BeginsPlain]
    cases text.toList.find? (· != c) <;> simp [Reader.tokens]
  | leading =>
    have hiff := Like.tokens_escaped_iff h text.toList ['%'] (Like.spells_anyText h).tokens_eq
    rw [partText, String.toList_append, htext, PatternPart.tokens, PatternPart.BeginsPlain]
    refine hiff.trans ?_
    cases text.toList.find? (· != c) <;> simp [Reader.tokens, Reader.step]
  | anywhere =>
    rw [partText, String.toList_append, String.toList_append, PatternPart.tokens]
    simp [PatternPart.BeginsPlain, Reader.tokens, Reader.step]
  | trailing =>
    rw [partText, String.toList_append, PatternPart.tokens]
    simp [PatternPart.BeginsPlain, Reader.tokens, Reader.step]

/-- What an escaped fragment is read as, wherever the reader comes upon it. -/
theorem tokens_partText_iff (hc : σ.escape = String.singleton c)
    (h : Sound c classes σ.dialect.wildcards) (hpart : part.option ≠ .raw) (r : Reader) :
    r.tokens c classes (σ.partText part).toList = part.tokens ↔
      part.KeptFrom c σ.dialect.wildcards r := by
  cases r with
  | between => exact iff_of_true (spells_partText hc h hpart).tokens_eq trivial
  | escaped => exact tokens_partText_escaped_iff hc h hpart
  | inside members =>
    constructor
    · intro htokens
      cases hown : part.tokens with
      | nil => exact hown
      | cons t ts =>
        rw [hown] at htokens
        obtain ⟨ms, rfl⟩ := Reader.exists_oneOf_of_inside htokens
        exact absurd (hown ▸ List.mem_cons_self) (part.oneOf_not_mem_tokens ms)
    · intro hown
      rw [partText_eq_nil hc hpart hown, hown, Reader.tokens]

theorem patternText_append (σ : Setting) (ps qs : List PatternPart) :
    (σ.patternText (ps ++ qs)).toList = (σ.patternText ps).toList ++ (σ.patternText qs).toList := by
  rw [toList_patternText, toList_patternText, toList_patternText, List.flatMap_append]

theorem patternText_cons (σ : Setting) (p : PatternPart) (ps : List PatternPart) :
    (σ.patternText (p :: ps)).toList = (σ.partText p).toList ++ (σ.patternText ps).toList := by
  rw [toList_patternText, toList_patternText, List.flatMap_cons]

/-- No token stays open when none does in a raw fragment. -/
theorem after_patternText (hc : σ.escape = String.singleton c)
    (h : Sound c classes σ.dialect.wildcards) {parts : List PatternPart}
    (hraw : ∀ part ∈ parts, part.option = .raw →
      Reader.between.after c classes part.text.toList = .between) :
    Reader.between.after c classes (σ.patternText parts).toList = .between := by
  induction parts with
  | nil => rfl
  | cons part parts ih =>
    have hpart : Reader.between.after c classes (σ.partText part).toList = .between := by
      by_cases hoption : part.option = .raw
      · rw [partText, hoption]
        exact hraw part List.mem_cons_self hoption
      · exact (spells_partText hc h hoption).after_eq
    rw [patternText_cons, Reader.after_append, hpart]
    exact ih fun part hmem => hraw part (List.mem_cons_of_mem _ hmem)

end Setting

/-- Neighbours of escaped fragments. Wherever a query writes a LIKE operand of fragments, the statement
binds the joined pattern beside the escape sequence, and its tokens are those of what stands before a
fragment, of the fragment and of what stands behind it. An escaped fragment is read as its own
characters and wildcards from between two tokens, so always when every raw fragment before it ends
its tokens itself. From elsewhere it is read so exactly as far as told. -/
theorem Query.build_fragments {k : DialectKind} {d : Dialect} {defaults : QueryOptions} {q : Query}
    {b : Built Output} {c : Char} {negated : Bool} {o pattern : Operand} {option : LikeOption}
    {parts : List PatternPart} (hd : d.OfKind k)
    (hc : (q.setting d defaults).escape = String.singleton c) (hw : c ∉ k.wildcards)
    (hpattern : pattern.patternParts? option = some parts)
    (hparts : ∃ part ∈ parts, part.option ≠ .raw)
    (hx : q.Writes (.like negated o pattern option)) (h : q.build d defaults = .ok b) :
    let σ := q.setting d defaults
    let classes := k.hasClasses
    b.output.Includes d
        [Sql.choose negated " like " " not like ", .parameter (.text (σ.patternText parts)),
          .text " escape ", .parameter (.text (String.singleton c))] ∧
      (∀ ts, Like.Reader.between.read c classes (σ.patternText parts).toList = some ts →
        Like.Reader.between.tokens c classes (σ.patternText parts).toList = ts) ∧
      ∀ before part behind, parts = before ++ part :: behind → part.option ≠ .raw →
        ∃ r r' : Like.Reader,
          r = Like.Reader.between.after c classes (σ.patternText before).toList ∧
          r' = r.after c classes (σ.partText part).toList ∧
          Like.Reader.between.tokens c classes (σ.patternText parts).toList =
            Like.Reader.between.tokens c classes (σ.patternText before).toList ++
              r.tokens c classes (σ.partText part).toList ++
              r'.tokens c classes (σ.patternText behind).toList ∧
          (r.tokens c classes (σ.partText part).toList = part.tokens ↔
            part.KeptFrom c k.wildcards r) ∧
          ((∀ raw ∈ before, raw.option = .raw →
            Like.Reader.between.after c classes raw.text.toList = .between) → r = .between) := by
  intro σ classes
  have hescape : σ.escape.isEmpty = false := by
    rw [show σ.escape = String.singleton c from hc]
    simp
  have hwildcards : k.wildcards = σ.dialect.wildcards := hd.wildcards_eq.symm
  have hsound : Like.Sound c classes σ.dialect.wildcards := hwildcards ▸ Like.sound_wildcards hw
  refine ⟨?_, fun ts hts => (Like.Reader.read_eq_some_iff.mp hts).1, ?_⟩
  · rw [← hc]
    exact build_includes hx (fun p e he => Criterion.like_infix hescape hpattern hparts he) h
  · rintro before part behind rfl hpart
    rw [hwildcards]
    refine ⟨_, _, rfl, rfl, ?_, σ.tokens_partText_iff hc hsound hpart _, σ.after_patternText hc hsound⟩
    rw [Setting.patternText_append, Setting.patternText_cons, Like.Reader.tokens_append,
      Like.Reader.tokens_append, List.append_assoc]

namespace Market

def matching (parts : List PatternPart) : Query :=
  .select ((Select.of (stall 0)).filterBy [.likePattern false (name 0) parts])

/-- Each raw fragment ends its own tokens. -/
def closed : List PatternPart := [⟨"50\\%_", .raw⟩, ⟨"a%\\", .anywhere⟩, ⟨"_", .raw⟩]

/-- The raw fragment ends with the escape character. -/
def opened : List PatternPart := [⟨"\\", .raw⟩, ⟨"%", .literal⟩]

end Market

theorem Query.build_fragments_closed :
    ∃ b, (Market.matching Market.closed).build .postgres default = .ok b ∧
      b.output.Includes .postgres [.text " like ", .parameter (.text "50\\%_%a\\%\\\\%_"),
        .text " escape ", .parameter (.text "\\")] ∧
      ∃ us vs, Like.Reader.between.tokens '\\' false "50\\%_%a\\%\\\\%_".toList =
        us ++ [.anyText, .literal 'a', .literal '%', .literal '\\', .anyText] ++ vs := by
  obtain ⟨b, hb⟩ : ∃ b, (Market.matching Market.closed).build .postgres default = .ok b := ⟨_, rfl⟩
  have hescape : ((Market.matching Market.closed).setting .postgres default).escape =
      String.singleton '\\' := rfl
  have hpattern : ((Market.matching Market.closed).setting .postgres default).patternText
      Market.closed = "50\\%_%a\\%\\\\%_" := by decide +kernel
  have hwrites : (Market.matching Market.closed).Writes
      (.like false (.column (Market.name 0)) (.pattern Market.closed) .raw) :=
    .select (.here ⟨_, List.mem_cons_self, .self⟩)
  have hd : Dialect.postgres.OfKind .postgres := .own
  have hescaped : ∃ part ∈ Market.closed, part.option ≠ .raw := by decide
  obtain ⟨hincludes, _, hfragments⟩ :=
    Query.build_fragments hd hescape (by decide) rfl hescaped hwrites hb
  obtain ⟨r, r', _, _, htokens, hown, hbetween⟩ :=
    hfragments [⟨"50\\%_", .raw⟩] ⟨"a%\\", .anywhere⟩ [⟨"_", .raw⟩] rfl (by decide)
  have hr : r = .between := by
    refine hbetween fun raw hraw _ => ?_
    rw [List.mem_singleton.mp hraw]
    rfl
  rw [hown.mpr (hr ▸ trivial), hpattern] at htokens
  rw [hpattern] at hincludes
  exact ⟨b, hb, hincludes, _, _, htokens⟩

/-- The escape character of the escaped fragment is taken for a character, and its wildcard stays one. -/
theorem Query.build_fragments_leak_opened :
    ∃ b, (Market.matching Market.opened).build .postgres default = .ok b ∧
      b.output.Includes .postgres [.text " like ", .parameter (.text "\\\\%"),
        .text " escape ", .parameter (.text "\\")] ∧
      PatternPart.tokens ⟨"%", .literal⟩ = [.literal '%'] ∧
      Like.Reader.between.read '\\' false "\\\\%".toList = some [.literal '\\', .anyText] ∧
      Like.holds '\\' false "\\\\%" "\\else" = true := by
  have hpattern : ((Market.matching Market.opened).setting .postgres default).patternText
      Market.opened = "\\\\%" := by decide +kernel
  obtain ⟨b, hb⟩ : ∃ b, (Market.matching Market.opened).build .postgres default = .ok b := ⟨_, rfl⟩
  have hwrites : (Market.matching Market.opened).Writes
      (.likePattern false (Market.name 0) Market.opened) :=
    .select (.here ⟨_, List.mem_cons_self, .self⟩)
  have hescaped : ∃ part ∈ Market.opened, part.option ≠ .raw := by decide
  have hincludes := Query.build_includes hwrites
    (fun p e he => Criterion.like_infix rfl rfl hescaped he) hb
  rw [Setting.likePieces, hpattern] at hincludes
  exact ⟨b, hb, hincludes, rfl, by decide, by decide⟩

end SqlCompose
