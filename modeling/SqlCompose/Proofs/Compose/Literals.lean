import SqlCompose.Proofs.Compose.Parameters
import SqlCompose.Proofs.Sql.Literals

/-! String literals in built statements that are shown with their values. A lexer finds one for each text,
identifier, date, time, JSON value and sequence of bytes, from the start to the end of its literal, and
no others, whatever the values and the names are. -/

namespace SqlCompose

/-- A value with the place of its literal in a text. -/
structure PlacedValue where
  start : Nat
  stop : Nat
  value : Value

/-- The values of the pieces before which `start` characters stand. -/
def Piece.placedFrom (d : Dialect) : Nat → List Piece → List PlacedValue
  | _, [] => []
  | start, p :: ps =>
    let stop := start + (p.inlined d).length
    match p with
    | .parameter b => ⟨start, stop, b.value⟩ :: placedFrom d stop ps
    | _ => placedFrom d stop ps

/-- The literal stands where the value does, and its content is the value. -/
structure StringLiteral.Writes (j : DialectKind) (l : StringLiteral) (v : PlacedValue) : Prop where
  start : l.start = v.start
  stop : l.stop = v.stop
  closed : l.closed = true
  content : v.value.Says j l.content

/-- The values of a statement of dialect `k` in its text with literals of dialect `j`. -/
def Statement.placed (k j : DialectKind) (s : Statement) : List PlacedValue :=
  Piece.placedFrom (k.showing j) 0 s.pieces

/-- The string literals in the text with literals of dialect `j` are those of the values. -/
structure Statement.LiteralsAgree (k j : DialectKind) (s : Statement) : Prop where
  values : (s.placed k j).map (·.value) = s.values.map (·.value)
  places : ∀ v ∈ s.placed k j, ((s.inlinedFor j).toList.drop v.start).take (v.stop - v.start) =
    (j.dialect.literal v.value).toList
  literals : List.Forall₂ (StringLiteral.Writes j)
    (stringLiterals k.dialect.quotes (s.inlinedFor j))
    ((s.placed k j).filter (·.value.isQuoted))

namespace Piece

variable {d : Dialect}

theorem map_value_placedFrom (start : Nat) (ps : List Piece) :
    (placedFrom d start ps).map (·.value) = (values ps).map (·.value) := by
  induction ps generalizing start with
  | nil => rfl
  | cons p ps ih => cases p <;> simp [placedFrom, values, ih]

theorem literal_of_mem_placedFrom {v : PlacedValue} {ps : List Piece} (before : List Char)
    (h : v ∈ placedFrom d before.length ps) :
    ((before ++ ps.flatMap fun p => (p.inlined d).toList).drop v.start).take (v.stop - v.start) =
      (d.literal v.value).toList := by
  induction ps generalizing before with
  | nil => exact absurd h List.not_mem_nil
  | cons p ps ih =>
    have hlater : v ∈ placedFrom d (before.length + (p.inlined d).length) ps →
        ((before ++ (p :: ps).flatMap fun p => (p.inlined d).toList).drop v.start).take
          (v.stop - v.start) = (d.literal v.value).toList := fun h => by
      have hrest := ih (before ++ (p.inlined d).toList)
        (by rwa [List.length_append, String.length_toList])
      rwa [List.append_assoc] at hrest
    cases p with
    | text t => exact hlater h
    | name i => exact hlater h
    | parameter b =>
      rcases List.mem_cons.mp h with rfl | h
      · simp [inlined, ← String.length_toList]
      · exact hlater h

theorem literalsFrom_placedFrom (j : DialectKind) (start : Nat) (ps : List Piece) :
    List.Forall₂ (StringLiteral.Writes j) (literalsFrom d j start ps)
      ((placedFrom d start ps).filter (·.value.isQuoted)) := by
  induction ps generalizing start with
  | nil => exact .nil
  | cons p ps ih =>
    have ih := ih (start + (p.inlined d).length)
    cases p with
    | text t => exact ih
    | name i => exact ih
    | parameter b =>
      have hquoted := b.value.isSome_quoted? j
      rw [literalsFrom, placedFrom, quoted?, List.filter_cons, ← hquoted]
      cases hcontent : b.value.quoted? j with
      | none => exact ih
      | some content => exact .cons ⟨rfl, rfl, rfl, Value.says_of_quoted? hcontent⟩ ih

/-- Pieces that are put together well and write legal names show no literals but those of values. -/
theorem Woven.literalsAgree {ps : List Piece} (h : Woven ps)
    (hnames : Named Identifier.Legal ps) (k j : DialectKind) :
    Statement.LiteralsAgree k j ⟨k.dialect, ps⟩ := by
  have hsound := h.sound hnames
  have htext : (Statement.inlinedFor ⟨k.dialect, ps⟩ j).toList =
      ps.flatMap fun p => (p.inlined (k.showing j)).toList := by
    rw [Statement.inlinedFor, String.toList_join, List.flatMap_map]
    rfl
  constructor
  case values => exact map_value_placedFrom 0 ps
  case places =>
    intro v hv
    rw [htext]
    exact literal_of_mem_placedFrom [] hv
  case literals =>
    rw [stringLiterals, htext, lex_inlined hsound h.apart, literalsFrom_lex hsound]
    exact literalsFrom_placedFrom j 0 ps

end Piece

/-- Whatever is built for a known dialect from tables with legal names, and whichever dialect its values
are then written for: a lexer finds one string literal for each value that has one, from where its
literal starts to where it ends, with the value as its content, and no other string literal. -/
theorem Query.build_literalsAgree {k : DialectKind} {defaults : QueryOptions} {q : Query}
    {b : Built Output} {s : Statement} (hq : q.Legal) (h : q.build k.dialect defaults = .ok b)
    (hs : b.output = .statement s) :
    s.inlined = s.inlinedFor k ∧ ∀ j, s.LiteralsAgree k j := by
  rcases build_shows h with hempty | ⟨c, hc, hshows⟩
  · obtain rfl := Output.statement.inj (hs.symm.trans hempty)
    exact ⟨Statement.inlined_eq rfl, fun j => Piece.Woven.nil.literalsAgree (by simp) k j⟩
  · rw [hs] at hshows
    obtain rfl : s = c.statement k.dialect := hshows
    exact ⟨Statement.inlined_eq rfl, fun j => c.woven.literalsAgree (hc.named hq) k j⟩

namespace Market

/-- Cards, under names with quotes. -/
def card (n : Nat) : Table :=
  ⟨n, .quoted "buyer's", none,
    [⟨.plain "id", .uuid, false, true, false⟩, ⟨.plain "N", .text, false, false, false⟩,
      ⟨.quoted "''mark'", .bytes, true, false, false⟩, ⟨.plain "day", .date, true, false, false⟩,
      ⟨.plain "data", .json, true, false, false⟩]⟩

theorem card_legal (n : Nat) : (card n).Legal where
  name := .inr ⟨"buyer's", rfl⟩
  schema s hs := by cases hs
  columns c hc := by
    simp only [card, List.mem_cons, List.not_mem_nil, or_false] at hc
    rcases hc with rfl | rfl | rfl | rfl | rfl
    · exact .inl ⟨"id", rfl⟩
    · exact .inl ⟨"N", rfl⟩
    · exact .inr ⟨"''mark'", rfl⟩
    · exact .inl ⟨"day", rfl⟩
    · exact .inl ⟨"data", rfl⟩

def note (n : Nat) : Column := ⟨card n, (1 : Fin 5)⟩

def mark (n : Nat) : Column := ⟨card n, (2 : Fin 5)⟩

def data (n : Nat) : Column := ⟨card n, (4 : Fin 5)⟩

/-- Cards with a quote, with what looks like a condition or with nothing as their note. -/
def notes : Query :=
  .select ((Select.of (card 0)).filterBy
    [.inList false (.column (note 0))
      [.parameter (.text "'"), .parameter (.text "N'' or '1' = '1"), .parameter (.text "")],
      .compare .equal (.column (mark 0)) (.parameter ⟨.bytes [39, 0], .bytes⟩),
      .compare .notEqual (.column (data 0)) (.parameter ⟨.json (.string "'"), .json⟩)])

theorem notes_legal : notes.Legal :=
  ⟨fun _ ht => List.mem_singleton.mp ht ▸ card_legal 0, fun _ hr => absurd hr List.not_mem_nil⟩

end Market

/-- Five literals beside names with quotes. -/
theorem Query.build_literalsAgree_notes :
    Market.notes.Legal ∧ ∃ b s, Market.notes.build DialectKind.sqlServer.dialect default = .ok b ∧
      b.output = .statement s ∧ s.inlined = s.inlinedFor .sqlServer ∧
      (∀ j, s.LiteralsAgree .sqlServer j) ∧
      (stringLiterals DialectKind.sqlServer.dialect.quotes s.inlined).length = 5 := by
  obtain ⟨b, hb⟩ : ∃ b, Market.notes.build DialectKind.sqlServer.dialect default = .ok b := ⟨_, rfl⟩
  obtain ⟨s, hs⟩ : ∃ s, b.output = .statement s := by
    obtain rfl := Except.ok.inj hb
    exact ⟨_, rfl⟩
  obtain ⟨hinlined, hall⟩ := build_literalsAgree Market.notes_legal hb hs
  refine ⟨Market.notes_legal, b, s, hb, hs, hinlined, hall, ?_⟩
  rw [hinlined, (hall .sqlServer).literals.length_eq]
  obtain rfl := Except.ok.inj hb
  obtain rfl := Output.statement.inj hs
  rfl

end SqlCompose
