import SqlCompose.Proofs.Compose.Places
import SqlCompose.Proofs.Insert.Statements

/-! How wide nested selects are. A select has as many items as its sub-query counts, and a place is filled
only by a select of the width that it takes, however deep it is nested. -/

namespace SqlCompose

section

variable {σ : Setting} {p : Position}

theorem Select.compose_width {s : Select} {t : Sql.Select} (h : s.compose σ p = .ok t) :
    t.items.length = s.width := by
  obtain ⟨_, items, hitems, _, _, _, _, _, _, _, _, _, _, rfl⟩ := compose_eq_ok_iff.mp h
  unfold width
  cases hp : s.projection with
  | allColumns =>
    rw [hp] at hitems
    rw [← (Projection.compose_allColumns_eq_ok_iff.mp hitems).length_eq, Table.columns,
      List.length_map, List.length_finRange]
  | explicit is =>
    rw [hp] at hitems
    exact (Projection.compose_explicit_eq_ok_iff.mp hitems).length_eq.symm

theorem SubQuery.compose_width {q : SubQuery} {width : Option Nat} {t : Sql.Select}
    (h : q.compose σ p width = .ok t) :
    t.items.length = q.select.width ∧ ∀ n ∈ width, q.select.width = n := by
  obtain ⟨hwidth, child, _, hselect⟩ := compose_eq_ok_iff.mp h
  exact ⟨Select.compose_width hselect, hwidth⟩

end

namespace Place

variable {σ : Setting} {p : Position} {x : Place Operand} {y : Place Sql.Expr}

/-- What is inside a sub-query has become what is inside its select, one level down. -/
theorem Becomes.inside (h : x.Becomes σ p y) :
    ∃ below, Matched (Becomes σ below) x.content.inner y.content.inner := by
  obtain ⟨_, o⟩ := x
  obtain ⟨_, e⟩ := y
  obtain ⟨_, hcontent⟩ := h
  cases hcontent with
  | subQuery ht =>
    obtain ⟨_, child, _, hselect⟩ := SubQuery.compose_eq_ok_iff.mp ht
    exact ⟨_, Select.compose_places hselect⟩
  | _ => exact ⟨p, .nil⟩

theorem Within.origin {xs : List (Place Operand)} {ys : List (Place Sql.Expr)}
    (hy : y.Within Sql.Expr.inner ys) (h : Matched (Becomes σ p) xs ys) :
    ∃ (x : Place Operand) (below : Position), x.Within Operand.inner xs ∧ x.Becomes σ below y := by
  induction hy generalizing p xs with
  | here hy =>
    obtain ⟨x, hx, hxy⟩ := h.origin y hy
    exact ⟨x, p, .here hx, hxy⟩
  | inside hz _ ih =>
    obtain ⟨w, hw, hwz⟩ := h.origin _ hz
    obtain ⟨_, hinside⟩ := hwz.inside
    obtain ⟨x, below, hx, hxy⟩ := ih hinside
    exact ⟨x, below, .inside hw hx, hxy⟩

theorem Within.image {xs : List (Place Operand)} {ys : List (Place Sql.Expr)}
    (hx : x.Within Operand.inner xs) (h : Matched (Becomes σ p) xs ys) :
    ∃ (y : Place Sql.Expr) (below : Position), y.Within Sql.Expr.inner ys ∧ x.Becomes σ below y := by
  induction hx generalizing p ys with
  | here hx =>
    obtain ⟨y, hy, hxy⟩ := h.image x hx
    exact ⟨y, p, .here hy, hxy⟩
  | inside hz _ ih =>
    obtain ⟨w, hw, hzw⟩ := h.image _ hz
    obtain ⟨_, hinside⟩ := hzw.inside
    obtain ⟨y, below, hy, hxy⟩ := ih hinside
    exact ⟨y, below, .inside hw hy, hxy⟩

/-- However deep an operand stands, it is printed in one stretch. -/
theorem Within.infix_pieces {ys : List (Place Sql.Expr)} {ps : List Piece}
    (hy : y.Within Sql.Expr.inner ys) (h : ∀ z ∈ ys, z.content.pieces <:+: ps) :
    y.content.pieces <:+: ps := by
  induction hy with
  | here hy => exact h y hy
  | @inside ys z hz _ ih =>
    refine ih fun w hw => ?_
    have hz := h z hz
    cases hcontent : z.content with
    | subQuery t =>
      rw [hcontent] at hw hz
      have hoperand : w.content ∈ t.operands := t.map_content_places ▸ List.mem_map_of_mem hw
      exact ((Sql.Select.infix_pieces hoperand).trans (Piece.infix_enclosed _)).trans hz
    | _ =>
      rw [hcontent] at hw
      exact absurd hw List.not_mem_nil

end Place

theorem Sql.Command.infix_place {c : Command} {y : Place Expr} (h : y.Within Expr.inner c.places) :
    y.content.pieces <:+: c.pieces :=
  h.infix_pieces fun _ hz => infix_pieces (c.map_content_subset (List.mem_map_of_mem hz))

namespace Query

variable {d : Dialect} {defaults : QueryOptions}

theorem Composed.places {q : Query} {c : Sql.Command} (h : q.Composed d defaults c)
    (hq : ∀ draft, q ≠ .insert draft (.multiple [])) :
    Matched (Place.Becomes (q.setting d defaults) (.root q.scope)) q.places c.places := by
  cases h with
  | select h => exact Select.compose_places h
  | update h =>
    obtain ⟨items, hitems, conditions, hconditions, rfl⟩ := UpdateQuery.compose_eq_ok h
    rw [Query.places, Sql.Command.places, Sql.Condition.collects_places.conjunction?]
    exact .append (Assignment.forall_composeUpdate_places hitems)
      (Criterion.forall_compose_places hconditions)
  | delete h =>
    obtain ⟨conditions, hconditions, rfl⟩ := DeleteQuery.compose_eq_ok h
    rw [Query.places, Sql.Command.places, Sql.Condition.collects_places.conjunction?]
    exact Criterion.forall_compose_places hconditions
  | @insert draft rows cells w _ h =>
    have hrows : rows ≠ .multiple [] := by
      rintro rfl
      exact hq draft rfl
    rw [places_insert hrows]
    exact InsertQuery.composeBody_places (InsertQuery.compose_eq_ok h).1

/-- What a query writes and what is shown of it correspond place by place. -/
theorem build_places {q : Query} {b : Built Output} (h : q.build d defaults = .ok b) :
    (∃ draft, q = .insert draft (.multiple [])) ∧ b.output = .statement (.empty d) ∨
      ∃ c, q.Composed d defaults c ∧ b.output.Shows d c ∧
        Matched (Place.Becomes (q.setting d defaults) (.root q.scope)) q.places c.places := by
  by_cases hq : ∃ draft, q = .insert draft (.multiple [])
  · obtain ⟨draft, rfl⟩ := hq
    exact .inl ⟨⟨draft, rfl⟩, build_insert_nothing h⟩
  · rcases build_eq_ok h with ⟨hnone, _⟩ | ⟨c, hc, hshows⟩
    · exact absurd hnone hq
    · exact .inr ⟨c, hc, hshows, hc.places fun draft hdraft => hq ⟨draft, hdraft⟩⟩

/-- However deep a select is nested in a statement, it has as many items as its sub-query counts and
as its place takes. A query with a sub-query that does not fit its place is never built. -/
theorem build_widths (q : Query) (d : Dialect) (defaults : QueryOptions) :
    (∀ b, q.build d defaults = .ok b →
      (∃ draft, q = .insert draft (.multiple [])) ∧ b.output = .statement (.empty d) ∨
        ∃ c, q.Composed d defaults c ∧ b.output.Shows d c ∧
          (∀ s t, q = .select s → c = .select t → t.items.length = s.width) ∧
          ∀ width t, Place.Within Sql.Expr.inner ⟨width, .subQuery t⟩ c.places →
            Piece.enclosed t.pieces <:+: c.pieces ∧ (∀ n ∈ width, t.items.length = n) ∧
            ∃ r, Place.Within Operand.inner ⟨width, .subQuery r⟩ q.places ∧
              (∃ p, r.compose (q.setting d defaults) p width = .ok t) ∧
              t.items.length = r.select.width) ∧
      ∀ width r, Place.Within Operand.inner ⟨width, .subQuery r⟩ q.places →
        (∃ n ∈ width, r.select.width ≠ n) → ∃ e, q.build d defaults = .error e := by
  constructor
  · intro b hb
    refine (build_places hb).imp_right ?_
    rintro ⟨c, hc, hshows, hplaces⟩
    refine ⟨c, hc, hshows, ?_, fun width t ht => ?_⟩
    · rintro s t rfl rfl
      cases hc with
      | select h => exact Select.compose_width h
    · -- only a sub-query becomes a select, so one stands where the select comes from
      obtain ⟨⟨_, o⟩, below, ho, rfl, hbecomes⟩ := ht.origin hplaces
      cases hbecomes with
      | subQuery hr =>
        obtain ⟨hlength, hwidth⟩ := SubQuery.compose_width hr
        exact ⟨Sql.Command.infix_place ht, fun n hn => hlength.trans (hwidth n hn), _, ho,
          ⟨below, hr⟩, hlength⟩
  · rintro width r hr ⟨n, hn, hne⟩
    cases hb : q.build d defaults with
    | error e => exact ⟨e, rfl⟩
    | ok b =>
      rcases build_places hb with ⟨⟨draft, rfl⟩, _⟩ | ⟨c, _, _, hplaces⟩
      · cases hr with
        | here hr => exact absurd hr List.not_mem_nil
        | inside hz _ => exact absurd hz List.not_mem_nil
      · -- had the query been built, the sub-query would have become a select of that width
        obtain ⟨⟨_, e⟩, _, _, _, hbecomes⟩ := hr.image hplaces
        cases hbecomes with
        | subQuery ht => exact absurd ((SubQuery.compose_width ht).2 n hn) hne

end Query

namespace Family

/-- The names of all persons. -/
def names : SubQuery := ⟨7, (Select.of (person 3)).project [.column (name 3)]⟩

/-- The numbers and parents of persons who share their name with somebody. -/
def namesakes : SubQuery :=
  ⟨8, ((Select.of (person 2)).project [.column (number 2), .column (parent 2)]).filterBy
    [.inSubQuery false (.column (name 2)) names]⟩

/-- Persons who are looked for by number and parent. -/
def among (known : SubQuery) : Query :=
  .select ((Select.of (person 1)).filterBy
    [.pairInSubQuery false ⟨.column (number 1), .column (parent 1)⟩ known])

end Family

section

open Family

/-- Pairs are found among numbers and parents but not among names. -/
theorem Query.build_widths_among :
    (∃ b c, (among namesakes).build .postgres default = .ok b ∧ b.output.Shows .postgres c ∧
      ∃ t : Sql.Select, Place.Within Sql.Expr.inner ⟨some 1, .subQuery t⟩ c.places ∧
        Piece.enclosed t.pieces <:+: c.pieces ∧ t.items.length = 1) ∧
      ∃ e, (among names).build .postgres default = .error e := by
  obtain ⟨b, hb⟩ : ∃ b, (among namesakes).build .postgres default = .ok b := ⟨_, rfl⟩
  have houter : ∀ known, ⟨some 2, .subQuery known⟩ ∈ (among known).places := fun known =>
    Select.mem_places_of_criterion List.mem_cons_self
      (List.mem_append_right _ (List.mem_singleton_self _))
  have hinner : ⟨some 1, .subQuery names⟩ ∈ namesakes.select.places :=
    Select.mem_places_of_criterion List.mem_cons_self
      (List.mem_cons_of_mem _ (List.mem_singleton_self _))
  constructor
  · rcases (build_widths (among namesakes) .postgres default).1 b hb with
      ⟨⟨draft, hq⟩, _⟩ | ⟨c, hc, hshows, _, hall⟩
    · cases hq
    · have hr : Place.Within Operand.inner ⟨some 1, .subQuery names⟩ (among namesakes).places :=
        .inside (houter namesakes) (.here hinner)
      obtain ⟨⟨_, e⟩, below, hy, rfl, hbecomes⟩ := hr.image (hc.places fun draft hq => by cases hq)
      cases hbecomes with
      | subQuery _ =>
        obtain ⟨hpieces, hwidth, _⟩ := hall _ _ hy
        exact ⟨b, c, hb, hshows, _, hy, hpieces, hwidth 1 rfl⟩
  · exact (build_widths (among names) .postgres default).2 _ names (.here (houter names))
      ⟨2, rfl, by decide⟩

end

end SqlCompose
