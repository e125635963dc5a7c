import SqlCompose.Proofs.Query.References

/-! The operands of a level in their places. A place takes a number of columns: a scalar has one, and so
has what a single operand is looked for in; a pair is looked for among two. -/

namespace SqlCompose

/-- What stands in a place, with the number of columns that the place takes if that matters. -/
structure Place (α : Type) where
  width : Option Nat
  content : α

/-- One of these places or, at any depth, a place inside what stands in one of them. -/
inductive Place.Within {α : Type} (inner : α → List (Place α)) (x : Place α) :
    List (Place α) → Prop where
  | here {xs : List (Place α)} (h : x ∈ xs) : x.Within inner xs
  | inside {xs : List (Place α)} {y : Place α} (hy : y ∈ xs) (h : x.Within inner (inner y.content)) :
      x.Within inner xs

/-- Where one operand stands, one column is taken. -/
def Operand.place (o : Operand) : Place Operand := ⟨some 1, o⟩

theorem Operand.map_content_place (os : List Operand) :
    (os.map place).map Place.content = os := by
  rw [List.map_map]
  exact List.map_id os

namespace Criterion

mutual

/-- The places of the criterion but for those beside an empty list, where nothing is written. -/
def places : Criterion → List (Place Operand)
  | .compare _ l r => [l.place, r.place]
  | .isNull _ o => [o.place]
  | .like _ o p _ => [o.place, p.place]
  | .between _ o low high => [o.place, low.place, high.place]
  | .inList _ o values => if values.isEmpty then [] else (o :: values).map Operand.place
  | .inSubQuery _ o query => [o.place, ⟨some 1, .subQuery query⟩]
  | .pairInList _ pair values =>
    if values.isEmpty then []
    else (pair.operands ++ values.flatMap OperandPair.operands).map Operand.place
  | .pairInSubQuery _ pair query =>
    pair.operands.map Operand.place ++ [⟨some 2, .subQuery query⟩]
  | .exists _ query => [⟨none, .subQuery query⟩]
  | .all children => listPlaces children
  | .any children => listPlaces children
  | .not children => listPlaces children

def listPlaces : List Criterion → List (Place Operand)
  | [] => []
  | c :: cs => c.places ++ listPlaces cs

end

theorem listPlaces_eq_flatMap (cs : List Criterion) : listPlaces cs = cs.flatMap places := by
  induction cs with
  | nil => rfl
  | cons c cs ih => rw [listPlaces, ih, List.flatMap_cons]

theorem places_all (cs : List Criterion) : (all cs).places = cs.flatMap places :=
  listPlaces_eq_flatMap cs

theorem places_any (cs : List Criterion) : (any cs).places = cs.flatMap places :=
  listPlaces_eq_flatMap cs

theorem places_not (cs : List Criterion) : (Criterion.not cs).places = cs.flatMap places :=
  listPlaces_eq_flatMap cs

theorem map_content_flatMap {cs : List Criterion}
    (h : ∀ c ∈ cs, c.places.map Place.content = c.written) :
    (cs.flatMap places).map Place.content = cs.flatMap written := by
  rw [List.map_flatMap]
  exact List.flatMap_congr h

/-- What stands in the places are the operands that are written. -/
theorem map_content_places (c : Criterion) : c.places.map Place.content = c.written := by
  induction c with
  | inList negated o values =>
    rw [places, written]
    by_cases hnil : values.isEmpty = true
    · rw [if_pos hnil, if_pos hnil, List.map_nil]
    · rw [if_neg hnil, if_neg hnil, Operand.map_content_place]
  | pairInList negated pair values =>
    rw [places, written]
    by_cases hnil : values.isEmpty = true
    · rw [if_pos hnil, if_pos hnil, List.map_nil]
    · rw [if_neg hnil, if_neg hnil, Operand.map_content_place]
  | all cs ih => rw [places_all, written_all, map_content_flatMap ih]
  | any cs ih => rw [places_any, written_any, map_content_flatMap ih]
  | not cs ih => rw [places_not, written_not, map_content_flatMap ih]
  | _ => rfl

end Criterion

namespace Select

/-- Sub-queries among the items of the select list are scalars. -/
def places (s : Select) : List (Place Operand) :=
  (s.projection.operands s.target).map Operand.place ++ s.criteria.flatMap Criterion.places ++
    (s.orderBy.map fun i => .column i.column).map Operand.place

theorem map_content_places (s : Select) : s.places.map Place.content = s.written := by
  simp only [places, written, List.map_append, Operand.map_content_place,
    Criterion.map_content_flatMap fun c _ => c.map_content_places]

theorem mem_places_of_criterion {s : Select} {c : Criterion} {x : Place Operand}
    (hc : c ∈ s.criteria) (hx : x ∈ c.places) : x ∈ s.places :=
  List.mem_append_left _ (List.mem_append_right _ (List.mem_flatMap.mpr ⟨c, hc, hx⟩))

end Select

/-- The places inside an operand are those of its sub-query. -/
def Operand.inner : Operand → List (Place Operand)
  | .subQuery query => query.select.places
  | _ => []

namespace Query

/-- The places of the outermost level. No rows give an empty statement, which has none. -/
def places : Query → List (Place Operand)
  | .select s => s.places
  | .update q => (q.assignments.flatMap Assignment.operands).map Operand.place ++
      q.filter.flatMap Criterion.places
  | .delete q => q.filter.flatMap Criterion.places
  | .insert _ (.multiple []) => []
  | .insert draft _ => (draft.query.assigned.flatMap Assignment.operands).map Operand.place

theorem places_insert {draft : InsertDraft} {rows : Rows} (h : rows ≠ .multiple []) :
    (insert draft rows).places =
      (draft.query.assigned.flatMap Assignment.operands).map Operand.place := by
  cases rows with
  | single _ => rfl
  | multiple rs =>
    cases rs with
    | nil => exact absurd rfl h
    | cons _ _ => rfl
  | batch _ => rfl

end Query

end SqlCompose
