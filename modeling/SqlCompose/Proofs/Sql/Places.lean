import SqlCompose.Proofs.Query.Places
import SqlCompose.Proofs.Upsert.Clauses

/-! The operands of a statement in their places, level by level. -/

namespace SqlCompose.Sql

def Expr.place (e : Expr) : Place Expr := ⟨some 1, e⟩

theorem Expr.map_content_place (es : List Expr) :
    (es.map place).map Place.content = es := by
  rw [List.map_map]
  exact List.map_id es

namespace Condition

mutual

def places : Condition → List (Place Expr)
  | .constant _ => []
  | .compare _ l r => [l.place, r.place]
  | .isNull _ e => [e.place]
  | .like _ e pattern _ => [e.place, pattern.place]
  | .between _ e low high => [e.place, low.place, high.place]
  | .inList _ e values => (e :: values).map Expr.place
  | .inSubQuery _ e query => [e.place, ⟨some 1, .subQuery query⟩]
  | .rowInList _ row values => (row.operands ++ values.flatMap ExprPair.operands).map Expr.place
  | .rowInSubQuery _ row query => row.operands.map Expr.place ++ [⟨some 2, .subQuery query⟩]
  | .exists _ query => [⟨none, .subQuery query⟩]
  | .chain _ parts => listPlaces parts
  | .parenthesized inner => inner.places
  | .not inner => inner.places

def listPlaces : List Condition → List (Place Expr)
  | [] => []
  | c :: cs => c.places ++ listPlaces cs

end

theorem listPlaces_eq_flatMap (cs : List Condition) : listPlaces cs = cs.flatMap places := by
  induction cs with
  | nil => rfl
  | cons c cs ih => rw [listPlaces, ih, List.flatMap_cons]

theorem collects_places : Collects places where
  constant _ := rfl
  chain _ cs := listPlaces_eq_flatMap cs
  parenthesized _ := rfl
  not _ := rfl

end Condition

mutual

theorem Condition.map_content_places : ∀ c : Condition, c.places.map Place.content = c.operands
  | .constant _ => rfl
  | .compare _ _ _ => rfl
  | .isNull _ _ => rfl
  | .like _ _ _ _ => rfl
  | .between _ _ _ _ => rfl
  | .inList _ _ _ => Expr.map_content_place _
  | .inSubQuery _ _ _ => rfl
  | .rowInList _ _ _ => Expr.map_content_place _
  | .rowInSubQuery _ _ _ => rfl
  | .exists _ _ => rfl
  | .chain _ parts => Condition.map_content_listPlaces parts
  | .parenthesized inner => Condition.map_content_places inner
  | .not inner => Condition.map_content_places inner

theorem Condition.map_content_listPlaces : ∀ cs : List Condition,
    (Condition.listPlaces cs).map Place.content = Condition.listOperands cs
  | [] => rfl
  | c :: cs => by
    rw [Condition.listPlaces, Condition.listOperands, List.map_append,
      Condition.map_content_places c, Condition.map_content_listPlaces cs]

end

theorem map_content_flatMap {α : Type} {f : α → List (Place Expr)} {g : α → List Expr}
    (h : ∀ x, (f x).map Place.content = g x) (xs : List α) :
    (xs.flatMap f).map Place.content = xs.flatMap g := by
  rw [List.map_flatMap]
  exact List.flatMap_congr fun x _ => h x

namespace Select

def places (s : Select) : List (Place Expr) :=
  (s.items.flatMap SelectItem.operands).map Expr.place ++ s.joins.flatMap (·.on.places) ++
    s.filter.toList.flatMap Condition.places ++
      (s.orderBy.map fun i => .column i.name).map Expr.place

theorem map_content_places (s : Select) : s.places.map Place.content = s.operands := by
  simp only [places, operands, List.map_append, Expr.map_content_place,
    map_content_flatMap (fun j : Join => j.on.map_content_places),
    map_content_flatMap Condition.map_content_places]

end Select

/-- The places inside an expression are those of its select. -/
def Expr.inner : Expr → List (Place Expr)
  | .subQuery query => query.places
  | _ => []

namespace Command

/-- The keys of a `merge`, which are columns, have no places. -/
def places : Command → List (Place Expr)
  | .select s => s.places
  | .update u =>
    (u.items.flatMap SetItem.operands).map Expr.place ++ u.filter.toList.flatMap Condition.places
  | .delete d => d.filter.toList.flatMap Condition.places
  | .write w => (w.body.items.flatMap SetItem.operands).map Expr.place

theorem map_content_subset (c : Command) : c.places.map Place.content ⊆ c.operands := by
  cases c with
  | select s =>
    rw [places, Select.map_content_places]
    exact List.Subset.refl _
  | update u =>
    rw [places, List.map_append, Expr.map_content_place,
      map_content_flatMap Condition.map_content_places]
    exact List.Subset.refl _
  | delete d =>
    rw [places, map_content_flatMap Condition.map_content_places]
    exact List.Subset.refl _
  | write w =>
    rw [places, Expr.map_content_place]
    exact w.body.items_operands_subset

end Command

end SqlCompose.Sql
