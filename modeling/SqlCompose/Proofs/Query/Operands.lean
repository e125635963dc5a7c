import Mathlib.Data.List.Basic
import SqlCompose.Compose.Row
import SqlCompose.Proofs.Query.Nesting

/-! The operands that a query level mentions, in the order of its text. A sub-query counts as an
operand wherever it stands, and so does every column of the select list and of the ordering. -/

namespace SqlCompose

@[simp] def OperandPair.operands (p : OperandPair) : List Operand := [p.first, p.second]

namespace Criterion

mutual

@[simp] def operands : Criterion → List Operand
  | .compare _ l r => [l, r]
  | .isNull _ o => [o]
  | .like _ o p _ => [o, p]
  | .between _ o low high => [o, low, high]
  | .inList _ o values => o :: values
  | .inSubQuery _ o query => [o, .subQuery query]
  | .pairInList _ pair values => pair.operands ++ values.flatMap OperandPair.operands
  | .pairInSubQuery _ pair query => pair.operands ++ [.subQuery query]
  | .exists _ query => [.subQuery query]
  | .all children => listOperands children
  | .any children => listOperands children
  | .not children => listOperands children

@[simp] def listOperands : List Criterion → List Operand
  | [] => []
  | c :: cs => c.operands ++ listOperands cs

end

@[simp] theorem listOperands_eq_flatMap (cs : List Criterion) :
    listOperands cs = cs.flatMap operands := by
  induction cs with
  | nil => rfl
  | cons c cs ih => simp [listOperands, ih]

theorem operands_all (cs : List Criterion) :
    (all cs).operands = cs.flatMap operands := listOperands_eq_flatMap cs

theorem operands_any (cs : List Criterion) :
    (any cs).operands = cs.flatMap operands := listOperands_eq_flatMap cs

theorem operands_not (cs : List Criterion) :
    (Criterion.not cs).operands = cs.flatMap operands := listOperands_eq_flatMap cs

end Criterion

@[simp] def Aggregate.operands : Aggregate → List Operand
  | .countAll => []
  | .count c => [.column c]
  | .max c => [.column c]
  | .min c => [.column c]

@[simp] def SelectItem.operands : SelectItem → List Operand
  | .column c => [.column c]
  | .aggregate a => a.operands
  | .subQuery query => [.subQuery query]

def Projection.operands (target : Table) : Projection → List Operand
  | .allColumns => target.columns.map .column
  | .explicit items => items.flatMap SelectItem.operands

def Select.operands (s : Select) : List Operand :=
  s.projection.operands s.target ++ s.criteria.flatMap Criterion.operands ++
    s.orderBy.map fun i => .column i.column

def Assignment.operands (a : Assignment) : List Operand :=
  match a.value with
  | .operand o => [o]
  | .incoming _ => []

namespace UpdateQuery

def operands (q : UpdateQuery) : List Operand :=
  q.assignments.flatMap Assignment.operands ++ q.filter.flatMap Criterion.operands

end UpdateQuery

def DeleteQuery.operands (q : DeleteQuery) : List Operand :=
  q.filter.flatMap Criterion.operands

namespace InsertQuery

/-- The assignments that the caller gave. -/
def assigned (q : InsertQuery) : List Assignment :=
  match q.conflict with
  | some ⟨_, .update (.assignments items)⟩ => items
  | _ => []

/-- Without explicit assignments only the key columns are mentioned. -/
def operands (q : InsertQuery) : List Operand :=
  match q.conflict with
  | none => []
  | some ⟨keys, policy⟩ =>
    (if keys.isEmpty then q.target.keyColumns else keys).map .column ++
      match policy with
      | .update (.assignments items) => items.flatMap Assignment.operands
      | _ => []

theorem assigned_operands_subset (q : InsertQuery) :
    q.assigned.flatMap Assignment.operands ⊆ q.operands := by
  unfold assigned operands
  match q.conflict with
  | some ⟨_, .update (.assignments _)⟩ => exact List.subset_append_right _ _
  | some ⟨_, .update .allColumns⟩ => exact List.nil_subset _
  | some ⟨_, .ignore⟩ => exact List.nil_subset _
  | none => exact List.nil_subset _

/-- Sub-queries of an upsert stand in its explicit assignments. -/
theorem subQueries_eq_assigned (q : InsertQuery) :
    q.subQueries = q.assigned.flatMap Assignment.subQueries := by
  unfold subQueries assigned
  match q.conflict with
  | some ⟨_, .update (.assignments _)⟩ => rfl
  | some ⟨_, .update .allColumns⟩ => rfl
  | some ⟨_, .ignore⟩ => rfl
  | none => rfl

end InsertQuery

theorem Operand.mem_subQueries_iff {q : SubQuery} {o : Operand} :
    q ∈ o.subQueries ↔ o = .subQuery q := by
  cases o <;> simp [subQueries, eq_comm]

theorem Operand.mem_flatMap_subQueries_iff {q : SubQuery} {os : List Operand} :
    q ∈ os.flatMap subQueries ↔ .subQuery q ∈ os := by
  simp [List.mem_flatMap, mem_subQueries_iff]

theorem flatMap_subQueries_of {α : Type} {f : α → List SubQuery} {g : α → List Operand}
    {xs : List α} (h : ∀ x ∈ xs, f x = (g x).flatMap Operand.subQueries) :
    xs.flatMap f = (xs.flatMap g).flatMap Operand.subQueries := by
  rw [List.flatMap_assoc]
  exact List.flatMap_congr h

theorem Criterion.subQueries_eq (c : Criterion) :
    c.subQueries = c.operands.flatMap Operand.subQueries := by
  have hpairs : ∀ ps : List OperandPair, ps.flatMap OperandPair.subQueries =
      (ps.flatMap OperandPair.operands).flatMap Operand.subQueries := fun ps =>
    flatMap_subQueries_of fun p _ => by simp [OperandPair.subQueries, OperandPair.operands]
  induction c with
  | all cs ih => rw [subQueries_all, operands_all, flatMap_subQueries_of ih]
  | any cs ih => rw [subQueries_any, operands_any, flatMap_subQueries_of ih]
  | not cs ih => rw [subQueries_not, operands_not, flatMap_subQueries_of ih]
  | _ => simp [subQueries, operands, OperandPair.subQueries, OperandPair.operands,
      Operand.subQueries, hpairs]

theorem SelectItem.subQueries_eq (i : SelectItem) :
    i.subQueries = i.operands.flatMap Operand.subQueries := by
  cases i with
  | aggregate a => cases a <;> rfl
  | _ => rfl

theorem Projection.subQueries_eq (target : Table) (p : Projection) :
    p.subQueries = (p.operands target).flatMap Operand.subQueries := by
  cases p with
  | allColumns => simp [subQueries, operands, Operand.subQueries, List.flatMap_map]
  | explicit items => exact flatMap_subQueries_of fun i _ => i.subQueries_eq

theorem Select.subQueries_eq (s : Select) :
    s.subQueries = s.operands.flatMap Operand.subQueries := by
  rw [subQueries, operands, Projection.subQueries_eq s.target,
    flatMap_subQueries_of fun (c : Criterion) _ => c.subQueries_eq]
  simp [Operand.subQueries, List.flatMap_map]

theorem Assignment.subQueries_eq (a : Assignment) :
    a.subQueries = a.operands.flatMap Operand.subQueries := by
  obtain ⟨column, value⟩ := a
  cases value <;> simp [subQueries, operands]

theorem UpdateQuery.subQueries_eq (q : UpdateQuery) :
    q.subQueries = q.operands.flatMap Operand.subQueries := by
  rw [subQueries, operands, List.flatMap_append,
    flatMap_subQueries_of fun (a : Assignment) _ => a.subQueries_eq,
    flatMap_subQueries_of fun (c : Criterion) _ => c.subQueries_eq]

theorem DeleteQuery.subQueries_eq (q : DeleteQuery) :
    q.subQueries = q.operands.flatMap Operand.subQueries :=
  flatMap_subQueries_of fun c _ => c.subQueries_eq

theorem InsertQuery.subQueries_eq (q : InsertQuery) :
    q.subQueries = q.operands.flatMap Operand.subQueries := by
  have hcolumns : ∀ cs : List Column, (cs.map Operand.column).flatMap Operand.subQueries = [] :=
    fun cs => by simp [List.flatMap_map, Operand.subQueries]
  have hitems : ∀ items : List Assignment, items.flatMap Assignment.subQueries =
      (items.flatMap Assignment.operands).flatMap Operand.subQueries := fun items =>
    flatMap_subQueries_of fun a _ => a.subQueries_eq
  unfold subQueries operands
  split
  · rename_i keys items hc
    simp only [hc, List.flatMap_append, hcolumns, hitems, List.nil_append]
  · rename_i hc
    split
    · rfl
    · rename_i keys policy hp
      rw [List.flatMap_append, hcolumns]
      split
      · exact absurd hp (hc keys _)
      · rfl

theorem Select.mem_subQueries_iff {s : Select} {q : SubQuery} :
    q ∈ s.subQueries ↔ .subQuery q ∈ s.operands := by
  rw [subQueries_eq, Operand.mem_flatMap_subQueries_iff]

end SqlCompose
