import SqlCompose.Proofs.Query.Nesting
import SqlCompose.Scope.Tree

/-! Giving aliases to a level reads its criteria only for their sub-queries. A level is therefore
made from two lists, its tables and the sub-queries that it mentions. -/

namespace SqlCompose

namespace Operand

theorem register_eq_foldl (r : Registry) (o : Operand) :
    o.register r = o.subQueries.foldl SubQuery.register r := by
  cases o <;> rfl

theorem registerAll_eq_foldl (r : Registry) (os : List Operand) :
    registerAll r os = (os.flatMap subQueries).foldl SubQuery.register r := by
  induction os generalizing r with
  | nil => rfl
  | cons o os ih => rw [registerAll, ih, register_eq_foldl, List.flatMap_cons, List.foldl_append]

end Operand

namespace OperandPair

theorem register_eq_foldl (r : Registry) (p : OperandPair) :
    p.register r = p.subQueries.foldl SubQuery.register r := by
  obtain ⟨first, second⟩ := p
  rw [register, Operand.register_eq_foldl, Operand.register_eq_foldl, subQueries,
    List.foldl_append]

theorem registerAll_eq_foldl (r : Registry) (ps : List OperandPair) :
    registerAll r ps = (ps.flatMap subQueries).foldl SubQuery.register r := by
  induction ps generalizing r with
  | nil => rfl
  | cons p ps ih => rw [registerAll, ih, register_eq_foldl, List.flatMap_cons, List.foldl_append]

end OperandPair

namespace Criterion

theorem registerAll_eq_foldl_of {cs : List Criterion}
    (h : ∀ c ∈ cs, ∀ r, c.register r = c.subQueries.foldl SubQuery.register r) (r : Registry) :
    registerAll r cs = (cs.flatMap subQueries).foldl SubQuery.register r := by
  induction cs generalizing r with
  | nil => rfl
  | cons c cs ih =>
    rw [registerAll, ih fun c hc => h c (List.mem_cons_of_mem _ hc), h c List.mem_cons_self,
      List.flatMap_cons, List.foldl_append]

theorem register_eq_foldl (r : Registry) (c : Criterion) :
    c.register r = c.subQueries.foldl SubQuery.register r := by
  induction c generalizing r with
  | all cs ih => rw [register, registerAll_eq_foldl_of ih, subQueries_all]
  | any cs ih => rw [register, registerAll_eq_foldl_of ih, subQueries_any]
  | not cs ih => rw [register, registerAll_eq_foldl_of ih, subQueries_not]
  | _ => simp [register, subQueries, Operand.register_eq_foldl, Operand.registerAll_eq_foldl,
      OperandPair.register_eq_foldl, OperandPair.registerAll_eq_foldl]

theorem registerAll_eq_foldl (r : Registry) (cs : List Criterion) :
    registerAll r cs = (cs.flatMap subQueries).foldl SubQuery.register r :=
  registerAll_eq_foldl_of (fun c _ r => register_eq_foldl r c) r

end Criterion

theorem Join.registerAll_eq_foldl (r : Registry) (js : List Join) :
    registerAll r js =
      ((js.flatMap (·.on)).flatMap Criterion.subQueries).foldl SubQuery.register r := by
  induction js generalizing r with
  | nil => rfl
  | cons j js ih =>
    obtain ⟨kind, table, on⟩ := j
    rw [registerAll, ih, register, Criterion.registerAll_eq_foldl, List.flatMap_cons,
      List.flatMap_append, List.foldl_append]

theorem SelectItem.registerAll_eq_foldl (r : Registry) (is : List SelectItem) :
    registerAll r is = (is.flatMap subQueries).foldl SubQuery.register r := by
  induction is generalizing r with
  | nil => rfl
  | cons i is ih => cases i <;> simp [registerAll, register, subQueries, ih]

theorem Projection.register_eq_foldl (r : Registry) (p : Projection) :
    p.register r = p.subQueries.foldl SubQuery.register r := by
  cases p with
  | allColumns => rfl
  | explicit items => exact SelectItem.registerAll_eq_foldl r items

namespace ScopeTree

/-- A level with these tables that mentions these sub-queries, and the names in use after it. -/
def grow (tables : List Table) (queries : List SubQuery) (used : List String) :
    ScopeTree × List String :=
  let (level, used) := Level.introduce tables [] used
  let r := queries.foldl SubQuery.register ⟨[], used⟩
  (.node level r.children, r.used)

end ScopeTree

theorem Select.scope_eq_grow (used : List String) (s : Select) :
    s.scope used = ScopeTree.grow s.tables s.subQueries used := by
  cases s with
  | mk target joins filter projection distinct orderBy offset limit lock options =>
    simp only [scope, ScopeTree.grow, tables, subQueries, criteria,
      Projection.register_eq_foldl, Join.registerAll_eq_foldl, Criterion.registerAll_eq_foldl,
      List.flatMap_append, List.foldl_append]

theorem ScopeTree.ofTarget_eq_grow (target : Table) (queries : List SubQuery) :
    ofTarget target queries = (grow [target] queries []).1 := rfl

theorem ScopeTree.ofSelect_eq_grow (s : Select) :
    ofSelect s = (grow s.tables s.subQueries []).1 := by
  rw [ofSelect, Select.scope_eq_grow]

end SqlCompose
