import SqlCompose.Dialect.Catalog
import SqlCompose.Proofs.Query.Placement

/-! The sub-queries for which levels are made and those that composing meets. They are collected in
two walks over the query, and every one that the second meets, the first has left its level for. -/

namespace SqlCompose

namespace Query

/-- The levels that composing comes to, by number and by position, and the operands that it meets
there. -/
inductive Meets (q : Query) : Nat → Position → List Operand → Prop where
  | root : q.Meets 0 (.root q.scope) q.operands
  | inside {n m : Nat} {p below : Position} {os : List Operand} {r : SubQuery} (h : q.Meets n p os)
      (hr : .subQuery r ∈ os) (hn : q.scope.table.scopeOf n r.id = some m)
      (hp : p.enter? r.id = some below) : q.Meets m below r.select.operands

theorem Meets.stands {q : Query} {n : Nat} {p : Position} {os : List Operand}
    (h : q.Meets n p os) : q.scope.Stands n p := by
  induction h with
  | root => exact .root
  | inside _ _ hn hp ih => exact ih.inside hn hp

/-- A level that composing comes to was made from sub-queries among which are all that it meets
there. -/
structure Made (p : Position) (os : List Operand) (tables : List Table) (qs : List SubQuery)
    (used : List String) : Prop where
  scope : p.scope = (ScopeTree.grow tables qs used).1
  coherent : SubQuery.Coherent qs
  inside : ∀ r ∈ qs, r.select.Coherent
  met : ∀ r, .subQuery r ∈ os → r ∈ qs

theorem Made.select {p below : Position} {os : List Operand} {tables : List Table}
    {qs : List SubQuery} {used : List String} (h : Made p os tables qs used) {r : SubQuery}
    (hr : .subQuery r ∈ os) (hp : p.enter? r.id = some below) :
    ∃ used, Made below r.select.operands r.select.tables r.select.subQueries used := by
  obtain ⟨child, hchild, rfl⟩ := Position.enter?_eq_some_iff.mp hp
  rw [h.scope] at hchild
  obtain ⟨made, hmade, hid, after, rfl⟩ := ScopeTree.child_grow hchild
  have hselect : made.select = r.select := h.coherent made hmade r (h.met r hr) hid
  have hcoherent := h.inside r (h.met r hr)
  refine ⟨after, ?_, hcoherent.here, hcoherent.inside, fun _ => Select.mem_subQueries_iff.mpr⟩
  rw [hselect, Select.scope_eq_grow]

theorem Meets.made {q : Query} (hq : q.Coherent) {n : Nat} {p : Position} {os : List Operand}
    (h : q.Meets n p os) : ∃ tables qs used, Made p os tables qs used := by
  induction h with
  | root =>
    exact ⟨q.tables, q.subQueries, [], q.scope_eq_grow, hq.here, hq.inside,
      fun _ => mem_subQueries_of_operand⟩
  | inside _ hr _ hp ih =>
    obtain ⟨_, _, _, hmade⟩ := ih
    exact ⟨_, _, hmade.select hr hp⟩

theorem Meets.exists_level {q : Query} (hq : q.Coherent) {n : Nat} {p : Position}
    {os : List Operand} (h : q.Meets n p os) {r : SubQuery} (hr : .subQuery r ∈ os) :
    ∃ m below, q.scope.table.scopeOf n r.id = some m ∧ p.enter? r.id = some below := by
  obtain ⟨tables, qs, used, hmade⟩ := h.made hq
  obtain ⟨child, hchild⟩ := ScopeTree.exists_child_grow (hmade.met r hr) tables used
  rw [← hmade.scope] at hchild
  have hp := Position.enter?_eq_some_iff.mpr ⟨child, hchild, rfl⟩
  have hn : (q.scope.table.scopeOf n r.id).isSome = true := by
    rw [h.stands.agrees.scopeOf, hp]
    rfl
  obtain ⟨m, hm⟩ := Option.isSome_iff_exists.mp hn
  exact ⟨m, _, hm, hp⟩

/-- No sub-query is met without a level of its own. The levels are numbered: a number stands for one
sub-query at one place, the level around it has a smaller one, and by number is found what composing
finds by position. -/
theorem build_registered {q : Query} (h : q.Coherent) (d : Dialect) (defaults : QueryOptions) :
    q.build d defaults ≠ .error (.validation .unregisteredSubQuery) ∧
      q.scope.table.Ordered ∧
      (∀ n x, q.scope.table.resolve n x = (q.scope.table.local? n x).or
        ((q.scope.table.parent? n).bind (q.scope.table.resolve · x))) ∧
      ∀ n p os, q.Meets n p os → q.scope.table.Agrees n p ∧
        ∀ r, .subQuery r ∈ os → ∃ m below, q.scope.table.scopeOf n r.id = some m ∧
          p.enter? r.id = some below ∧ q.Meets m below r.select.operands := by
  have hordered := q.scope.table_ordered
  refine ⟨build_placed h d defaults, hordered, hordered.resolve_eq, fun n p os hmeets =>
    ⟨hmeets.stands.agrees, fun r hr => ?_⟩⟩
  obtain ⟨m, below, hn, hp⟩ := hmeets.exists_level h hr
  exact ⟨m, below, hn, hp, hmeets.inside hr hn hp⟩

/-- The two mentions of the children stand at two levels. -/
theorem build_registered_households :
    Family.households.Coherent ∧
      Family.households.build .h2 default ≠ .error (.validation .unregisteredSubQuery) ∧
      (∀ n p os, Family.households.Meets n p os → ∀ r, .subQuery r ∈ os →
        ∃ m below, Family.households.scope.table.scopeOf n r.id = some m ∧
          Family.households.Meets m below r.select.operands) ∧
      Family.households.scope.table.scopeOf 0 7 = some 1 ∧
      Family.households.scope.table.scopeOf 0 8 = some 2 ∧
      Family.households.scope.table.scopeOf 2 7 = some 3 := by
  obtain ⟨hbuild, _, _, hmet⟩ := build_registered Family.households_coherent .h2 default
  refine ⟨Family.households_coherent, hbuild, fun n p os h r hr => ?_, rfl, rfl, rfl⟩
  obtain ⟨m, below, hn, _, hbelow⟩ := (hmet n p os h).2 r hr
  exact ⟨m, below, hn, hbelow⟩

end Query

end SqlCompose
