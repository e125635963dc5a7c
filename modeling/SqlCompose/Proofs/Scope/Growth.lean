import SqlCompose.Proofs.Scope.Registration

/-! Levels that mention further sub-queries. What stands below such a level already stays there with its
aliases, and what is mentioned again gets no second level. -/

namespace SqlCompose

namespace ScopeTree

/-- The same level, with more levels below it perhaps. -/
structure GrowsTo (t t' : ScopeTree) : Prop where
  level : t'.level = t.level
  children : t.children <+: t'.children

theorem GrowsTo.child? {t t' child : ScopeTree} {id : Nat} (h : t.GrowsTo t')
    (hc : t.child? id = some child) : t'.child? id = some child := by
  obtain ⟨more, hmore⟩ := h.children
  unfold ScopeTree.child? at hc ⊢
  rw [← hmore, List.lookup_append, hc, Option.some_or]

end ScopeTree

theorem SubQuery.register_children (q : SubQuery) (r : Registry) :
    r.children <+: (q.register r).children := by
  obtain ⟨id, select⟩ := q
  by_cases hid : (r.children.lookup id).isSome = true
  · simp [register, hid]
  · simp [register, hid]

theorem Registry.foldl_children (qs : List SubQuery) (r : Registry) :
    r.children <+: (qs.foldl SubQuery.register r).children := by
  induction qs generalizing r with
  | nil => exact List.prefix_rfl
  | cons q qs ih => exact (q.register_children r).trans (ih _)

/-- Further sub-queries come behind those that are there. -/
theorem ScopeTree.grow_append (tables : List Table) (qs more : List SubQuery) (used : List String) :
    (grow tables qs used).1.GrowsTo (grow tables (qs ++ more) used).1 where
  level := rfl
  children := by
    simp only [grow, ScopeTree.children, List.foldl_append]
    exact Registry.foldl_children more _

end SqlCompose
