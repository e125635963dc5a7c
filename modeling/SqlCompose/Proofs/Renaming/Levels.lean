import SqlCompose.Proofs.Renaming.Queries
import SqlCompose.Proofs.Scope.Uniqueness

/-! Levels under other identities. A table gets the alias that it had before, because numbers are
only ever compared with one another and an injective renaming keeps every comparison. -/

namespace SqlCompose

theorem lookup_map_injective {α α' β β' : Type} [BEq α] [LawfulBEq α] [BEq α'] [LawfulBEq α']
    {f : α → α'} (hf : Function.Injective f) (g : β → β') (k : α) (xs : List (α × β)) :
    (xs.map (Prod.map f g)).lookup (f k) = (xs.lookup k).map g := by
  induction xs with
  | nil => rfl
  | cons x xs ih =>
    obtain ⟨a, b⟩ := x
    by_cases h : k = a
    · subst h
      simp
    · have hne : f k ≠ f a := fun he => h (hf he)
      have hk : (k == a) = false := beq_eq_false_iff_ne.mpr h
      have hfk : (f k == f a) = false := beq_eq_false_iff_ne.mpr hne
      simp only [List.map_cons, Prod.map_apply, List.lookup_cons, hk, hfk, ih]

def Level.rename (ρ : Renaming) (level : Level) : Level := level.map (Prod.map (Table.rename ρ) id)

mutual

def ScopeTree.rename (ρ : Renaming) : ScopeTree → ScopeTree
  | .node level children => .node (level.rename ρ) (ScopeTree.renameAll ρ children)

def ScopeTree.renameAll (ρ : Renaming) : List (Nat × ScopeTree) → List (Nat × ScopeTree)
  | [] => []
  | (id, t) :: children => (ρ.subQuery id, t.rename ρ) :: ScopeTree.renameAll ρ children

end

def Position.rename (ρ : Renaming) (p : Position) : Position :=
  ⟨p.scope.rename ρ, p.outer.map (Level.rename ρ)⟩

def Registry.rename (ρ : Renaming) (r : Registry) : Registry :=
  ⟨ScopeTree.renameAll ρ r.children, r.used⟩

section

variable {ρ : Renaming}

namespace Level

theorem lookup_rename (level : Level) (t : Table) :
    (level.rename ρ).lookup (t.rename ρ) = level.lookup t := by
  rw [rename, lookup_map_injective Table.rename_injective, Option.map_id_apply]

theorem introduce_rename (ts : List Table) (level : Level) (used : List String) :
    introduce (ts.map (Table.rename ρ)) (level.rename ρ) used =
      ((introduce ts level used).1.rename ρ, (introduce ts level used).2) := by
  induction ts generalizing level used with
  | nil => rfl
  | cons t ts ih =>
    rw [List.map_cons]
    by_cases h : (level.lookup t).isSome = true
    · have h' : ((level.rename ρ).lookup (t.rename ρ)).isSome = true := by rwa [lookup_rename]
      rw [introduce_cons_of_mem h, introduce_cons_of_mem h', ih]
    · have h' : ¬((level.rename ρ).lookup (t.rename ρ)).isSome = true := by rwa [lookup_rename]
      have hdefinition : (t.rename ρ).definition = t.definition := rfl
      have hlevel : level.rename ρ ++ [(t.rename ρ, (Alias.next t.definition.name used).1)] =
          Level.rename ρ (level ++ [(t, (Alias.next t.definition.name used).1)]) := by
        simp [rename]
      rw [introduce_cons_of_not_mem h, introduce_cons_of_not_mem h', hdefinition, hlevel, ih]

theorem resolve?_rename (levels : List Level) (t : Table) :
    resolve? (levels.map (Level.rename ρ)) (t.rename ρ) = resolve? levels t := by
  rw [resolve?, resolve?, List.findSome?_map]
  simp only [Function.comp_def, lookup_rename]

end Level

namespace ScopeTree

theorem renameAll_eq_map (children : List (Nat × ScopeTree)) :
    renameAll ρ children = children.map (Prod.map ρ.subQuery (rename ρ)) := by
  induction children with
  | nil => rfl
  | cons c children ih =>
    rw [renameAll, ih]
    rfl

theorem level_rename (t : ScopeTree) : (t.rename ρ).level = t.level.rename ρ := by
  cases t
  rfl

theorem child?_rename (t : ScopeTree) (id : Nat) :
    (t.rename ρ).child? (ρ.subQuery id) = (t.child? id).map (rename ρ) := by
  obtain ⟨level, children⟩ := t
  simp only [child?, rename, ScopeTree.children, renameAll_eq_map]
  exact lookup_map_injective ρ.subQuery_injective _ id children

end ScopeTree

namespace Position

theorem visible_rename (p : Position) :
    (p.rename ρ).visible = p.visible.map (Level.rename ρ) := by
  rw [visible, visible, rename, ScopeTree.level_rename, List.map_cons]

theorem enter?_rename (p : Position) (id : Nat) :
    (p.rename ρ).enter? (ρ.subQuery id) = (p.enter? id).map (rename ρ) := by
  rw [enter?, enter?, visible_rename]
  simp only [rename, ScopeTree.child?_rename, Option.map_map, Function.comp_def]

end Position

/-- A sub-query gets a level under its new number exactly if it gets one under the old. -/
theorem SubQuery.register_rename {q : SubQuery}
    (h : ∀ used, (q.select.rename ρ).scope used =
      ((q.select.scope used).1.rename ρ, (q.select.scope used).2)) (r : Registry) :
    (q.rename ρ).register (r.rename ρ) = (q.register r).rename ρ := by
  obtain ⟨id, select⟩ := q
  obtain ⟨children, used⟩ := r
  have hlookup : (ScopeTree.renameAll ρ children).lookup (ρ.subQuery id) =
      (children.lookup id).map (ScopeTree.rename ρ) := by
    rw [ScopeTree.renameAll_eq_map]
    exact lookup_map_injective ρ.subQuery_injective _ id children
  rw [rename, register, register]
  simp only [Registry.rename, hlookup, Option.isSome_map]
  by_cases hid : (children.lookup id).isSome = true
  · simp only [hid, if_true]
  · simp only [hid, Bool.false_eq_true, if_false, h used, ScopeTree.renameAll_eq_map,
      List.map_append, List.map_cons, List.map_nil, Prod.map_apply]

theorem Registry.foldl_rename {qs : List SubQuery}
    (h : ∀ q ∈ qs, ∀ used, (q.select.rename ρ).scope used =
      ((q.select.scope used).1.rename ρ, (q.select.scope used).2)) (r : Registry) :
    (qs.map (SubQuery.rename ρ)).foldl SubQuery.register (r.rename ρ) =
      (qs.foldl SubQuery.register r).rename ρ := by
  induction qs generalizing r with
  | nil => rfl
  | cons q qs ih =>
    rw [List.map_cons, List.foldl_cons, List.foldl_cons,
      SubQuery.register_rename (h q List.mem_cons_self),
      ih fun q hq => h q (List.mem_cons_of_mem _ hq)]

theorem ScopeTree.grow_rename_of {qs : List SubQuery}
    (h : ∀ q ∈ qs, ∀ used, (q.select.rename ρ).scope used =
      ((q.select.scope used).1.rename ρ, (q.select.scope used).2)) (tables : List Table)
    (used : List String) :
    grow (tables.map (Table.rename ρ)) (qs.map (SubQuery.rename ρ)) used =
      ((grow tables qs used).1.rename ρ, (grow tables qs used).2) := by
  have hlevel : Level.introduce (tables.map (Table.rename ρ)) [] used =
      ((Level.introduce tables [] used).1.rename ρ, (Level.introduce tables [] used).2) :=
    Level.introduce_rename tables [] used
  have hchildren : ∀ used, (qs.map (SubQuery.rename ρ)).foldl SubQuery.register ⟨[], used⟩ =
      (qs.foldl SubQuery.register ⟨[], used⟩).rename ρ := fun used =>
    Registry.foldl_rename h ⟨[], used⟩
  simp only [grow, hlevel, hchildren]
  rfl

theorem Select.scope_rename (s : Select) (used : List String) :
    (s.rename ρ).scope used = ((s.scope used).1.rename ρ, (s.scope used).2) := by
  induction s generalizing used with
  | step s ih =>
    rw [scope_eq_grow, scope_eq_grow, tables_rename, subQueries_rename]
    exact ScopeTree.grow_rename_of ih s.tables used

theorem ScopeTree.ofSelect_rename (s : Select) : ofSelect (s.rename ρ) = (ofSelect s).rename ρ :=
  congrArg Prod.fst (s.scope_rename [])

theorem ScopeTree.ofTarget_rename (target : Table) (qs : List SubQuery) :
    ofTarget (target.rename ρ) (qs.map (SubQuery.rename ρ)) = (ofTarget target qs).rename ρ :=
  congrArg Prod.fst (grow_rename_of (fun q _ => q.select.scope_rename) [target] [])

end

end SqlCompose
