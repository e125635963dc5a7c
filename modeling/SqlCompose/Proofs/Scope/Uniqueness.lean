import SqlCompose.Proofs.Scope.Freshness
import SqlCompose.Proofs.Scope.Registration

/-! No two table references of a statement share an alias, however deep the levels are that
introduce them. The names in use after a level are those before it and the aliases given since. -/

namespace SqlCompose

namespace ScopeTree

mutual

/-- The table references of all levels of the tree with their aliases. -/
def entries : ScopeTree → Level
  | .node level children => level ++ childEntries children

def childEntries : List (Nat × ScopeTree) → Level
  | [] => []
  | (_, t) :: rest => t.entries ++ childEntries rest

end

theorem childEntries_append (as bs : List (Nat × ScopeTree)) :
    childEntries (as ++ bs) = childEntries as ++ childEntries bs := by
  induction as with
  | nil => rfl
  | cons a as ih => simp [childEntries, ih]

theorem entries_eq (t : ScopeTree) : t.entries = t.level ++ childEntries t.children := by
  cases t
  rfl

end ScopeTree

namespace Level

/-- The aliases of a level as they are compared. -/
def keys (level : Level) : List String := level.map (·.2.key)

@[simp] theorem keys_nil : keys [] = [] := rfl

@[simp] theorem keys_append (a b : Level) : keys (a ++ b) = keys a ++ keys b := List.map_append

theorem key_mem_keys {level : Level} {e : Table × Identifier} (h : e ∈ level) :
    e.2.key ∈ level.keys := List.mem_map.mpr ⟨e, h, rfl⟩

theorem introduce_cons_of_mem {t : Table} {level : Level} (h : (level.lookup t).isSome = true)
    (ts : List Table) (used : List String) :
    introduce (t :: ts) level used = introduce ts level used := by
  simp [introduce, h]

theorem introduce_cons_of_not_mem {t : Table} {level : Level}
    (h : ¬ (level.lookup t).isSome = true) (ts : List Table) (used : List String) :
    introduce (t :: ts) level used =
      introduce ts (level ++ [(t, (Alias.next t.definition.name used).1)])
        (Alias.next t.definition.name used).2 := by
  rw [introduce, if_neg h]

end Level

/-- The names in use after aliases were given: those before and the new ones, which are all
different when those before were. -/
structure Extends (before : List String) (given : Level) (after : List String) : Prop where
  perm : after.Perm (given.keys ++ before)
  nodup : before.Nodup → after.Nodup

namespace Extends

theorem refl (used : List String) : Extends used [] used := ⟨.refl _, id⟩

theorem trans {a b c : List String} {x y : Level} (hx : Extends a x b) (hy : Extends b y c) :
    Extends a (x ++ y) c := by
  refine ⟨?_, fun h => hy.nodup (hx.nodup h)⟩
  rw [Level.keys_append, List.append_assoc]
  exact (hy.perm.trans (hx.perm.append_left _)).trans (List.perm_append_comm_assoc _ _ _)

theorem next (t : Table) (used : List String) :
    Extends used [(t, (Alias.next t.definition.name used).1)]
      (Alias.next t.definition.name used).2 := by
  obtain ⟨hfresh, he⟩ := Alias.next_spec t.definition.name used
  rw [he]
  exact ⟨.refl _, fun h => List.nodup_cons.mpr ⟨hfresh, h⟩⟩

theorem introduce (ts : List Table) (level : Level) (used : List String) :
    ∃ given, (Level.introduce ts level used).1 = level ++ given ∧
      Extends used given (Level.introduce ts level used).2 := by
  induction ts generalizing level used with
  | nil => exact ⟨[], by simp [Level.introduce], by simpa [Level.introduce] using refl used⟩
  | cons t ts ih =>
    by_cases h : (level.lookup t).isSome = true
    · rw [Level.introduce_cons_of_mem h]
      exact ih level used
    · rw [Level.introduce_cons_of_not_mem h]
      obtain ⟨given, he, hx⟩ := ih (level ++ [(t, (Alias.next t.definition.name used).1)])
        (Alias.next t.definition.name used).2
      exact ⟨_, by rw [he, List.append_assoc], (next t used).trans hx⟩

end Extends

/-- The levels that one step adds to a registry. -/
theorem SubQuery.register_extends {q : SubQuery}
    (h : ∀ used, Extends used (q.select.scope used).1.entries (q.select.scope used).2)
    (r : Registry) :
    ∃ given, ScopeTree.childEntries (q.register r).children =
      ScopeTree.childEntries r.children ++ given ∧ Extends r.used given (q.register r).used := by
  obtain ⟨id, select⟩ := q
  by_cases hid : (r.children.lookup id).isSome = true
  · exact ⟨[], by simp [register, hid], by simpa [register, hid] using .refl r.used⟩
  · refine ⟨(select.scope r.used).1.entries, ?_, ?_⟩
    · simp [register, hid, ScopeTree.childEntries_append, ScopeTree.childEntries]
    · simpa [register, hid] using h r.used

theorem Registry.foldl_extends {qs : List SubQuery}
    (h : ∀ q ∈ qs, ∀ used, Extends used (q.select.scope used).1.entries (q.select.scope used).2)
    (r : Registry) :
    ∃ given, ScopeTree.childEntries (qs.foldl SubQuery.register r).children =
        ScopeTree.childEntries r.children ++ given ∧
      Extends r.used given (qs.foldl SubQuery.register r).used := by
  induction qs generalizing r with
  | nil => exact ⟨[], by simp, .refl _⟩
  | cons q qs ih =>
    obtain ⟨x, hx, ex⟩ := SubQuery.register_extends (h q List.mem_cons_self) r
    obtain ⟨y, hy, ey⟩ := ih (fun q hq => h q (List.mem_cons_of_mem _ hq)) (q.register r)
    exact ⟨x ++ y, by rw [List.foldl_cons, hy, hx, List.append_assoc], ex.trans ey⟩

namespace ScopeTree

theorem grow_extends {queries : List SubQuery}
    (h : ∀ q ∈ queries, ∀ used,
      Extends used (q.select.scope used).1.entries (q.select.scope used).2)
    (tables : List Table) (used : List String) :
    Extends used (grow tables queries used).1.entries (grow tables queries used).2 := by
  obtain ⟨x, hx, ex⟩ := Extends.introduce tables [] used
  obtain ⟨y, hy, ey⟩ := Registry.foldl_extends h ⟨[], (Level.introduce tables [] used).2⟩
  have he : (grow tables queries used).1.entries = x ++ y := by
    have hlevel : (grow tables queries used).1.level = x := by simpa [grow, level] using hx
    have hchildren : childEntries (grow tables queries used).1.children = y := by
      simpa [grow, children, childEntries] using hy
    rw [entries_eq, hlevel, hchildren]
  rw [he]
  exact ex.trans ey

end ScopeTree

theorem Select.scope_extends (s : Select) (used : List String) :
    Extends used (s.scope used).1.entries (s.scope used).2 := by
  induction s generalizing used with
  | step s ih =>
    rw [scope_eq_grow]
    exact ScopeTree.grow_extends ih s.tables used

namespace ScopeTree

/-- Every two table references of the statement differ in their aliases. -/
def Distinct (t : ScopeTree) : Prop := t.entries.keys.Nodup

theorem distinct_grow (tables : List Table) (queries : List SubQuery) :
    (grow tables queries []).1.Distinct := by
  have h : Extends [] (grow tables queries []).1.entries (grow tables queries []).2 :=
    grow_extends (fun q _ used => q.select.scope_extends used) tables []
  have hp := h.perm
  rw [List.append_nil] at hp
  exact hp.nodup_iff.mp (h.nodup List.nodup_nil)

end ScopeTree

end SqlCompose
