import Mathlib.Data.List.Nodup
import SqlCompose.Proofs.Scope.Levels
import SqlCompose.Proofs.Scope.Uniqueness
import SqlCompose.Sql.Tree

/-! The levels on the path from a position to the root, searched in two ways: for the nearest level
that introduces a table, as queries name columns, and for the innermost level that declares an
alias, as a database reads them. -/

namespace SqlCompose

namespace Level

/-- The depth of the innermost level that declares the alias, however its letters are cased, with
the table that goes by it there. -/
def search? (name : Identifier) : List Level → Option (Nat × Table)
  | [] => none
  | level :: outer =>
    match level.find? fun e => e.2.key = name.key with
    | some e => some (0, e.1)
    | none => (search? name outer).map fun (depth, t) => (depth + 1, t)

theorem exists_resolve?_iff {levels : List Level} {t : Table} :
    (∃ name, resolve? levels t = some name) ↔ ∃ level ∈ levels, t ∈ level.map Prod.fst := by
  rw [← Option.isSome_iff_exists, resolve?, List.findSome?_isSome_iff]
  simp only [lookup_isSome_iff]

theorem exists_depth_of_resolve? {levels : List Level} {t : Table} {name : Identifier}
    (h : resolve? levels t = some name) :
    ∃ (depth : Nat) (level : Level), levels[depth]? = some level ∧ (t, name) ∈ level ∧
      ∀ i < depth, ∀ l : Level, levels[i]? = some l → t ∉ l.map Prod.fst := by
  induction levels with
  | nil => simp [resolve?] at h
  | cons level outer ih =>
    cases hl : level.lookup t with
    | some found =>
      have hn : found = name := by simpa [resolve?, hl] using h
      refine ⟨0, level, rfl, mem_of_lookup (hn ▸ hl), fun i hi => ?_⟩
      omega
    | none =>
      have h : resolve? outer t = some name := by simpa [resolve?, hl] using h
      obtain ⟨depth, l, hd, hm, hbefore⟩ := ih h
      refine ⟨depth + 1, l, hd, hm, fun i hi x hx => ?_⟩
      cases i with
      | zero =>
        have hx : level = x := by simpa using hx
        intro ht
        obtain ⟨e, he, rfl⟩ := List.mem_map.mp ht
        have := List.lookup_eq_none_iff.mp hl e (hx ▸ he)
        simp at this
      | succ i => exact hbefore i (by omega) x hx

/-- Where all aliases differ, each of them is declared once. -/
theorem eq_of_key_eq {levels : List Level} (h : (keys levels.flatten).Nodup) {i j : Nat}
    {a b : Level} (ha : levels[i]? = some a) (hb : levels[j]? = some b) {x y : Table × Identifier}
    (hx : x ∈ a) (hy : y ∈ b) (hxy : x.2.key = y.2.key) : i = j ∧ x = y := by
  rw [keys, List.map_flatten, List.nodup_flatten] at h
  obtain ⟨hlevel, hdisjoint⟩ := h
  obtain ⟨hi, rfl⟩ := List.getElem?_eq_some_iff.mp ha
  obtain ⟨hj, rfl⟩ := List.getElem?_eq_some_iff.mp hb
  have hxk : x.2.key ∈ keys levels[i] := key_mem_keys hx
  have hyk : x.2.key ∈ keys levels[j] := hxy ▸ key_mem_keys hy
  -- the keys of two levels have nothing in common
  have hij : i = j := by
    have hp := List.pairwise_iff_getElem.mp hdisjoint
    rcases Nat.lt_trichotomy i j with hlt | heq | hgt
    · have := hp i j (by simpa using hi) (by simpa using hj) hlt
      simp only [List.getElem_map] at this
      exact absurd hyk (this hxk)
    · exact heq
    · have := hp j i (by simpa using hj) (by simpa using hi) hgt
      simp only [List.getElem_map] at this
      exact absurd hxk (this hyk)
  subst hij
  have hnd : (levels[i].map fun e => e.2.key).Nodup :=
    hlevel _ (List.mem_map_of_mem (List.getElem_mem hi))
  exact ⟨rfl, List.inj_on_of_nodup_map hnd hx hy hxy⟩

theorem search?_eq_some {levels : List Level} {name : Identifier} {depth : Nat} {t : Table}
    {level : Level} (hd : levels[depth]? = some level) (hm : (t, name) ∈ level)
    (honly : ∀ i l e, levels[i]? = some l → e ∈ l → e.2.key = name.key →
      i = depth ∧ e = (t, name)) :
    search? name levels = some (depth, t) := by
  induction levels generalizing depth with
  | nil => simp at hd
  | cons first outer ih =>
    unfold search?
    cases hf : first.find? fun e => e.2.key = name.key with
    | some e =>
      -- whatever is found first has the alias, and nothing else has it
      have hkey : e.2.key = name.key := by simpa using List.find?_some hf
      obtain ⟨hz, he⟩ := honly 0 first e rfl (List.mem_of_find?_eq_some hf) hkey
      simp [← hz, he]
    | none =>
      cases depth with
      | zero =>
        have hfirst : first = level := by simpa using hd
        have := List.find?_eq_none.mp hf (t, name) (hfirst ▸ hm)
        simp at this
      | succ depth =>
        have hrest := ih hd fun i l e hl he hk => by
          obtain ⟨hi, he⟩ := honly (i + 1) l e hl he hk
          exact ⟨by omega, he⟩
        simp [hrest]

end Level

/-- The target of a statement is seen from its outermost level. -/
theorem Position.exists_resolve?_ofTarget (target : Table) (qs : List SubQuery) :
    ∃ name, Level.resolve? (root (.ofTarget target qs)).visible target = some name := by
  have htables : (ScopeTree.ofTarget target qs).level.map Prod.fst = [target] :=
    ScopeTree.grow_tables (List.nodup_singleton target) qs []
  refine Level.exists_resolve?_iff.mpr ⟨_, List.mem_cons_self, ?_⟩
  rw [root, htables]
  exact List.mem_singleton_self target

namespace Sql.ColumnName

/-- From which depth on the column is looked up. -/
def start (n : ColumnName) : Nat := if n.outer then 1 else 0

/-- The level at this depth is the one that the column belongs to. -/
structure Denotes (n : ColumnName) (levels : List Level) (depth : Nat) : Prop where
  visible : n.start ≤ depth
  declared : ∃ level, levels[depth]? = some level ∧ (n.column.table, n.qualifier) ∈ level
  nearest : ∀ i, n.start ≤ i → i < depth → ∀ level : Level, levels[i]? = some level →
    n.column.table ∉ level.map Prod.fst
  only : ∀ i level e, levels[i]? = some level → e ∈ level → e.2.key = n.qualifier.key →
    i = depth ∧ e = (n.column.table, n.qualifier)
  found : Level.search? n.qualifier levels = some (depth, n.column.table)

theorem exists_denotes {n : ColumnName} {levels : List Level}
    (hdistinct : (Level.keys levels.flatten).Nodup)
    (h : Level.resolve? (levels.drop n.start) n.column.table = some n.qualifier) :
    ∃ depth, n.Denotes levels depth := by
  obtain ⟨k, level, hk, hm, hbefore⟩ := Level.exists_depth_of_resolve? h
  rw [List.getElem?_drop] at hk
  have honly : ∀ i l e, levels[i]? = some l → e ∈ l → e.2.key = n.qualifier.key →
      i = n.start + k ∧ e = (n.column.table, n.qualifier) := fun i l e hl he hkey =>
    Level.eq_of_key_eq hdistinct hl hk he hm hkey
  refine ⟨n.start + k, by omega, ⟨level, hk, hm⟩, fun i hi hlt l hl => ?_, honly,
    Level.search?_eq_some hk hm honly⟩
  refine hbefore (i - n.start) (by omega) l ?_
  rw [List.getElem?_drop, show n.start + (i - n.start) = i by omega]
  exact hl

end Sql.ColumnName

end SqlCompose
