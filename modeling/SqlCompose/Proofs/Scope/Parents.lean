import Mathlib.Data.List.Nodup
import SqlCompose.Proofs.Scope.Levels
import SqlCompose.Proofs.Scope.Numbering

/-! Looking up by number. The numbers fall from a level to the one around it, so that a walk outwards
ends, and on its way it meets the levels that composing sees. -/

namespace SqlCompose

namespace ScopeTable

structure Ordered (T : ScopeTable) : Prop where
  injective : ∀ {p p' id id' n : Nat}, T.scopeOf p id = some n → T.scopeOf p' id' = some n →
    p = p' ∧ id = id'
  parent : ∀ {p id n : Nat}, T.scopeOf p id = some n → T.parent? n = some p
  smaller : ∀ {p n : Nat}, T.parent? n = some p → p < n

/-- The walk outwards needs no look at the numbers. -/
theorem Ordered.resolve_eq {T : ScopeTable} (h : T.Ordered) (n : Nat) (x : Table) :
    T.resolve n x = (T.local? n x).or ((T.parent? n).bind (T.resolve · x)) := by
  rw [resolve]
  cases T.local? n x with
  | some name => rfl
  | none =>
    cases hp : T.parent? n with
    | none => rfl
    | some p => simp [h.smaller hp]

/-- What is read at a number is what is read at a position. -/
structure Agrees (T : ScopeTable) (n : Nat) (p : Position) : Prop where
  scopeOf : ∀ id, (T.scopeOf n id).isSome = (p.enter? id).isSome
  local_ : ∀ x, T.local? n x = p.scope.level.lookup x
  visible : ∀ x, T.resolve n x = Level.resolve? p.visible x
  outer : ∀ x, (T.parent? n).bind (T.resolve · x) = Level.resolve? p.outer x

end ScopeTable

namespace Position

theorem enter?_eq_some_iff {p below : Position} {id : Nat} :
    p.enter? id = some below ↔
      ∃ child, p.scope.child? id = some child ∧ ⟨child, p.visible⟩ = below := by
  rw [enter?, Option.map_eq_some_iff]

theorem resolve?_visible (p : Position) (x : Table) :
    Level.resolve? p.visible x = (p.scope.level.lookup x).or (Level.resolve? p.outer x) := by
  rw [visible, Level.resolve?, List.findSome?_cons]
  cases p.scope.level.lookup x <;> rfl

end Position

namespace ScopeTree

theorem link_at {t : ScopeTree} {k : Nat} {l : (Nat × Nat) × Nat}
    (h : (t.links 0)[k]? = some l) : l.2 = k + 1 ∧ t.table.parent? (k + 1) = some l.1.1 := by
  have hsnd : ((t.links 0).map Prod.snd)[k]? = some l.2 := by rw [List.getElem?_map, h]; rfl
  have hnumber : (List.range' 0 t.size)[k + 1]? = some l.2 := by
    rw [← map_snd_links, List.getElem?_cons_succ, hsnd]
  have hparent : ((t.scopes none 0).map Scope.parent)[k + 1]? = some (some l.1.1) := by
    rw [map_parent_scopes, List.getElem?_cons_succ, List.getElem?_map, h]
    rfl
  constructor
  · have := (List.getElem?_eq_some_iff.mp hnumber).2
    rw [List.getElem_range'] at this
    omega
  · rw [List.getElem?_map, Option.map_eq_some_iff] at hparent
    obtain ⟨s, hs, hp⟩ := hparent
    rw [ScopeTable.parent?, table, hs, Option.bind_some, hp]

theorem mem_links_of_scopeOf {t : ScopeTree} {p id n : Nat} (h : t.table.scopeOf p id = some n) :
    ((p, id), n) ∈ t.links 0 := mem_of_lookup h

theorem table_ordered (t : ScopeTree) : t.table.Ordered where
  injective {p p' id id' n} h h' := by
    have hrange : (0 :: (t.links 0).map Prod.snd).Nodup := by
      rw [map_snd_links]
      exact List.nodup_range'
    have he := List.inj_on_of_nodup_map hrange.of_cons (mem_links_of_scopeOf h)
      (mem_links_of_scopeOf h') rfl
    simpa using he
  parent {p id n} h := by
    obtain ⟨k, hk⟩ := List.getElem?_of_mem (mem_links_of_scopeOf h)
    obtain ⟨hn, hp⟩ := link_at hk
    obtain rfl : n = k + 1 := hn
    exact hp
  smaller {p n} h := by
    obtain ⟨s, hs, hp⟩ := Option.bind_eq_some_iff.mp h
    have hparent : ((t.scopes none 0).map Scope.parent)[n]? = some (some p) := by
      rw [List.getElem?_map, show (t.scopes none 0)[n]? = some s from hs, Option.map_some, hp]
    rw [map_parent_scopes] at hparent
    cases n with
    | zero => simp at hparent
    | succ k =>
      rw [List.getElem?_cons_succ, List.getElem?_map, Option.map_eq_some_iff] at hparent
      obtain ⟨l, hl, hlp⟩ := hparent
      have hrange := link_range (List.mem_of_getElem? hl)
      have hsnd := (link_at hl).1
      simp only [Option.some.injEq] at hlp
      omega

/-- The levels of a tree under their numbers, each with the way that composing takes to it. -/
inductive Stands (t : ScopeTree) : Nat → Position → Prop where
  | root : Stands t 0 (.root t)
  | inside {n m id : Nat} {p below : Position} (h : t.Stands n p)
      (hn : t.table.scopeOf n id = some m) (hp : p.enter? id = some below) : t.Stands m below

theorem parent?_zero (t : ScopeTree) : t.table.parent? 0 = none := by
  cases t
  rfl

theorem Stands.numbered {t : ScopeTree} {n : Nat} {p : Position} (h : t.Stands n p) :
    p.scope.NumberedIn t.table n ∧
      ∀ x, (t.table.parent? n).bind (t.table.resolve · x) = Level.resolve? p.outer x := by
  induction h with
  | root => exact ⟨numberedIn_table t, fun x => by rw [parent?_zero]; rfl⟩
  | @inside n m id p below h hn hp ih =>
    obtain ⟨hnumbered, houter⟩ := ih
    obtain ⟨child, hchild, rfl⟩ := Position.enter?_eq_some_iff.mp hp
    obtain ⟨m', hm', hbelow, hparent, _⟩ := hnumbered.exists_scopeOf hchild
    obtain rfl : m = m' := Option.some.inj (hn.symm.trans hm')
    refine ⟨hbelow, fun x => ?_⟩
    rw [hparent, Option.bind_some, t.table_ordered.resolve_eq, houter, hnumbered.local?,
      p.resolve?_visible]

theorem Stands.agrees {t : ScopeTree} {n : Nat} {p : Position} (h : t.Stands n p) :
    t.table.Agrees n p where
  scopeOf id := by
    cases hc : p.scope.child? id with
    | none =>
      rw [h.numbered.1.scopeOf_eq_none hc, Position.enter?, hc]
      rfl
    | some child =>
      obtain ⟨m, hm, _⟩ := h.numbered.1.exists_scopeOf hc
      rw [hm, Position.enter?, hc]
      rfl
  local_ := h.numbered.1.local?
  visible x := by
    rw [t.table_ordered.resolve_eq, h.numbered.2, h.numbered.1.local?, p.resolve?_visible]
  outer := h.numbered.2

end ScopeTree

end SqlCompose
