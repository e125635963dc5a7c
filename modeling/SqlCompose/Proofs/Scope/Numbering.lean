import SqlCompose.Proofs.Scope.Uniqueness

/-! The levels of a statement in a table. They are numbered in the order in which they get their
aliases, each with the number of the level around it, so that a name is looked up by following
numbers outwards. -/

namespace SqlCompose

/-- A level with the number of the level around it. -/
structure Scope where
  parent : Option Nat
  level : Level

/-- The levels by number, and by its own number the level of each sub-query that a level mentions. -/
structure ScopeTable where
  scopes : List Scope
  links : List ((Nat × Nat) × Nat)

namespace ScopeTable

def scopeOf (T : ScopeTable) (parent id : Nat) : Option Nat := T.links.lookup (parent, id)

def parent? (T : ScopeTable) (n : Nat) : Option Nat := T.scopes[n]?.bind (·.parent)

def local? (T : ScopeTable) (n : Nat) (t : Table) : Option Identifier :=
  T.scopes[n]?.bind (·.level.lookup t)

/-- The alias that the table has at the level or at the nearest level around it. The numbers have to
fall on the way. -/
def resolve (T : ScopeTable) (n : Nat) (t : Table) : Option Identifier :=
  match T.local? n t with
  | some name => some name
  | none =>
    match T.parent? n with
    | some p => if p < n then T.resolve p t else none
    | none => none

end ScopeTable

namespace ScopeTree

mutual

def size : ScopeTree → Nat
  | .node _ children => sizeAll children + 1

def sizeAll : List (Nat × ScopeTree) → Nat
  | [] => 0
  | (_, t) :: rest => t.size + sizeAll rest

end

mutual

/-- The levels of a tree whose outermost level has the number `n`. -/
def scopes (parent : Option Nat) (n : Nat) : ScopeTree → List Scope
  | .node level children => ⟨parent, level⟩ :: childScopes n (n + 1) children

def childScopes (parent next : Nat) : List (Nat × ScopeTree) → List Scope
  | [] => []
  | (_, t) :: rest => t.scopes (some parent) next ++ childScopes parent (next + t.size) rest

end

mutual

def links (n : Nat) : ScopeTree → List ((Nat × Nat) × Nat)
  | .node _ children => childLinks n (n + 1) children

def childLinks (parent next : Nat) : List (Nat × ScopeTree) → List ((Nat × Nat) × Nat)
  | [] => []
  | (id, t) :: rest =>
    ((parent, id), next) :: t.links next ++ childLinks parent (next + t.size) rest

end

def table (t : ScopeTree) : ScopeTable := ⟨t.scopes none 0, t.links 0⟩

mutual

theorem length_scopes (parent : Option Nat) (n : Nat) :
    ∀ t : ScopeTree, (t.scopes parent n).length = t.size
  | .node level children => by rw [scopes, List.length_cons, length_childScopes, size]

theorem length_childScopes (parent next : Nat) :
    ∀ children, (childScopes parent next children).length = sizeAll children
  | [] => rfl
  | (_, t) :: rest => by
    rw [childScopes, List.length_append, length_scopes, length_childScopes, sizeAll]

end

theorem size_pos (t : ScopeTree) : 0 < t.size := by
  cases t
  exact Nat.succ_pos _

mutual

theorem flatten_scopes (parent : Option Nat) (n : Nat) :
    ∀ t : ScopeTree, ((t.scopes parent n).map Scope.level).flatten = t.entries
  | .node level children => by
    rw [scopes, List.map_cons, List.flatten_cons, flatten_childScopes, entries]

theorem flatten_childScopes (parent next : Nat) :
    ∀ children, ((childScopes parent next children).map Scope.level).flatten =
      childEntries children
  | [] => rfl
  | (_, t) :: rest => by
    rw [childScopes, List.map_append, List.flatten_append, flatten_scopes, flatten_childScopes,
      childEntries]

end

mutual

/-- Every level but the outermost has its link, and there its parent. -/
theorem map_parent_scopes (parent : Option Nat) (n : Nat) :
    ∀ t : ScopeTree, (t.scopes parent n).map Scope.parent =
      parent :: (t.links n).map fun l => some l.1.1
  | .node level children => by rw [scopes, List.map_cons, map_parent_childScopes, links]

theorem map_parent_childScopes (parent next : Nat) :
    ∀ children, (childScopes parent next children).map Scope.parent =
      (childLinks parent next children).map fun l => some l.1.1
  | [] => rfl
  | (id, t) :: rest => by
    rw [childScopes, List.map_append, map_parent_scopes, map_parent_childScopes, childLinks,
      List.map_append, List.map_cons]

end

mutual

/-- The links lead to one number after the other. -/
theorem map_snd_links (n : Nat) :
    ∀ t : ScopeTree, n :: (t.links n).map Prod.snd = List.range' n t.size
  | .node level children => by rw [links, map_snd_childLinks, size, List.range'_succ]

theorem map_snd_childLinks (parent next : Nat) :
    ∀ children, (childLinks parent next children).map Prod.snd =
      List.range' next (sizeAll children)
  | [] => rfl
  | (id, t) :: rest => by
    rw [childLinks, List.map_append, List.map_cons, map_snd_links, map_snd_childLinks, sizeAll,
      List.range'_append_1]

end

mutual

theorem link_range {n : Nat} : ∀ {t : ScopeTree} {l : (Nat × Nat) × Nat}, l ∈ t.links n →
    n ≤ l.1.1 ∧ l.1.1 < n + t.size ∧ l.1.1 < l.2
  | .node level children, l, h => by
    have hl := childLink_range (Nat.lt_succ_self n) h
    rw [size]
    omega

theorem childLink_range {parent next : Nat} (hp : parent < next) :
    ∀ {children : List (Nat × ScopeTree)} {l : (Nat × Nat) × Nat},
      l ∈ childLinks parent next children →
        (l.1.1 = parent ∨ next ≤ l.1.1 ∧ l.1.1 < next + sizeAll children) ∧ l.1.1 < l.2
  | (id, t) :: rest, l, h => by
    rw [childLinks, List.cons_append, List.mem_cons, List.mem_append] at h
    rw [sizeAll]
    rcases h with rfl | h | h
    · exact ⟨.inl rfl, hp⟩
    · have hl := link_range h
      omega
    · have hl := childLink_range (Nat.lt_add_right t.size hp) h
      omega

end

theorem lookup_eq_none_of_range {ls : List ((Nat × Nat) × Nat)} {p id : Nat}
    (h : ∀ l ∈ ls, l.1.1 ≠ p) : ls.lookup (p, id) = none := by
  refine List.lookup_eq_none_iff.mpr fun l hl => bne_iff_ne.mpr fun he => ?_
  exact h l hl (by rw [← he])

/-- The links of a tree start from its own numbers. -/
theorem lookup_links_eq_none {t : ScopeTree} {n p : Nat} (h : p < n ∨ n + t.size ≤ p) (id : Nat) :
    (t.links n).lookup (p, id) = none :=
  lookup_eq_none_of_range fun l hl => by
    have := link_range hl
    omega

theorem lookup_childLinks_cons {parent next p k id : Nat} {t : ScopeTree}
    {rest : List (Nat × ScopeTree)} (hne : (p, id) ≠ (parent, k)) :
    (childLinks parent next ((k, t) :: rest)).lookup (p, id) =
      ((t.links next).lookup (p, id)).or
        ((childLinks parent (next + t.size) rest).lookup (p, id)) := by
  rw [childLinks, List.cons_append, List.lookup_cons, beq_false_of_ne hne, List.lookup_append]

theorem lookup_childLinks_eq_none {parent next id : Nat} {children : List (Nat × ScopeTree)}
    (hp : parent < next) (h : children.lookup id = none) :
    (childLinks parent next children).lookup (parent, id) = none := by
  induction children generalizing next with
  | nil => rfl
  | cons c rest ih =>
    obtain ⟨k, t⟩ := c
    have hid : id ≠ k := fun he => by simp [he] at h
    have hrest : rest.lookup id = none := by
      rwa [List.lookup_cons, beq_false_of_ne hid] at h
    rw [lookup_childLinks_cons (by simpa using hid), lookup_links_eq_none (.inl hp),
      ih (by omega) hrest, Option.or_none]

/-- The tree stands in the table with its outermost level under the number `n`. -/
structure NumberedIn (T : ScopeTable) (n : Nat) (t : ScopeTree) : Prop where
  stands : ∃ parent, ∀ i s, (t.scopes parent n)[i]? = some s → T.scopes[n + i]? = some s
  linked : ∀ p id, n ≤ p → p < n + t.size → T.links.lookup (p, id) = (t.links n).lookup (p, id)

theorem numberedIn_table (t : ScopeTree) : t.NumberedIn t.table 0 where
  stands := ⟨none, fun i s h => by rwa [Nat.zero_add]⟩
  linked _ _ _ _ := rfl

/-- A level below stands under the number that the link to it has. -/
theorem exists_childLink {parent next id : Nat} {child : ScopeTree}
    {children : List (Nat × ScopeTree)} (hp : parent < next)
    (h : children.lookup id = some child) :
    ∃ m, next ≤ m ∧ m + child.size ≤ next + sizeAll children ∧
      (childLinks parent next children).lookup (parent, id) = some m ∧
      (∀ p i, m ≤ p → p < m + child.size →
        (childLinks parent next children).lookup (p, i) = (child.links m).lookup (p, i)) ∧
      ∀ i s, (child.scopes (some parent) m)[i]? = some s →
        (childScopes parent next children)[m - next + i]? = some s := by
  induction children generalizing next with
  | nil => simp at h
  | cons c rest ih =>
    obtain ⟨k, t⟩ := c
    rw [sizeAll]
    by_cases hid : id = k
    · -- The links behind the first child start from other numbers than its own.
      obtain rfl : t = child := by simpa [List.lookup_cons, hid] using h
      refine ⟨next, Nat.le_refl _, by omega, ?_, fun p i hle hlt => ?_, fun i s hs => ?_⟩
      · rw [hid, childLinks, List.cons_append, List.lookup_cons_self]
      · have hrest : (childLinks parent (next + t.size) rest).lookup (p, i) = none :=
          lookup_eq_none_of_range fun l hl => by
            have := (childLink_range (Nat.lt_add_right t.size hp) hl).1
            omega
        rw [lookup_childLinks_cons (by simp; omega), hrest, Option.or_none]
      · have hi : i < (t.scopes (some parent) next).length :=
          (List.getElem?_eq_some_iff.mp hs).1
        rw [childScopes, Nat.sub_self, Nat.zero_add, List.getElem?_append_left hi, hs]
    · -- The links of the first child start from smaller numbers than those of the wanted one.
      have hrest : rest.lookup id = some child := by
        rwa [List.lookup_cons, beq_false_of_ne hid] at h
      obtain ⟨m, hm, hsize, hlookup, hlinks, hscopes⟩ :=
        ih (Nat.lt_add_right t.size hp) hrest
      refine ⟨m, by omega, by omega, ?_, fun p i hle hlt => ?_, fun i s hs => ?_⟩
      · rw [lookup_childLinks_cons (by simpa using hid), lookup_links_eq_none (.inl hp),
          Option.none_or, hlookup]
      · have hbehind : next + t.size ≤ p := Nat.le_trans hm hle
        rw [lookup_childLinks_cons (by simp; omega), lookup_links_eq_none (.inr hbehind),
          Option.none_or, hlinks p i hle hlt]
      · have hi : m - next + i - t.size = m - (next + t.size) + i := by omega
        rw [childScopes, List.getElem?_append_right (by rw [length_scopes]; omega), length_scopes,
          hi, hscopes i s hs]

namespace NumberedIn

variable {T : ScopeTable} {n : Nat} {t : ScopeTree}

theorem exists_scope (h : t.NumberedIn T n) : ∃ s, T.scopes[n]? = some s ∧ s.level = t.level := by
  obtain ⟨parent, hs⟩ := h.stands
  cases t with
  | node level children => exact ⟨⟨parent, level⟩, hs 0 _ rfl, rfl⟩

theorem local? (h : t.NumberedIn T n) (x : Table) : T.local? n x = t.level.lookup x := by
  obtain ⟨s, hs, hl⟩ := h.exists_scope
  rw [ScopeTable.local?, hs, Option.bind_some, hl]

theorem scopeOf_eq (h : t.NumberedIn T n) (id : Nat) :
    T.scopeOf n id = (t.links n).lookup (n, id) :=
  h.linked n id (Nat.le_refl n) (Nat.lt_add_of_pos_right t.size_pos)

theorem scopeOf_eq_none (h : t.NumberedIn T n) {id : Nat} (hid : t.child? id = none) :
    T.scopeOf n id = none := by
  rw [h.scopeOf_eq]
  cases t with
  | node level children => exact lookup_childLinks_eq_none (Nat.lt_succ_self n) hid

theorem exists_scopeOf (h : t.NumberedIn T n) {id : Nat} {child : ScopeTree}
    (hid : t.child? id = some child) :
    ∃ m, T.scopeOf n id = some m ∧ child.NumberedIn T m ∧ T.parent? m = some n ∧ n < m := by
  obtain ⟨parent, hs⟩ := h.stands
  have hscope := h.scopeOf_eq id
  have hlinked := h.linked
  cases t with
  | node level children =>
    have hid : children.lookup id = some child := hid
    obtain ⟨m, hm, hsize, hlookup, hbelow, hscopes⟩ := exists_childLink (Nat.lt_add_one n) hid
    have hall : ∀ i s, (child.scopes (some n) m)[i]? = some s → T.scopes[m + i]? = some s := by
      intro i s hi
      have hs := hs (m - (n + 1) + i + 1) s
      rw [scopes, List.getElem?_cons_succ] at hs
      rw [← hs (hscopes i s hi)]
      congr 1
      omega
    refine ⟨m, hscope.trans hlookup, ⟨⟨some n, hall⟩, fun p i hle hlt => ?_⟩, ?_, by omega⟩
    · rw [size] at hlinked
      rw [hlinked p i (by omega) (by omega), links, hbelow p i hle hlt]
    · cases child with
      | node inner below =>
        have hm : T.scopes[m]? = some ⟨some n, inner⟩ := hall 0 ⟨some n, inner⟩ rfl
        rw [ScopeTable.parent?, hm, Option.bind_some]

end NumberedIn

end ScopeTree

end SqlCompose
