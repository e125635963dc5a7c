import SqlCompose.Proofs.Scope.Parents
import SqlCompose.Proofs.Scope.Visibility

/-! Every level of a statement under its number, with the tables and sub-queries that it was made
for. Its tables have one alias each, and no two levels share any. -/

namespace SqlCompose

theorem Level.introduce_once {ts : List Table} {level : Level} (hnd : (level.map Prod.fst).Nodup)
    (used : List String) :
    ((introduce ts level used).1.map Prod.fst).Nodup ∧
      ∀ x, x ∈ (introduce ts level used).1.map Prod.fst ↔ x ∈ level.map Prod.fst ∨ x ∈ ts := by
  induction ts generalizing level used with
  | nil => exact ⟨hnd, fun x => by simp [introduce]⟩
  | cons t ts ih =>
    by_cases h : (level.lookup t).isSome = true
    · rw [introduce_cons_of_mem h]
      obtain ⟨hnodup, hmem⟩ := ih hnd used
      have ht : t ∈ level.map Prod.fst := lookup_isSome_iff.mp h
      refine ⟨hnodup, fun x => ?_⟩
      rw [hmem, List.mem_cons]
      constructor
      · rintro (hx | hx)
        · exact .inl hx
        · exact .inr (.inr hx)
      · rintro (hx | rfl | hx)
        · exact .inl hx
        · exact .inl ht
        · exact .inr hx
    · rw [introduce_cons_of_not_mem h]
      have ht : t ∉ level.map Prod.fst := fun hmem => h (lookup_isSome_iff.mpr hmem)
      obtain ⟨hnodup, hmem⟩ := ih (nodup_keys_append (Alias.next t.definition.name used).1 hnd ht)
        (Alias.next t.definition.name used).2
      refine ⟨hnodup, fun x => ?_⟩
      rw [hmem, List.map_append, List.mem_append, List.map_cons, List.map_nil,
        List.mem_singleton, List.mem_cons, or_assoc]

namespace ScopeTree

/-- Below each level a number of a sub-query stands once. -/
inductive Tidy : ScopeTree → Prop where
  | node {level : Level} {children : List (Nat × ScopeTree)} (ids : (children.map Prod.fst).Nodup)
      (below : ∀ c ∈ children, c.2.Tidy) : Tidy (.node level children)

/-- The links from one level lead to the sub-queries that it mentions. -/
theorem mem_children_of_childLink {parent next : Nat} (hp : parent < next)
    {children : List (Nat × ScopeTree)} {l : (Nat × Nat) × Nat}
    (h : l ∈ childLinks parent next children) (hl : l.1.1 = parent) :
    l.1.2 ∈ children.map Prod.fst := by
  induction children generalizing next with
  | nil => simp [childLinks] at h
  | cons c rest ih =>
    obtain ⟨id, t⟩ := c
    rw [childLinks, List.cons_append, List.mem_cons, List.mem_append] at h
    rcases h with rfl | h | h
    · exact List.mem_cons_self
    · have := link_range h
      omega
    · exact List.mem_cons_of_mem _ (ih (Nat.lt_add_right t.size hp) h)

mutual

theorem nodup_links (n : Nat) : ∀ {t : ScopeTree}, t.Tidy → ((t.links n).map Prod.fst).Nodup
  | .node level children, h => by
    cases h with
    | node ids below => exact nodup_childLinks (Nat.lt_add_one n) ids below

theorem nodup_childLinks {parent next : Nat} (hp : parent < next) :
    ∀ {children : List (Nat × ScopeTree)}, (children.map Prod.fst).Nodup →
      (∀ c ∈ children, c.2.Tidy) → ((childLinks parent next children).map Prod.fst).Nodup
  | [], _, _ => List.nodup_nil
  | (id, t) :: rest, hids, hbelow => by
    have hids := List.nodup_cons.mp hids
    have hnext := Nat.lt_add_right t.size hp
    have ht := nodup_links next (hbelow (id, t) List.mem_cons_self)
    have hrest := nodup_childLinks hnext hids.2 fun c hc => hbelow c (List.mem_cons_of_mem _ hc)
    rw [childLinks, List.cons_append, List.map_cons, List.map_append, List.nodup_cons,
      List.nodup_append]
    -- the links of a child start from its own range of numbers, which no other child shares
    refine ⟨fun hmem => ?_, ht, hrest, fun a ha b hb hab => ?_⟩
    · rcases List.mem_append.mp hmem with hmem | hmem
      · obtain ⟨l, hl, he⟩ := List.mem_map.mp hmem
        have := link_range hl
        rw [he] at this
        simp only at this
        omega
      · obtain ⟨l, hl, he⟩ := List.mem_map.mp hmem
        have hmem := mem_children_of_childLink hnext hl (by rw [he])
        rw [he] at hmem
        exact hids.1 hmem
    · obtain ⟨l, hl, rfl⟩ := List.mem_map.mp ha
      obtain ⟨l', hl', rfl⟩ := List.mem_map.mp hb
      have := link_range hl
      have := childLink_range hnext hl'
      rw [hab] at *
      omega

end

end ScopeTree

structure Registry.Tidy (r : Registry) : Prop where
  ids : (r.children.map Prod.fst).Nodup
  below : ∀ c ∈ r.children, c.2.Tidy

theorem Registry.Tidy.register {r : Registry} (h : r.Tidy) {q : SubQuery}
    (hq : ∀ used, (q.select.scope used).1.Tidy) : (q.register r).Tidy := by
  obtain ⟨id, select⟩ := q
  by_cases hid : (r.children.lookup id).isSome = true
  · simpa [SubQuery.register, hid] using h
  · have hnew : id ∉ r.children.map Prod.fst := fun hmem => hid (lookup_isSome_iff.mpr hmem)
    have he : (SubQuery.register r ⟨id, select⟩).children =
        r.children ++ [(id, (select.scope r.used).1)] := by simp [SubQuery.register, hid]
    constructor
    · rw [he]
      exact nodup_keys_append _ h.ids hnew
    · intro c hc
      rw [he, List.mem_append, List.mem_singleton] at hc
      rcases hc with hc | rfl
      · exact h.below c hc
      · exact hq r.used

theorem Registry.Tidy.foldl {qs : List SubQuery} (hqs : ∀ q ∈ qs, ∀ used,
    (q.select.scope used).1.Tidy) {r : Registry} (h : r.Tidy) :
    (qs.foldl SubQuery.register r).Tidy := by
  induction qs generalizing r with
  | nil => exact h
  | cons q qs ih =>
    exact ih (fun x hx => hqs x (List.mem_cons_of_mem _ hx))
      (h.register (hqs q List.mem_cons_self))

theorem ScopeTree.grow_tidy_of {queries : List SubQuery}
    (h : ∀ q ∈ queries, ∀ used, (q.select.scope used).1.Tidy) (tables : List Table)
    (used : List String) : (grow tables queries used).1.Tidy := by
  have hr : Registry.Tidy ⟨[], (Level.introduce tables [] used).2⟩ :=
    ⟨List.nodup_nil, fun c hc => absurd hc List.not_mem_nil⟩
  have hall := hr.foldl h
  exact .node hall.ids hall.below

theorem Select.scope_tidy (s : Select) (used : List String) : (s.scope used).1.Tidy := by
  induction s generalizing used with
  | step s ih =>
    rw [scope_eq_grow]
    exact ScopeTree.grow_tidy_of ih s.tables used

namespace ScopeTree

theorem grow_tidy (tables : List Table) (queries : List SubQuery) (used : List String) :
    (grow tables queries used).1.Tidy :=
  grow_tidy_of (fun q _ => q.select.scope_tidy) tables used

/-- The tables and the sub-queries that the levels under their numbers are made of. -/
inductive Introduces (t : ScopeTree) (tables : List Table) (queries : List SubQuery) :
    Nat → List Table → List SubQuery → Prop where
  | root : Introduces t tables queries 0 tables queries
  | inside {n m : Nat} {ts : List Table} {qs : List SubQuery} {q : SubQuery}
      (h : t.Introduces tables queries n ts qs) (hq : q ∈ qs)
      (hm : t.table.scopeOf n q.id = some m) :
      Introduces t tables queries m q.select.tables q.select.subQueries

/-- Aliases stand for one table of one level, whatever the tables are called and however the
sub-queries are nested. -/
structure Unambiguous (t : ScopeTree) (tables : List Table) (queries : List SubQuery) : Prop where
  differ : ∀ {i j : Nat} {a b : Scope} {x y : Table × Identifier}, t.table.scopes[i]? = some a →
    t.table.scopes[j]? = some b → x ∈ a.level → y ∈ b.level → x.2.key = y.2.key → i = j ∧ x = y
  once : ∀ {n : Nat} {s : Scope}, t.table.scopes[n]? = some s →
    ∃ ts qs, t.Introduces tables queries n ts qs ∧ (s.level.map Prod.fst).Nodup ∧
      ∀ x, x ∈ s.level.map Prod.fst ↔ x ∈ ts
  target : ∀ x ∈ tables.head?, t.table.local? 0 x = some x.definition.name

variable {tables : List Table} {queries : List SubQuery}

/-- Each number is that of a level made of the tables and sub-queries that it introduces. -/
theorem exists_introduces {n : Nat} (h : n < (grow tables queries []).1.size) :
    ∃ ts qs used, (grow tables queries []).1.Introduces tables queries n ts qs ∧
      (grow ts qs used).1.NumberedIn (grow tables queries []).1.table n := by
  induction n using Nat.strongRecOn with
  | ind n ih =>
    cases n with
    | zero => exact ⟨tables, queries, [], .root, numberedIn_table _⟩
    | succ k =>
      -- The link to `k + 1` starts from a smaller number, whose level is known.
      have hlength : ((grow tables queries []).1.links 0).length + 1 =
          (grow tables queries []).1.size := by
        have := congrArg List.length (map_snd_links 0 (grow tables queries []).1)
        simpa using this
      obtain ⟨l, hl⟩ : ∃ l, ((grow tables queries []).1.links 0)[k]? = some l :=
        ⟨_, List.getElem?_eq_getElem (by omega)⟩
      have hlm := List.mem_of_getElem? hl
      have hnumber := (link_at hl).1
      have hrange := link_range hlm
      obtain ⟨ts, qs, used, hin, hnumbered⟩ := ih l.1.1 (by omega) (by omega)
      have hscope : (grow tables queries []).1.table.scopeOf l.1.1 l.1.2 = some (k + 1) := by
        rw [← hnumber]
        exact lookup_of_mem (nodup_links 0 (grow_tidy tables queries [])) hlm
      obtain ⟨child, hchild⟩ : ∃ child, (grow ts qs used).1.child? l.1.2 = some child := by
        rw [← Option.isSome_iff_exists, Option.isSome_iff_ne_none]
        intro hnone
        rw [hnumbered.scopeOf_eq_none hnone] at hscope
        exact absurd hscope (by simp)
      obtain ⟨q, hq, hid, used', rfl⟩ := child_grow hchild
      obtain ⟨m, hm, hbelow, _⟩ := hnumbered.exists_scopeOf hchild
      obtain rfl : k + 1 = m := Option.some.inj (hscope.symm.trans hm)
      rw [← hid] at hscope
      rw [Select.scope_eq_grow] at hbelow
      exact ⟨_, _, used', hin.inside hq hscope, hbelow⟩

theorem grow_unambiguous (tables : List Table) (queries : List SubQuery) :
    (grow tables queries []).1.Unambiguous tables queries where
  differ {i j a b x y} ha hb hx hy hkey := by
    have hdistinct : (Level.keys ((grow tables queries []).1.table.scopes.map
        Scope.level).flatten).Nodup := by
      rw [table, flatten_scopes]
      exact distinct_grow tables queries
    refine Level.eq_of_key_eq hdistinct ?_ ?_ hx hy hkey
    · rw [List.getElem?_map, ha]
      rfl
    · rw [List.getElem?_map, hb]
      rfl
  once {n s} hs := by
    have hn : n < (grow tables queries []).1.size := by
      have hlt := (List.getElem?_eq_some_iff.mp hs).1
      rwa [table, length_scopes] at hlt
    obtain ⟨ts, qs, used, hin, hnumbered⟩ := exists_introduces hn
    obtain ⟨s', hs', hlevel⟩ := hnumbered.exists_scope
    obtain rfl : s = s' := Option.some.inj (hs.symm.trans hs')
    have hmade : (grow ts qs used).1.level = (Level.introduce ts [] used).1 := rfl
    obtain ⟨hnodup, hmem⟩ := @Level.introduce_once ts [] List.nodup_nil used
    rw [hlevel, hmade]
    refine ⟨ts, qs, hin, hnodup, fun x => ?_⟩
    rw [hmem, List.map_nil, or_iff_right List.not_mem_nil]
  target x hx := by
    rw [(numberedIn_table _).local?]
    cases tables with
    | nil => simp at hx
    | cons t ts =>
      obtain rfl : t = x := by simpa using hx
      obtain ⟨given, he, _⟩ := Extends.introduce ts [(t, t.definition.name)]
        (Alias.next t.definition.name []).2
      have hlevel : (grow (t :: ts) queries []).1.level = [(t, t.definition.name)] ++ given := by
        rw [← he]
        rfl
      rw [hlevel, List.singleton_append, List.lookup_cons_self]

/-- Aliases of selects and of statements that write to a table, with any sub-queries. -/
theorem aliases_unambiguous :
    (∀ s : Select, (ofSelect s).Unambiguous s.tables s.subQueries) ∧
      ∀ target queries, (ofTarget target queries).Unambiguous [target] queries := by
  refine ⟨fun s => ?_, fun target queries => ?_⟩
  · rw [ofSelect_eq_grow]
    exact grow_unambiguous s.tables s.subQueries
  · rw [ofTarget_eq_grow]
    exact grow_unambiguous [target] queries

end ScopeTree

end SqlCompose
