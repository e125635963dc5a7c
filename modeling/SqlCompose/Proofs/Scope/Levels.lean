import SqlCompose.Proofs.Scope.Registration

/-! What a level holds: each of its tables once, in their order, and below it a level for every
sub-query that it mentions. -/

namespace SqlCompose

theorem mem_of_lookup {α β : Type} [BEq α] [LawfulBEq α] {xs : List (α × β)} {k : α} {v : β}
    (h : xs.lookup k = some v) : (k, v) ∈ xs := by
  obtain ⟨as, bs, he, _⟩ := List.lookup_eq_some_iff.mp h
  simp [he]

theorem lookup_isSome_iff {α β : Type} [BEq α] [LawfulBEq α] {xs : List (α × β)} {k : α} :
    (xs.lookup k).isSome = true ↔ k ∈ xs.map Prod.fst := by
  induction xs with
  | nil => simp
  | cons x xs ih =>
    by_cases h : k = x.1
    · simp [h]
    · rw [List.lookup_cons, beq_false_of_ne h, ih, List.map_cons, List.mem_cons, or_iff_right h]

theorem lookup_of_mem {α β : Type} [BEq α] [LawfulBEq α] {xs : List (α × β)} {k : α} {v : β}
    (hnd : (xs.map Prod.fst).Nodup) (h : (k, v) ∈ xs) : xs.lookup k = some v := by
  obtain ⟨before, after, rfl⟩ := List.append_of_mem h
  rw [List.map_append, List.map_cons, List.nodup_append] at hnd
  have hbefore : before.lookup k = none := by
    refine List.lookup_eq_none_iff.mpr fun e he => bne_iff_ne.mpr fun heq => ?_
    exact hnd.2.2 e.1 (List.mem_map_of_mem he) k List.mem_cons_self heq.symm
  rw [List.lookup_append, hbefore, Option.none_or, List.lookup_cons_self]

theorem nodup_keys_append {α β : Type} {xs : List (α × β)} {k : α} (v : β)
    (hnd : (xs.map Prod.fst).Nodup) (hk : k ∉ xs.map Prod.fst) :
    ((xs ++ [(k, v)]).map Prod.fst).Nodup := by
  rw [List.map_append, List.map_cons, List.map_nil, List.nodup_append]
  refine ⟨hnd, by simp, fun a ha b hb he => ?_⟩
  rw [List.mem_singleton] at hb
  rw [he, hb] at ha
  exact hk ha

/-- A list whose keys differ is determined by its keys and what looking them up gives. -/
theorem eq_of_lookup {α β : Type} [DecidableEq α] {xs ys : List (α × β)}
    (hnd : (xs.map Prod.fst).Nodup) (hkeys : ys.map Prod.fst = xs.map Prod.fst)
    (h : ∀ y ∈ ys, xs.lookup y.1 = some y.2) : ys = xs := by
  induction xs generalizing ys with
  | nil => simpa using hkeys
  | cons x xs ih =>
    cases ys with
    | nil => simp at hkeys
    | cons y ys =>
      obtain ⟨a, b⟩ := x
      obtain ⟨c, d⟩ := y
      simp only [List.map_cons, List.cons.injEq] at hkeys hnd
      obtain ⟨rfl, hkeys⟩ := hkeys
      have hnd' := List.nodup_cons.mp hnd
      have hd : b = d := by simpa using h (c, d) List.mem_cons_self
      have htail : ∀ y ∈ ys, xs.lookup y.1 = some y.2 := by
        intro y hy
        have hne : y.1 ≠ c := by
          intro he
          apply hnd'.1
          rw [← hkeys, ← he]
          exact List.mem_map_of_mem hy
        have := h y (List.mem_cons_of_mem _ hy)
        rwa [List.lookup_cons, beq_false_of_ne hne] at this
      rw [hd, ih hnd'.2 hkeys htail]

namespace Level

theorem introduce_tables {ts : List Table} {level : Level} (hnd : ts.Nodup)
    (hnew : ∀ t ∈ ts, t ∉ level.map Prod.fst) (used : List String) :
    (introduce ts level used).1.map Prod.fst = level.map Prod.fst ++ ts := by
  induction ts generalizing level used with
  | nil => simp [introduce]
  | cons t ts ih =>
    obtain ⟨ht, hts⟩ := List.nodup_cons.mp hnd
    have hnone : level.lookup t = none := by
      refine List.lookup_eq_none_iff.mpr fun p hp => bne_iff_ne.mpr fun he => ?_
      exact hnew t List.mem_cons_self (he ▸ List.mem_map_of_mem hp)
    rw [introduce, hnone]
    simp only [Option.isSome_none, Bool.false_eq_true, if_false]
    rw [ih hts]
    · simp
    · intro x hx
      simp only [List.map_append, List.map_cons, List.map_nil, List.mem_append, List.mem_singleton,
        not_or]
      exact ⟨hnew x (List.mem_cons_of_mem _ hx), fun he => ht (he ▸ hx)⟩

end Level

/-- A registry holds a level for each of the sub-queries, and no other levels. -/
structure Registry.Covers (qs : List SubQuery) (r : Registry) : Prop where
  sound : ∀ id t, r.children.lookup id = some t →
    ∃ q ∈ qs, q.id = id ∧ ∃ used, t = (q.select.scope used).1
  complete : ∀ q ∈ qs, (r.children.lookup q.id).isSome = true

namespace Registry.Covers

theorem nil (used : List String) : Covers [] ⟨[], used⟩ :=
  ⟨fun _ _ h => by simp at h, fun _ h => by simp at h⟩

theorem register {qs : List SubQuery} {r : Registry} (h : Covers qs r) (q : SubQuery) :
    Covers (qs ++ [q]) (q.register r) := by
  obtain ⟨id, select⟩ := q
  by_cases hid : (r.children.lookup id).isSome = true
  · have he : SubQuery.register r ⟨id, select⟩ = r := by simp [SubQuery.register, hid]
    rw [he]
    refine ⟨fun i t ht => ?_, fun x hx => ?_⟩
    · obtain ⟨q, hq, hqs⟩ := h.sound i t ht
      exact ⟨q, List.mem_append_left _ hq, hqs⟩
    · rcases List.mem_append.mp hx with hx | hx
      · exact h.complete x hx
      · rw [List.mem_singleton.mp hx]
        exact hid
  · have he : (SubQuery.register r ⟨id, select⟩).children =
        r.children ++ [(id, (select.scope r.used).1)] := by simp [SubQuery.register, hid]
    refine ⟨fun i t ht => ?_, fun x hx => ?_⟩
    · rw [he, List.lookup_append, Option.or_eq_some_iff] at ht
      rcases ht with ht | ⟨_, ht⟩
      · obtain ⟨q, hq, hqs⟩ := h.sound i t ht
        exact ⟨q, List.mem_append_left _ hq, hqs⟩
      · have hm := mem_of_lookup ht
        simp only [List.mem_singleton, Prod.mk.injEq] at hm
        exact ⟨⟨id, select⟩, by simp, hm.1.symm, r.used, hm.2⟩
    · rw [he, List.lookup_append, Option.isSome_or]
      rcases List.mem_append.mp hx with hx | hx
      · simp [h.complete x hx]
      · simp [List.mem_singleton.mp hx]

theorem foldl {qs : List SubQuery} {r : Registry} (h : Covers qs r) (more : List SubQuery) :
    Covers (qs ++ more) (more.foldl SubQuery.register r) := by
  induction more generalizing qs r with
  | nil => simpa using h
  | cons q more ih => simpa using ih (h.register q)

end Registry.Covers

namespace ScopeTree

/-- Below a level stands the level of every sub-query that it mentions. -/
theorem exists_child_grow {queries : List SubQuery} {q : SubQuery} (hq : q ∈ queries)
    (tables : List Table) (used : List String) :
    ∃ child, (grow tables queries used).1.child? q.id = some child := by
  have h := (Registry.Covers.nil (Level.introduce tables [] used).2).foldl queries
  exact Option.isSome_iff_exists.mp (h.complete q (by simpa using hq))

/-- A level below another is that of a sub-query with the number in question. -/
theorem child_grow {queries : List SubQuery} {tables : List Table} {used : List String} {id : Nat}
    {child : ScopeTree} (h : (grow tables queries used).1.child? id = some child) :
    ∃ q ∈ queries, q.id = id ∧ ∃ used, child = (q.select.scope used).1 := by
  have hc := (Registry.Covers.nil (Level.introduce tables [] used).2).foldl queries
  obtain ⟨q, hq, he⟩ := hc.sound id child h
  exact ⟨q, by simpa using hq, he⟩

theorem grow_tables {tables : List Table} (h : tables.Nodup) (queries : List SubQuery)
    (used : List String) : (grow tables queries used).1.level.map Prod.fst = tables :=
  Level.introduce_tables h (by simp) used

end ScopeTree

end SqlCompose
