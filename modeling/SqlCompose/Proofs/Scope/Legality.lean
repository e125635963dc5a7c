import SqlCompose.Proofs.Scope.Levels
import SqlCompose.Proofs.Scope.Uniqueness
import SqlCompose.Proofs.Text.Identifiers

/-! Aliases may be written wherever the names of the tables may. A numbered alias is a plain name,
so that no quotes are needed around it, and it goes on to be one whatever the table is called. -/

namespace SqlCompose

/-- All names of the table may be written. -/
structure Table.Legal (t : Table) : Prop where
  name : t.definition.name.Legal
  schema : ∀ s ∈ t.definition.schema, s.Legal
  columns : ∀ c ∈ t.definition.columns, c.name.Legal

theorem Column.ident_legal {c : Column} (h : c.table.Legal) : c.ident.Legal :=
  h.columns _ (List.get_mem c.table.definition.columns c.index)

namespace Identifier

theorem isRest_of_isStemChar {c : Char} (h : isStemChar c = true) : isRest c = true := by
  simp only [isStemChar, Bool.or_eq_true, beq_iff_eq] at h
  rcases h with (h | h) | h
  · simp [isRest, h]
  · simp [isRest, Char.isAlphanum, h]
  · simp [isRest, isAlphanum_of_isLower h]

theorem exists_stem_toList (i : Identifier) :
    ∃ c cs, i.stem.toList = c :: cs ∧ isStart c = true := by
  unfold stem
  split
  · exact ⟨'t', ['_'], by decide, by decide⟩
  · rename_i c cs h
    by_cases hc : isStart c = true
    · exact ⟨c, cs, by simp [hc], hc⟩
    · exact ⟨'t', '_' :: c :: cs, by simp [hc], by decide⟩

end Identifier

namespace Alias

theorem numbered_legal (i : Identifier) (n : Nat) :
    (Identifier.plain (numbered i.stem n)).Legal := by
  obtain ⟨c, cs, hs, hc⟩ := i.exists_stem_toList
  have hname : (numbered i.stem n).toList = c :: (cs ++ '_' :: Nat.toDigits 10 n) := by
    rw [toList_numbered, hs, List.cons_append]
  refine Identifier.legal_plain hname hc fun b hb => ?_
  refine Identifier.isRest_of_isStemChar (isStemChar_of_mem_numbered (i := i) (n := n) ?_)
  rw [hname]
  exact List.mem_cons_of_mem _ hb

theorem next_legal {name : Identifier} (h : name.Legal) (used : List String) :
    (next name used).1.Legal := by
  by_cases hused : Lowercase.lower name.name ∈ used
  · obtain ⟨m, _, he, _⟩ := firstFree_spec used name.stem used.length 1
    simp only [next, hused, if_true, he]
    exact numbered_legal name m
  · simpa [next, hused] using h

end Alias

/-- The tables of the level and their aliases may be written. -/
def Level.Legal (level : Level) : Prop := ∀ e ∈ level, e.1.Legal ∧ e.2.Legal

theorem Level.Legal.append {a b : Level} (ha : a.Legal) (hb : b.Legal) :
    Level.Legal (a ++ b) := fun e he =>
  (List.mem_append.mp he).elim (ha e) (hb e)

theorem Level.introduce_legal {ts : List Table} (h : ∀ t ∈ ts, t.Legal) {level : Level}
    (hlevel : level.Legal) (used : List String) : (introduce ts level used).1.Legal := by
  induction ts generalizing level used with
  | nil => exact hlevel
  | cons t ts ih =>
    have ht := h t List.mem_cons_self
    have hts := fun x hx => h x (List.mem_cons_of_mem _ hx)
    by_cases hmem : (level.lookup t).isSome = true
    · rw [introduce_cons_of_mem hmem]
      exact ih hts hlevel used
    · rw [introduce_cons_of_not_mem hmem]
      refine ih hts (hlevel.append fun e he => ?_) _
      rw [List.mem_singleton.mp he]
      exact ⟨ht, Alias.next_legal ht.name used⟩

namespace ScopeTree

/-- All tables and aliases at and below the level may be written. -/
def Legal (t : ScopeTree) : Prop := t.entries.Legal

theorem Legal.level {t : ScopeTree} (h : t.Legal) : t.level.Legal := fun e he =>
  h e (by rw [entries_eq]; exact List.mem_append_left _ he)

theorem Legal.child {t child : ScopeTree} {id : Nat} (h : t.Legal)
    (hc : t.child? id = some child) : child.Legal := by
  intro e he
  obtain ⟨as, bs, hsplit⟩ := List.append_of_mem (mem_of_lookup hc)
  refine h e ?_
  rw [entries_eq, hsplit, childEntries_append, childEntries]
  simp [he]

end ScopeTree

theorem SubQuery.register_legal {q : SubQuery} (h : ∀ used, (q.select.scope used).1.Legal)
    {r : Registry} (hr : Level.Legal (ScopeTree.childEntries r.children)) :
    Level.Legal (ScopeTree.childEntries (q.register r).children) := by
  obtain ⟨id, select⟩ := q
  by_cases hid : (r.children.lookup id).isSome = true
  · simpa [register, hid] using hr
  · simp only [register, hid, if_false, Bool.false_eq_true, ScopeTree.childEntries_append,
      ScopeTree.childEntries, List.append_nil]
    exact hr.append (h r.used)

theorem ScopeTree.grow_legal {tables : List Table} (htables : ∀ t ∈ tables, t.Legal)
    {queries : List SubQuery} (h : ∀ q ∈ queries, ∀ used, (q.select.scope used).1.Legal)
    (used : List String) : (grow tables queries used).1.Legal := by
  have hfold : ∀ r : Registry, Level.Legal (childEntries r.children) →
      Level.Legal (childEntries (queries.foldl SubQuery.register r).children) := by
    induction queries with
    | nil => exact fun r hr => hr
    | cons q queries ih =>
      intro r hr
      exact ih (fun x hx => h x (List.mem_cons_of_mem _ hx)) _
        (SubQuery.register_legal (h q List.mem_cons_self) hr)
  intro e he
  rw [entries_eq] at he
  rcases List.mem_append.mp he with he | he
  · exact Level.introduce_legal htables (fun _ hx => absurd hx List.not_mem_nil) used e he
  · exact hfold _ (fun _ hx => absurd hx List.not_mem_nil) e he

namespace Select

/-- The tables of the select and of all selects nested in it may be written. -/
abbrev Legal (s : Select) : Prop := s.Everywhere fun s => ∀ t ∈ s.tables, t.Legal

theorem scope_legal {s : Select} (h : s.Legal) (used : List String) :
    (s.scope used).1.Legal := by
  induction s generalizing used with
  | step s ih =>
    rw [scope_eq_grow]
    exact ScopeTree.grow_legal h.here (fun q hq => ih q hq (h.inside q hq)) used

end Select

namespace Position

/-- Whatever can be named from here may be written. -/
structure Legal (p : Position) : Prop where
  scope : p.scope.Legal
  outer : ∀ level ∈ p.outer, level.Legal

theorem Legal.visible {p : Position} (h : p.Legal) : ∀ level ∈ p.visible, level.Legal := by
  intro level hl
  rcases List.mem_cons.mp hl with rfl | hl
  · exact h.scope.level
  · exact h.outer level hl

theorem Legal.enter {p : Position} (h : p.Legal) {child : ScopeTree} {id : Nat}
    (hc : p.scope.child? id = some child) : Legal ⟨child, p.visible⟩ :=
  ⟨h.scope.child hc, h.visible⟩

end Position

theorem Level.legal_of_resolve? {levels : List Level} (h : ∀ level ∈ levels, level.Legal)
    {t : Table} {name : Identifier} (hr : resolve? levels t = some name) :
    t.Legal ∧ name.Legal := by
  obtain ⟨level, hl, hlookup⟩ := List.exists_of_findSome?_eq_some hr
  exact h level hl _ (mem_of_lookup hlookup)

end SqlCompose
