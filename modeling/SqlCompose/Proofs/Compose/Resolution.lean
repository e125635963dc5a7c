import SqlCompose.Dialect.Catalog
import SqlCompose.Proofs.Compose.Tracing
import SqlCompose.Proofs.Query.Coherence
import SqlCompose.Proofs.Scope.Visibility

/-! Columns are resolved without capture. Each alias before a column is declared once on the path
from the column to the root, and there it stands for the table that the query named. -/

namespace SqlCompose

namespace Sql

/-- A column that is written is one that the query mentions, and its alias denotes the table. -/
structure ColumnName.Resolved (levels : List Level) (os : List Operand) (n : ColumnName) : Prop where
  mentioned : (if n.outer then .outer n.column else .column n.column) ∈ os
  denotes : ∃ depth, n.Denotes levels depth

mutual

/-- A level that is written, with the levels nested in it: it declares the aliases of its scope for
the tables of the query, and its columns and those below are resolved. -/
inductive Resolved : ScopeTree → List Level → List Table → List Operand → Level → List Expr → Prop
  | intro {t : ScopeTree} {outer : List Level} {tables : List Table} {os : List Operand}
      {level : Level} {es : List Expr}
      (declares : level = t.level)
      (introduces : level.map Prod.fst = tables)
      (distinct : tables.Nodup)
      (columns : ∀ n, .column n ∈ es → n.Resolved (t.level :: outer) os)
      (subQueries : ∀ r, .subQuery r ∈ es → ResolvedBelow t outer os r) :
      Resolved t outer tables os level es

/-- A nested select has the scope of a sub-query that the level around it mentions. -/
inductive ResolvedBelow : ScopeTree → List Level → List Operand → Select → Prop
  | intro {t child : ScopeTree} {outer : List Level} {os : List Operand} {q : SubQuery} {r : Select}
      (mentioned : .subQuery q ∈ os)
      (stands : t.child? q.id = some child)
      (resolved : Resolved child (t.level :: outer) q.select.tables q.select.operands r.level
        r.operands) :
      ResolvedBelow t outer os r

end

end Sql

namespace ScopeTree

/-- All aliases at and below a level and on the way to it differ. -/
def DistinctBelow (outer : List Level) (t : ScopeTree) : Prop :=
  (Level.keys (outer.flatten ++ t.entries)).Nodup

theorem DistinctBelow.visible {outer : List Level} {t : ScopeTree} (h : t.DistinctBelow outer) :
    (Level.keys (t.level :: outer).flatten).Nodup := by
  have hsub : (outer.flatten ++ t.level).Sublist (outer.flatten ++ t.entries) := by
    rw [entries_eq]
    exact (List.sublist_append_left _ _).append_left _
  have hnd : (Level.keys (outer.flatten ++ t.level)).Nodup := h.sublist (hsub.map _)
  exact (List.perm_append_comm.map _).nodup_iff.mp hnd

theorem entries_sublist_of_mem {id : Nat} {child : ScopeTree} {children : List (Nat × ScopeTree)}
    (h : (id, child) ∈ children) : child.entries.Sublist (childEntries children) := by
  obtain ⟨as, bs, rfl⟩ := List.append_of_mem h
  rw [childEntries_append]
  exact (List.sublist_append_left _ _).trans (List.sublist_append_right _ _)

theorem DistinctBelow.child {outer : List Level} {t child : ScopeTree} {id : Nat}
    (h : t.DistinctBelow outer) (hc : t.child? id = some child) :
    child.DistinctBelow (t.level :: outer) := by
  have hsub : (outer.flatten ++ (t.level ++ child.entries)).Sublist
      (outer.flatten ++ t.entries) := by
    rw [entries_eq t]
    exact ((entries_sublist_of_mem (mem_of_lookup hc)).append_left _).append_left _
  have hnd : (Level.keys (outer.flatten ++ (t.level ++ child.entries))).Nodup :=
    h.sublist (hsub.map _)
  have hperm : (outer.flatten ++ (t.level ++ child.entries)).Perm
      ((t.level :: outer).flatten ++ child.entries) := by
    rw [List.flatten_cons, List.append_assoc]
    exact List.perm_append_comm_assoc _ _ _
  exact (hperm.map _).nodup_iff.mp hnd

end ScopeTree

section

variable {σ : Setting} {p : Position}

theorem Sql.Expr.Stems.column_resolved {os : List Operand} {n : Sql.ColumnName}
    (hdistinct : p.scope.DistinctBelow p.outer) (h : (Expr.column n).Stems σ p os) :
    n.Resolved p.visible os := by
  cases h with
  | column hc hn =>
    obtain ⟨name, hname, rfl⟩ := Column.qualify_eq_ok_iff.mp hn
    exact ⟨by simpa using hc, ColumnName.exists_denotes hdistinct.visible hname⟩
  | outer hc hn =>
    obtain ⟨name, hname, rfl⟩ := Column.qualify_eq_ok_iff.mp hn
    exact ⟨by simpa using hc, ColumnName.exists_denotes hdistinct.visible hname⟩

theorem Join.compose_tables {js : List Join} {es : List Sql.Join}
    (h : List.Forall₂ (fun j e => j.compose σ p = .ok e) js es) :
    es.map (·.table.table) = js.map (·.table) := by
  induction h with
  | nil => rfl
  | cons hj _ ih =>
    obtain ⟨item, hitem, _, _, rfl⟩ := Join.compose_eq_ok_iff.mp hj
    obtain ⟨name, _, rfl⟩ := Table.item_eq_ok_iff.mp hitem
    simp [ih]

/-- The from list of a composed select declares the aliases of its level. -/
theorem Select.compose_level {s : Select} {q : Sql.Select} (h : s.compose σ p = .ok q)
    (htables : p.scope.level.map Prod.fst = s.tables) : q.level = p.scope.level := by
  obtain ⟨hnd, items, _, source, hsource, joins, hjoins, _, _, _, _, _, _, rfl⟩ :=
    compose_eq_ok_iff.mp h
  obtain ⟨name, hname, rfl⟩ := Table.item_eq_ok_iff.mp hsource
  have hjoined : ∀ e ∈ joins, p.scope.level.lookup e.table.table = some e.table.name := by
    intro e he
    obtain ⟨j, _, hj⟩ := exists_mem_of_forall₂ hjoins he
    obtain ⟨item, hitem, _, _, rfl⟩ := Join.compose_eq_ok_iff.mp hj
    obtain ⟨name, hname, rfl⟩ := Table.item_eq_ok_iff.mp hitem
    exact hname
  have hkeys := Join.compose_tables hjoins
  refine eq_of_lookup (htables ▸ hnd) ?_ ?_
  · rw [htables]
    simp [Sql.Select.level, tables, Function.comp_def, hkeys]
  · intro e he
    simp only [Sql.Select.level, List.map_cons, List.map_map, List.mem_cons, List.mem_map,
      Function.comp_apply] at he
    rcases he with rfl | ⟨j, hj, rfl⟩
    · exact hname
    · exact hjoined j hj

end

/-- A table that is written to goes by its own name. -/
theorem ScopeTree.grow_singleton_level (t : Table) (queries : List SubQuery) :
    (grow [t] queries []).1.level = [(t, t.definition.name)] := by
  simp [grow, ScopeTree.level, Level.introduce, Alias.next]

/-- A select is resolved wherever it is nested, whatever aliases are in use around it. -/
def Select.Resolves (σ : Setting) (s : Select) : Prop :=
  ∀ used outer q, (s.scope used).1.DistinctBelow outer →
    s.compose σ ⟨(s.scope used).1, outer⟩ = .ok q →
    Sql.Resolved (s.scope used).1 outer s.tables s.operands q.level q.operands

theorem Sql.resolved_grow {σ : Setting} {tables : List Table} {queries : List SubQuery}
    {used : List String} {outer : List Level} {os : List Operand} {es : List Expr} {level : Level}
    (hqueries : ∀ q, .subQuery q ∈ os → q ∈ queries) (hcoherent : SubQuery.Coherent queries)
    (hbelow : ∀ q ∈ queries, q.select.Resolves σ) (htables : tables.Nodup)
    (hdistinct : (ScopeTree.grow tables queries used).1.DistinctBelow outer)
    (hlevel : level = (ScopeTree.grow tables queries used).1.level)
    (hstems : ∀ e ∈ es, e.Stems σ ⟨(ScopeTree.grow tables queries used).1, outer⟩ os) :
    Resolved (ScopeTree.grow tables queries used).1 outer tables os level es := by
  refine .intro hlevel (hlevel ▸ ScopeTree.grow_tables htables queries used) htables
    (fun n hn => (hstems _ hn).column_resolved hdistinct) fun r hr => ?_
  cases hstems _ hr with
  | @subQuery q width _ hq hs =>
    obtain ⟨_, child, hchild, hs⟩ := SubQuery.compose_eq_ok_iff.mp hs
    obtain ⟨q', hq', hid, used', rfl⟩ := ScopeTree.child_grow hchild
    have hsame : q'.select = q.select := hcoherent q' hq' q (hqueries q hq) hid
    rw [hsame] at hchild hs
    have hresolves := hbelow q (hqueries q hq) used' _ r (hdistinct.child hchild) hs
    exact .intro hq hchild hresolves

theorem Select.resolves {s : Select} (σ : Setting) (h : s.Coherent) : s.Resolves σ := by
  induction s with
  | step s ih =>
    intro used outer q hdistinct hq
    have hstems := compose_stems hq
    have hnd : s.tables.Nodup := (compose_eq_ok_iff.mp hq).1
    have hlevel : q.level = (s.scope used).1.level := by
      refine compose_level hq ?_
      rw [scope_eq_grow]
      exact ScopeTree.grow_tables hnd s.subQueries used
    rw [scope_eq_grow] at hdistinct hstems hlevel ⊢
    exact Sql.resolved_grow (fun q hq => mem_subQueries_iff.mpr hq) h.here
      (fun q hq => ih q hq (h.inside q hq)) hnd hdistinct hlevel hstems

namespace Query

theorem Composed.resolved {d : Dialect} {defaults : QueryOptions} {q : Query} {c : Sql.Command}
    (hq : q.Coherent) (h : q.Composed d defaults c) :
    Sql.Resolved q.scope [] q.tables q.operands c.level c.operands := by
  have hdistinct := ScopeTree.distinct_grow q.tables q.subQueries
  rw [scope_eq_grow]
  have hbelow : ∀ σ, ∀ r ∈ q.subQueries, r.select.Resolves σ := fun σ r hr =>
    Select.resolves σ (hq.inside r hr)
  cases h with
  | @select s t h =>
    have hnd : s.tables.Nodup := (Select.compose_eq_ok_iff.mp h).1
    rw [ScopeTree.ofSelect_eq_grow] at h
    refine Sql.resolved_grow (fun _ => mem_subQueries_of_operand) hq.here (hbelow _) hnd hdistinct
      ?_ (Select.compose_stems h)
    exact Select.compose_level h (ScopeTree.grow_tables hnd s.subQueries [])
  | update h =>
    exact Sql.resolved_grow (fun _ => mem_subQueries_of_operand) hq.here (hbelow _)
      (List.nodup_singleton _) hdistinct (by
        obtain ⟨_, _, _, _, rfl⟩ := UpdateQuery.compose_eq_ok h
        exact (ScopeTree.grow_singleton_level _ _).symm) (UpdateQuery.compose_stems h)
  | delete h =>
    exact Sql.resolved_grow (fun _ => mem_subQueries_of_operand) hq.here (hbelow _)
      (List.nodup_singleton _) hdistinct (by
        obtain ⟨_, _, rfl⟩ := DeleteQuery.compose_eq_ok h
        exact (ScopeTree.grow_singleton_level _ _).symm) (DeleteQuery.compose_stems h)
  | insert _ h =>
    obtain ⟨ht, hstems⟩ := InsertQuery.composeBody_stems (InsertQuery.compose_eq_ok h).1
    refine Sql.resolved_grow (fun _ => mem_subQueries_of_operand) hq.here (hbelow _)
      (List.nodup_singleton _) hdistinct ?_ hstems
    simp only [Sql.Command.level, ht]
    exact (ScopeTree.grow_singleton_level _ _).symm

end Query

/-- Whatever a query is built into, each column stands behind the alias of the nearest level that
introduces its table, and a database that searches for the alias from the inside out finds that
table. No alias is given twice. -/
theorem Query.build_resolved {d : Dialect} {defaults : QueryOptions} {q : Query}
    {b : Built Output} (hq : q.Coherent) (h : q.build d defaults = .ok b) :
    q.scope.Distinct ∧
      (b.output = .statement (.empty d) ∨
        ∃ c, b.output.Shows d c ∧
          Sql.Resolved q.scope [] q.tables q.operands c.level c.operands) := by
  refine ⟨q.scope_eq_grow ▸ ScopeTree.distinct_grow q.tables q.subQueries, ?_⟩
  rcases build_shows h with hempty | ⟨c, hc, hshows⟩
  · exact .inl hempty
  · exact .inr ⟨c, hshows, hc.resolved hq⟩

/-- Three levels, a self-join and a sub-query that two levels share. -/
theorem Query.build_resolved_households :
    Family.households.Coherent ∧ ∃ b, Family.households.build .postgres default = .ok b ∧
      Family.households.scope.Distinct ∧
      (b.output = .statement (.empty .postgres) ∨
        ∃ c, b.output.Shows .postgres c ∧
          Sql.Resolved Family.households.scope [] Family.households.tables
            Family.households.operands c.level c.operands) :=
  ⟨Family.households_coherent, _, rfl, build_resolved Family.households_coherent rfl⟩

end SqlCompose
