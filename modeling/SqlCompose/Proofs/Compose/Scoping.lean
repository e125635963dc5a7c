import SqlCompose.Dialect.Catalog
import SqlCompose.Proofs.Compose.Containing
import SqlCompose.Proofs.Scope.Visibility

/-! Columns out of scope are refused. Whatever a level writes is composed there, and what is composed
is a column of a table that can be seen. Only beside an empty list nothing is looked up. -/

namespace SqlCompose

/-- The operand is composed at the position, among whatever else. -/
def Operand.Composes (σ : Setting) (p : Position) (o : Operand) : Prop :=
  ∃ es, o.ComposedAmong σ p es

/-- The operands of one level are composed, with these tables at the level and around it. Below them
are the levels of their sub-queries. -/
structure Position.Composes (σ : Setting) (p : Position) (levels : List (List Table))
    (os : List Operand) : Prop where
  levels : p.visible.map (·.map Prod.fst) = levels
  operands : ∀ o ∈ os, o.Composes σ p
  below : ∀ r, .subQuery r ∈ os → r.select.Coherent ∧ ∀ child, p.scope.child? r.id = some child →
    ∃ used, child = (r.select.scope used).1

section

variable {σ : Setting} {p : Position}

theorem Operand.composes {o : Operand} {e : Sql.Expr} (h : o.compose σ p = .ok e) :
    o.Composes σ p :=
  ⟨[e], (compose_becomes h).composedAmong List.mem_cons_self⟩

theorem Operand.composes_column {c : Column} {n : Sql.ColumnName}
    (h : c.qualify p.visible false = .ok n) : (column c).Composes σ p :=
  ⟨[.column n], n, h, List.mem_cons_self⟩

theorem Column.seen_of_qualify {c : Column} {levels : List Level} {outer : Bool}
    {n : Sql.ColumnName} (h : c.qualify levels outer = .ok n) :
    ∃ level ∈ levels, c.table ∈ level.map Prod.fst := by
  obtain ⟨name, hname, _⟩ := qualify_eq_ok_iff.mp h
  exact Level.exists_resolve?_iff.mp ⟨name, hname⟩

theorem Operand.Composes.not_unseen {o : Operand} (h : o.Composes σ p) :
    ¬ o.Unseen (p.visible.map (·.map Prod.fst)) := by
  intro hunseen
  cases o with
  | column c =>
    obtain ⟨_, n, hn, _⟩ := h
    obtain ⟨level, hlevel, hc⟩ := Column.seen_of_qualify hn
    exact hunseen _ (List.mem_map_of_mem hlevel) hc
  | outer c =>
    obtain ⟨_, n, hn, _⟩ := h
    obtain ⟨level, hlevel, hc⟩ := Column.seen_of_qualify hn
    exact hunseen _ (List.mem_map_of_mem hlevel) hc
  | _ => exact hunseen

theorem Criterion.composes {cs : List Criterion} {es : List Sql.Condition} {o : Operand}
    (h : List.Forall₂ (fun c e => c.compose σ p = .ok e) cs es)
    (ho : o ∈ cs.flatMap Criterion.written) : o.Composes σ p := by
  obtain ⟨c, hc, ho⟩ := List.mem_flatMap.mp ho
  obtain ⟨e, _, hcompose⟩ := exists_mem_of_mem h hc
  exact ⟨_, composedAmong ho hcompose⟩

theorem Select.composes {s : Select} {t : Sql.Select} {o : Operand} (h : s.compose σ p = .ok t)
    (ho : o ∈ s.written) : o.Composes σ p := by
  rw [← map_content_places] at ho
  exact ⟨_, (compose_places h).composedAmong ho⟩

/-- The target of an update can be seen from its outermost level, so that the columns that are
assigned to are found there. -/
theorem Assignment.composes {target : Table} {qs : List SubQuery} {a : Assignment}
    {i : Sql.SetItem} {o : Operand}
    (h : a.composeUpdate σ (.root (.ofTarget target qs)) target = .ok i) (ho : o ∈ a.references) :
    o.Composes σ (.root (.ofTarget target qs)) := by
  obtain ⟨htarget, v, hv, e, he, _⟩ := composeUpdate_eq_ok_iff.mp h
  simp only [references, hv, List.mem_pair] at ho
  rcases ho with rfl | rfl
  · obtain ⟨name, hname⟩ := Position.exists_resolve?_ofTarget target qs
    exact Operand.composes_column (Column.qualify_eq_ok_iff.mpr ⟨name, htarget ▸ hname, rfl⟩)
  · exact Operand.composes he

theorem Position.composes_grow {tables : List Table} {queries : List SubQuery}
    {used : List String} {outer : List Level} {os : List Operand} (htables : tables.Nodup)
    (hqueries : ∀ r, .subQuery r ∈ os → r ∈ queries) (hco : SubQuery.Coherent queries)
    (hinside : ∀ r ∈ queries, r.select.Coherent)
    (h : ∀ o ∈ os, o.Composes σ ⟨(ScopeTree.grow tables queries used).1, outer⟩) :
    Composes σ ⟨(ScopeTree.grow tables queries used).1, outer⟩
      (tables :: outer.map (·.map Prod.fst)) os := by
  refine ⟨?_, h, fun r hr => ⟨hinside r (hqueries r hr), fun child hchild => ?_⟩⟩
  · rw [visible, List.map_cons, ScopeTree.grow_tables htables]
  · obtain ⟨r', hr', hid, used', rfl⟩ := ScopeTree.child_grow hchild
    rw [hco r' hr' r (hqueries r hr) hid]
    exact ⟨used', rfl⟩

theorem Select.position_composes {s : Select} (hco : s.Coherent) {used : List String}
    {outer : List Level} {t : Sql.Select} (h : s.compose σ ⟨(s.scope used).1, outer⟩ = .ok t) :
    Position.Composes σ ⟨(s.scope used).1, outer⟩ (s.tables :: outer.map (·.map Prod.fst))
      s.written := by
  have hnd : s.tables.Nodup := (compose_eq_ok_iff.mp h).1
  rw [scope_eq_grow] at h ⊢
  exact Position.composes_grow hnd (fun r hr => mem_subQueries_iff.mpr (s.written_subset hr))
    hco.here hco.inside fun o ho => composes h ho

theorem Position.Composes.inside {levels : List (List Table)} {os : List Operand} {r : SubQuery}
    (h : p.Composes σ levels os) (hr : .subQuery r ∈ os) :
    ∃ q : Position, q.Composes σ (r.select.tables :: levels) r.select.written := by
  obtain ⟨_, _, t, ht, _⟩ := h.operands _ hr
  obtain ⟨_, child, hchild, hselect⟩ := SubQuery.compose_eq_ok_iff.mp ht
  obtain ⟨hco, hscope⟩ := h.below r hr
  obtain ⟨used, rfl⟩ := hscope child hchild
  exact ⟨_, h.levels ▸ Select.position_composes hco hselect⟩

/-- However deep an operand stands, what is composed around it is composed there. -/
theorem Position.Composes.seen {levels seen : List (List Table)} {os : List Operand} {x : Operand}
    (h : p.Composes σ levels os) (hx : x.Stands seen levels os) : ¬ x.Unseen seen := by
  induction hx generalizing p with
  | here hx => exact h.levels ▸ (h.operands x hx).not_unseen
  | inside hr _ ih =>
    obtain ⟨_, hinside⟩ := h.inside hr
    exact ih hinside

end

section

variable {d : Dialect} {defaults : QueryOptions}

theorem UpdateQuery.composes {q : UpdateQuery} {options : QueryOptions} {u : Sql.Update}
    {o : Operand} (h : q.compose d options = .ok u) (ho : o ∈ (Query.update q).written) :
    o.Composes (.of d options) (.root (.ofTarget q.target q.subQueries)) := by
  obtain ⟨items, hitems, conditions, hconditions, _⟩ := compose_eq_ok h
  rcases List.mem_append.mp ho with ho | ho
  · obtain ⟨a, ha, ho⟩ := List.mem_flatMap.mp ho
    obtain ⟨_, _, hcompose⟩ := exists_mem_of_mem hitems ha
    exact Assignment.composes hcompose ho
  · exact Criterion.composes hconditions ho

theorem DeleteQuery.composes {q : DeleteQuery} {options : QueryOptions} {u : Sql.Delete}
    {o : Operand} (h : q.compose d options = .ok u) (ho : o ∈ (Query.delete q).written) :
    o.Composes (.of d options) (.root (.ofTarget q.target q.subQueries)) := by
  obtain ⟨conditions, hconditions, _⟩ := compose_eq_ok h
  exact Criterion.composes hconditions ho

namespace Query

theorem Composed.composes {q : Query} {c : Sql.Command} (hq : q.Coherent)
    (h : q.Composed d defaults c) :
    Position.Composes (q.setting d defaults) (.root q.scope) [q.tables] q.written := by
  have hcomposes : ∀ o ∈ q.written, o.Composes (q.setting d defaults) (.root q.scope) := by
    intro o ho
    cases h with
    | select h => exact Select.composes h ho
    | update h => exact UpdateQuery.composes h ho
    | delete h => exact DeleteQuery.composes h ho
    | insert _ _ => cases ho
  have htables : q.tables.Nodup := by
    cases h with
    | select h => exact (Select.compose_eq_ok_iff.mp h).1
    | _ => exact List.nodup_singleton _
  rw [scope_eq_grow] at hcomposes ⊢
  exact Position.composes_grow htables (fun _ => mem_subQueries_of_written) hq.here hq.inside
    hcomposes

/-- A column that no level on the way to it introduces, in whatever part of a select, update or
delete and however deep, is an error for every dialect. -/
theorem build_unseen {q : Query} {x : Operand} {seen : List (List Table)} (hq : q.Coherent)
    (hx : x.Stands seen [q.tables] q.written) (hunseen : x.Unseen seen) (d : Dialect)
    (defaults : QueryOptions) : ∃ e, q.build d defaults = .error e := by
  cases hb : q.build d defaults with
  | error e => exact ⟨e, rfl⟩
  | ok b =>
    rcases build_eq_ok hb with ⟨⟨draft, rfl⟩, _⟩ | ⟨c, hc, _⟩
    · cases hx with
      | here hx => exact absurd hx List.not_mem_nil
      | inside hr _ => exact absurd hr List.not_mem_nil
    · exact absurd hunseen ((hc.composes hq).seen hx)

end Query

end

namespace Family

/-- Persons beside whom there are siblings of a person whom no level introduces. -/
def strangers : Query := .select ((Select.of (person 1)).filterBy [.exists false siblings])

theorem strangers_coherent : strangers.Coherent := by
  refine ⟨.of_nodup (List.nodup_singleton 8), fun q hq => ?_⟩
  rw [show q = siblings from List.mem_singleton.mp hq]
  exact households_coherent.inside siblings (List.mem_cons_of_mem _ List.mem_cons_self)

end Family

section

open Family

/-- Two levels down, the outer column is looked up at the two levels around. -/
theorem Query.build_unseen_strangers :
    strangers.Coherent ∧
      (Operand.outer (number 0)).Stands [[person 2], [person 3], [person 1]]
        [strangers.tables] strangers.written ∧
      (Operand.outer (number 0)).Unseen [[person 2], [person 3], [person 1]] ∧
      ∃ e, strangers.build .postgres default = .error e := by
  have hx : (Operand.outer (number 0)).Stands [[person 2], [person 3], [person 1]]
      [strangers.tables] strangers.written := by
    have hsiblings : .subQuery siblings ∈ strangers.written := by
      simp [strangers, Query.written, Select.mem_written_filterBy, Criterion.written]
    have hchildren : .subQuery children ∈ siblings.select.written := by
      simp [siblings, Select.mem_written_filterBy, Criterion.written]
    have hnumber : .outer (number 0) ∈ children.select.written := by
      simp [children, Select.mem_written_filterBy, Criterion.written]
    exact .inside hsiblings (.inside hchildren (.here hnumber))
  have hunseen : (Operand.outer (number 0)).Unseen [[person 2], [person 3], [person 1]] := by
    show ∀ tables ∈ [[person 3], [person 1]], person 0 ∉ tables
    decide
  exact ⟨strangers_coherent, hx, hunseen, build_unseen strangers_coherent hx hunseen _ _⟩

end

namespace Family

/-- A table that has nothing to do with persons. -/
def pet : Table := ⟨9, .plain "pet", none, [⟨.plain "id", .int, false, true, false⟩]⟩

/-- Persons, with a column of another table looked for among the values. -/
def owners (values : List Operand) : Query :=
  .select ((Select.of (person 1)).filterBy [.inList false (.column ⟨pet, (0 : Fin 1)⟩) values])

end Family

section

open Family

/-- With one value the column is refused, and without any value the same query is built. -/
theorem Query.build_unseen_beside_empty :
    (Operand.column ⟨pet, (0 : Fin 1)⟩) ∈ (owners []).operands ∧
      (Operand.column ⟨pet, (0 : Fin 1)⟩).Unseen [(owners []).tables] ∧
      (∃ s events, (owners []).build .postgres default = .ok ⟨.statement s, events⟩ ∧
        s.sql = "select person.id, person.parent, person.name from person where 1 = 0") ∧
      (owners [.parameter ⟨.int 1, .int⟩]).build .postgres default =
        .error (.unknownTable "pet" "id") := by
  refine ⟨?_, ?_, ⟨_, _, rfl, by decide +kernel⟩, rfl⟩
  · simp [owners, Query.operands, Select.operands, Select.criteria, Select.filterBy, Select.of]
  · show ∀ tables ∈ [[person 1]], pet ∉ tables
    decide

end

end SqlCompose
