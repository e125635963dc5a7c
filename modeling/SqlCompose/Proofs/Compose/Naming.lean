import SqlCompose.Proofs.Compose.Tracing
import SqlCompose.Proofs.Query.Coherence
import SqlCompose.Proofs.Scope.Legality
import SqlCompose.Proofs.Sql.Names

/-! Every name that a command writes may be written there, when the names of the tables of its query
may. Names come from tables and from the aliases given to them, and from nowhere else. -/

namespace SqlCompose

open Piece (Named)

theorem Table.Legal.named {t : Table} (h : t.Legal) :
    Named Identifier.Legal (Sql.tablePieces t) :=
  Sql.tablePieces_named h.name h.schema

theorem Table.columns_legal {t : Table} (h : t.Legal) {c : Column} (hc : c ∈ t.columns) :
    c.ident.Legal := by
  obtain ⟨i, _, rfl⟩ := List.mem_map.mp hc
  exact Column.ident_legal h

theorem Table.generatedColumns_legal {t : Table} (h : t.Legal) {c : Column}
    (hc : c ∈ t.generatedColumns) : c.ident.Legal := by
  simp only [generatedColumns] at hc
  split at hc
  · exact columns_legal h (List.mem_of_mem_filter hc)
  · exact columns_legal h (List.mem_of_mem_filter hc)

section

variable {σ : Setting} {p : Position}

theorem Column.qualify_named {c : Column} {levels : List Level} {outer : Bool}
    {n : Sql.ColumnName} (hlevels : ∀ level ∈ levels, level.Legal)
    (h : c.qualify levels outer = .ok n) : Named Identifier.Legal n.pieces := by
  obtain ⟨name, hname, rfl⟩ := qualify_eq_ok_iff.mp h
  obtain ⟨ht, hn⟩ := Level.legal_of_resolve? hlevels hname
  simpa [Sql.ColumnName.pieces] using ⟨hn, Column.ident_legal ht⟩

theorem Table.item_named {t : Table} {level : Level} {i : Sql.TableItem} (hlevel : level.Legal)
    (h : t.item level = .ok i) : Named Identifier.Legal i.pieces := by
  obtain ⟨name, hname, rfl⟩ := item_eq_ok_iff.mp h
  obtain ⟨ht, hn⟩ := hlevel _ (mem_of_lookup hname)
  have htable : Named Identifier.Legal (Sql.tablePieces t) := ht.named
  unfold Sql.TableItem.pieces
  split
  · simpa using htable
  · simpa using ⟨htable, hn⟩

/-- Wherever the select stands, it writes legal names. -/
def Select.ComposesNamed (σ : Setting) (s : Select) : Prop :=
  ∀ p q, p.Legal → s.compose σ p = .ok q → Named Identifier.Legal q.pieces

theorem Sql.Expr.Stems.named_of {os : List Operand} {e : Sql.Expr} (hp : p.Legal)
    (h : e.Stems σ p os) (hbelow : ∀ q, .subQuery q ∈ os → q.select.ComposesNamed σ) :
    Named Identifier.Legal e.pieces := by
  cases h with
  | parameter b => simp [Expr.pieces]
  | column _ hn => exact Column.qualify_named hp.visible hn
  | outer _ hn => exact Column.qualify_named hp.outer hn
  | subQuery hq hs =>
    obtain ⟨_, child, hchild, hs⟩ := SubQuery.compose_eq_ok_iff.mp hs
    rw [Expr.pieces, Piece.named_enclosed]
    exact hbelow _ hq _ _ (hp.enter hchild) hs

theorem Select.composesNamed (σ : Setting) (s : Select) : s.ComposesNamed σ := by
  induction s with
  | step s ih =>
    intro p q hp h
    have hstems := compose_stems h
    obtain ⟨_, items, _, source, hsource, joins, hjoins, _, _, _, _, _, _, rfl⟩ :=
      compose_eq_ok_iff.mp h
    refine Sql.Select.named (fun e he => ?_) fun i hi => ?_
    · exact (hstems e he).named_of hp fun r hr => ih r (mem_subQueries_iff.mpr hr)
    · rcases List.mem_cons.mp hi with rfl | hi
      · exact Table.item_named hp.scope.level hsource
      · obtain ⟨e, he, rfl⟩ := List.mem_map.mp hi
        obtain ⟨j, _, hj⟩ := exists_mem_of_forall₂ hjoins he
        obtain ⟨item, hitem, _, _, rfl⟩ := Join.compose_eq_ok_iff.mp hj
        exact Table.item_named hp.scope.level hitem

theorem Sql.Expr.Stems.named {os : List Operand} {e : Sql.Expr} (hp : p.Legal)
    (h : e.Stems σ p os) : Named Identifier.Legal e.pieces :=
  h.named_of hp fun q _ => q.select.composesNamed σ

theorem Criterion.wherePieces_named (hp : p.Legal) {cs : List Criterion}
    {es : List Sql.Condition} (h : List.Forall₂ (fun c e => c.compose σ p = .ok e) cs es) :
    Named Identifier.Legal (Sql.Condition.wherePieces (Sql.Condition.conjunction? es)) := by
  refine Sql.Condition.named_where fun e he => ?_
  rw [Sql.Condition.collects_operands.conjunction?] at he
  exact (forall_compose_stems h e he).named hp

theorem Assignment.setPieces_named {target : Table} (ht : target.Legal) (hp : p.Legal)
    {as : List Assignment} {items : List Sql.SetItem}
    (h : List.Forall₂ (fun a i => a.composeUpdate σ p target = .ok i) as items) :
    Named Identifier.Legal (Sql.setPieces .qualified items) := by
  refine Sql.setPieces_named (fun e he => ?_) fun c hc => ?_
  · exact ((forall_composeUpdate_places h).operands_stems e he).named hp
  · obtain ⟨i, hi, hc⟩ := List.mem_flatMap.mp hc
    obtain ⟨a, _, hcompose⟩ := exists_mem_of_forall₂ h hi
    obtain ⟨htable, _, _, _, _, rfl⟩ := composeUpdate_eq_ok_iff.mp hcompose
    rw [List.mem_singleton.mp hc]
    exact Column.ident_legal (htable ▸ ht)

namespace OnConflict

variable {target : Table} {o : OnConflict} {items : List Sql.SetItem}

theorem setPieces_named (ht : target.Legal) (hp : p.Legal) {as : List Assignment}
    (has : o.assignments target = .ok as)
    (hitems : List.Forall₂ (fun a i => a.composeUpsert σ p = .ok i) as items)
    (style : Sql.IncomingStyle) : Named Identifier.Legal (Sql.setPieces style items) := by
  refine Sql.setPieces_named (fun e he => ?_) fun c hc => ?_
  · exact ((Assignment.forall_composeUpsert_places hitems).operands_stems e he).named hp
  · have htable := table_of_mem_items has hitems hc
    exact Column.ident_legal (htable ▸ ht)

theorem Form.named (ht : target.Legal) (hp : p.Legal) {rows : List (List Cell)}
    {body : Sql.WriteBody} (h : o.Form σ p target rows items body)
    (hset : ∀ style, Named Identifier.Legal (Sql.setPieces style items)) :
    Named Identifier.Legal body.pieces := by
  have hinserted : ∀ c ∈ target.insertColumns, c.ident.Legal := fun c hc =>
    Table.columns_legal ht (List.mem_of_mem_filter hc)
  have hkeyed : (∀ c ∈ o.keys, c.table = target) →
      ∀ c ∈ o.effectiveKeys target, c.ident.Legal := fun howned c hc =>
    Column.ident_legal (table_of_mem_effectiveKeys howned hc ▸ ht)
  cases h with
  | onConflict _ howned _ =>
    refine Sql.Insert.pieces_named ht.named hinserted fun c hc => ?_
    obtain rfl := Option.some.inj hc
    exact Sql.ConflictClause.onConflict_named (hkeyed howned) (hset _)
  | ignoring _ _ => exact Sql.Insert.pieces_named ht.named hinserted (by simp)
  | onDuplicateKey _ _ =>
    refine Sql.Insert.pieces_named ht.named hinserted fun c hc => ?_
    obtain rfl := Option.some.inj hc
    simpa [Sql.ConflictClause.pieces] using hset _
  | merge _ _ howned hnames =>
    have hsource : ∀ c ∈ o.source target, c.ident.Legal := fun c hc =>
      Table.columns_legal ht (List.mem_of_mem_filter hc)
    refine Sql.Merge.pieces_named ht.named hsource (fun n hn => ?_) (hset _) hinserted
    obtain ⟨c, hc, hq⟩ := exists_mem_of_forall₂ hnames hn
    have hname := Column.qualify_named hp.visible hq
    obtain ⟨_, _, rfl⟩ := Column.qualify_eq_ok_iff.mp hq
    rw [Sql.keyPieces, Piece.named_append, Piece.named_text]
    exact ⟨hname, Sql.incomingPieces_named (hkeyed howned c hc)⟩

end OnConflict

theorem InsertQuery.composeBody_named {q : InsertQuery} (ht : q.target.Legal)
    (hp : (Position.root (.ofTarget q.target q.subQueries)).Legal) {rows : List (List Cell)}
    {body : Sql.WriteBody} (h : q.composeBody σ rows = .ok body) :
    Named Identifier.Legal body.pieces := by
  unfold composeBody at h
  cases hc : q.conflict with
  | none =>
    rw [hc, pure_eq_ok_iff] at h
    rw [← h]
    exact Sql.Insert.pieces_named ht.named
      (fun c hc => Table.columns_legal ht (List.mem_of_mem_filter hc)) (by simp)
  | some conflict =>
    rw [hc] at h
    obtain ⟨as, has, items, hitems, hform⟩ := OnConflict.compose_eq_ok_iff.mp h
    exact hform.named ht hp (OnConflict.setPieces_named ht hp has hitems)

end

namespace Query

/-- The tables of the query may be written, those of nested selects included. -/
structure Legal (q : Query) : Prop where
  here : ∀ t ∈ q.tables, t.Legal
  inside : ∀ r ∈ q.subQueries, r.select.Legal

theorem Legal.root {q : Query} (h : q.Legal) : (Position.root q.scope).Legal := by
  refine ⟨?_, fun _ hl => absurd hl List.not_mem_nil⟩
  show q.scope.Legal
  rw [scope_eq_grow]
  exact ScopeTree.grow_legal h.here (fun r hr => Select.scope_legal (h.inside r hr)) []

theorem Composed.named {d : Dialect} {defaults : QueryOptions} {q : Query} {c : Sql.Command}
    (hq : q.Legal) (h : q.Composed d defaults c) : Named Identifier.Legal c.pieces := by
  have hroot := hq.root
  cases h with
  | @select s t h => exact s.composesNamed _ _ _ hroot h
  | @update q u h =>
    have ht : q.target.Legal := hq.here _ List.mem_cons_self
    obtain ⟨items, hitems, conditions, hconditions, rfl⟩ := UpdateQuery.compose_eq_ok h
    exact Sql.Update.pieces_named ht.named (Assignment.setPieces_named ht hroot hitems)
      (Criterion.wherePieces_named hroot hconditions)
  | @delete q u h =>
    have ht : q.target.Legal := hq.here _ List.mem_cons_self
    obtain ⟨conditions, hconditions, rfl⟩ := DeleteQuery.compose_eq_ok h
    exact Sql.Delete.pieces_named ht.named (Criterion.wherePieces_named hroot hconditions)
  | @insert draft rows cells w _ h =>
    have ht : draft.query.target.Legal := hq.here _ List.mem_cons_self
    obtain ⟨hbody, hreturning⟩ := InsertQuery.compose_eq_ok h
    refine Sql.Write.pieces_named (InsertQuery.composeBody_named ht hroot hbody) ?_
    intro cs hcs c hc
    rw [hreturning] at hcs
    obtain ⟨_, rfl⟩ : draft.query.returning = true ∧ draft.query.target.generatedColumns = cs := by
      simpa using hcs
    exact Table.generatedColumns_legal ht hc

end Query

end SqlCompose
