import Mathlib.Data.List.FinRange
import SqlCompose.Proofs.Compose.Commands
import SqlCompose.Proofs.Scope.Levels
import SqlCompose.Proofs.Sql.Containment
import SqlCompose.Proofs.Sql.Names
import SqlCompose.Proofs.Sql.Values

/-! What an upsert says, whichever family spells it: the columns of a new row, what a row that exists
already is given, and the rows that come in. -/

namespace SqlCompose

namespace Table

theorem mem_columns_iff {t : Table} {c : Column} : c ∈ t.columns ↔ c.table = t := by
  constructor
  · intro h
    obtain ⟨i, _, rfl⟩ := List.mem_map.mp h
    rfl
  · rintro rfl
    exact List.mem_map.mpr ⟨c.index, List.mem_finRange _, rfl⟩

theorem nodup_columns (t : Table) : t.columns.Nodup :=
  (List.nodup_finRange _).map fun _ _ h => by simpa using h

theorem map_definition_columns (t : Table) :
    t.columns.map Column.definition = t.definition.columns := by
  rw [columns, List.map_map]
  exact List.map_get_finRange t.definition.columns

theorem mem_insertColumns_iff {t : Table} {c : Column} :
    c ∈ t.insertColumns ↔ c.table = t ∧ c.definition.identity = false := by
  rw [insertColumns, List.mem_filter, mem_columns_iff, Bool.not_eq_true']

end Table

namespace Sql.WriteBody

/-- The columns of a new row. -/
def columns : WriteBody → List Column
  | .insert i => i.columns
  | .merge m => m.columns

/-- What a row that exists already is given. -/
def items : WriteBody → List SetItem
  | .insert i =>
    match i.conflict with
    | some (.onConflict _ items) => items
    | some (.onDuplicateKey items) => items
    | none => []
  | .merge m => m.items

def rows : WriteBody → List (List Bound)
  | .insert i => i.rows
  | .merge m => m.rows

/-- The columns that the rows have values for. -/
def rowColumns : WriteBody → List Column
  | .insert i => i.columns
  | .merge m => m.source

/-- The rows beside the list of their columns. -/
def rowClause : WriteBody → List Piece
  | .insert i => columnList i.columns ++ .text " values " :: rowPieces i.rows
  | .merge m => rowPieces m.rows ++ .text ") as excluded " :: columnList m.source

/-- How incoming values are referred to. -/
def style : WriteBody → IncomingStyle
  | .insert ⟨_, _, _, _, some (.onDuplicateKey _)⟩ => .valuesFunction
  | _ => .qualified

theorem items_operands_subset (b : WriteBody) :
    b.items.flatMap SetItem.operands ⊆ b.operands := by
  cases b with
  | insert i =>
    obtain ⟨ignoring, table, columns, rows, conflict⟩ := i
    match conflict with
    | none => exact List.nil_subset _
    | some (.onConflict keys items) => exact List.Subset.refl _
    | some (.onDuplicateKey items) => exact List.Subset.refl _
  | merge m => exact List.subset_append_right _ _

end Sql.WriteBody

namespace Sql

section

open List (infix_rfl infix_cons infix_append_of_infix_left infix_append_of_infix_right)

theorem WriteBody.infix_columns (b : WriteBody) : columnList b.columns <:+: b.pieces := by
  cases b with
  | insert i =>
    iterate 2 refine infix_append_of_infix_left ?_
    exact infix_append_of_infix_right (infix_cons infix_rfl)
  | merge m =>
    iterate 2 refine infix_append_of_infix_left ?_
    exact infix_append_of_infix_right (infix_cons infix_rfl)

theorem WriteBody.infix_item {b : WriteBody} {i : SetItem} (h : i ∈ b.items) :
    i.pieces b.style <:+: b.pieces := by
  cases b with
  | insert insert =>
    obtain ⟨ignoring, table, columns, rows, conflict⟩ := insert
    match conflict with
    | some (.onConflict keys items) =>
      exact (ConflictClause.infix_onConflict h keys).trans (Insert.infix_conflict _ _ _ _ _)
    | some (.onDuplicateKey items) =>
      exact (ConflictClause.infix_onDuplicateKey h).trans (Insert.infix_conflict _ _ _ _ _)
    | none => exact absurd h List.not_mem_nil
  | merge m => exact Merge.infix_item h

end

theorem SetItem.values_pieces (style : IncomingStyle) (i : SetItem) :
    Piece.values (i.pieces style) = i.values := by
  obtain ⟨target, source⟩ := i
  cases source with
  | expr e => rfl
  | incoming c => cases style <;> rfl

theorem values_setPieces (style : IncomingStyle) (items : List SetItem) :
    Piece.values (setPieces style items) = items.flatMap SetItem.values := by
  rw [setPieces, Piece.values_separated, List.flatMap_map]
  exact List.flatMap_congr fun i _ => i.values_pieces style

theorem values_setClause {ps : List Piece} (hps : Piece.values ps = []) (lead : String)
    (style : IncomingStyle) (items : List SetItem) :
    Piece.values (if items.isEmpty then ps else .text lead :: setPieces style items) =
      items.flatMap SetItem.values := by
  by_cases h : items.isEmpty = true
  · rw [if_pos h, List.isEmpty_iff.mp h, hps]
    rfl
  · rw [if_neg h, Piece.values_cons_text, values_setPieces]

theorem ConflictClause.values_onConflict (keys : List Column) (items : List SetItem) :
    Piece.values (onConflict keys items).pieces = items.flatMap SetItem.values := by
  have hkeys : Piece.values (if keys.isEmpty then [] else .text " " :: columnList keys) = [] := by
    by_cases h : keys.isEmpty = true
    · rw [if_pos h]
      rfl
    · rw [if_neg h, Piece.values_cons_text, values_columnList]
  rw [pieces, List.cons_append, Piece.values_cons_text, Piece.values_append, hkeys,
    List.nil_append, values_setClause rfl]

theorem WriteBody.values_rowClause (b : WriteBody) :
    Piece.values b.rowClause = b.rows.flatten := by
  cases b <;> simp [rowClause, rows, Piece.values_append, values_rowPieces, values_columnList]

/-- Nothing is bound before the rows, and only `set` items are bound after them. -/
theorem WriteBody.pieces_eq_rowClause (b : WriteBody) :
    ∃ before after, b.pieces = before ++ b.rowClause ++ after ∧ Piece.values before = [] ∧
      Piece.values after = b.items.flatMap SetItem.values := by
  cases b with
  | insert i =>
    obtain ⟨ignoring, table, columns, rows, conflict⟩ := i
    have hbefore : Piece.values (.text (if ignoring then "insert ignore into " else "insert into ")
        :: tablePieces table ++ [.text " "]) = [] := by simp [Piece.values_append]
    cases conflict with
    | none => exact ⟨_, [], by simp [pieces, Insert.pieces, rowClause], hbefore, rfl⟩
    | some clause =>
      refine ⟨_, clause.pieces, by simp [pieces, Insert.pieces, rowClause], hbefore, ?_⟩
      cases clause with
      | onConflict keys items => exact ConflictClause.values_onConflict keys items
      | onDuplicateKey items => exact values_setPieces .valuesFunction items
  | merge m =>
    obtain ⟨table, source, rows, keys, items, columns, terminated⟩ := m
    refine ⟨.text "merge into " :: tablePieces table ++ [.text " using (values "],
      .text " on (" :: Piece.separated " and " (keys.map keyPieces) ++ .text ")" ::
        (if items.isEmpty then []
          else .text " when matched then update set " :: setPieces .qualified items) ++
        .text " when not matched then insert " :: columnList columns ++ .text " values " ::
        Piece.enclosed (Piece.separated ", " (columns.map (incomingPieces .qualified))) ++
        if terminated then [.text ";"] else [],
      by simp [pieces, Merge.pieces, rowClause], by simp [Piece.values_append], ?_⟩
    have hcolumns : columns.flatMap (fun c => Piece.values (incomingPieces .qualified c)) = [] :=
      List.flatMap_eq_nil_iff.mpr fun _ _ => rfl
    have hkeys : keys.flatMap (fun n => Piece.values (keyPieces n)) = [] :=
      List.flatMap_eq_nil_iff.mpr fun _ _ => rfl
    have hend : Piece.values (if terminated then [.text ";"] else []) = [] := by
      cases terminated <;> rfl
    simp only [WriteBody.items, Piece.values_append, Piece.values_cons_text, values_columnList,
      Piece.values_separated, Piece.values_enclosed, List.flatMap_map, hkeys, hcolumns, hend,
      values_setClause Piece.values_nil, List.nil_append, List.append_nil, List.cons_append]

/-- The rows are bound before the `set` items in every family. -/
theorem WriteBody.values_pieces (b : WriteBody) :
    Piece.values b.pieces = b.rows.flatten ++ b.items.flatMap SetItem.values := by
  obtain ⟨before, after, hpieces, hbefore, hafter⟩ := b.pieces_eq_rowClause
  rw [hpieces, Piece.values_append, Piece.values_append, hbefore, hafter, values_rowClause,
    List.nil_append]

theorem Write.values_pieces (w : Write) : Piece.values w.pieces = Piece.values w.body.pieces := by
  obtain ⟨body, returning⟩ := w
  cases returning with
  | none => simp [pieces]
  | some columns => simp [pieces, Piece.values_append, List.flatMap_map]

end Sql

namespace OnConflict

variable {σ : Setting} {p : Position} {target : Table} {rows : List (List Cell)} {o : OnConflict}

theorem table_of_mem_effectiveKeys (howned : ∀ c ∈ o.keys, c.table = target) {c : Column}
    (hc : c ∈ o.effectiveKeys target) : c.table = target := by
  unfold effectiveKeys at hc
  by_cases h : o.keys.isEmpty = true
  · rw [if_pos h] at hc
    exact Table.mem_columns_iff.mp (List.mem_filter.mp hc).1
  · rw [if_neg h] at hc
    exact howned c hc

/-- The `set` items write columns of the table and read incoming values of its columns. -/
theorem table_of_mem_items {as : List Assignment} {items : List Sql.SetItem}
    (has : o.assignments target = .ok as)
    (hitems : List.Forall₂ (fun a i => a.composeUpsert σ p = .ok i) as items) {c : Column}
    (hc : c ∈ items.flatMap Sql.SetItem.columns) : c.table = target := by
  obtain ⟨i, hi, hc⟩ := List.mem_flatMap.mp hc
  obtain ⟨a, ha, hcompose⟩ := exists_mem_of_forall₂ hitems hi
  obtain ⟨hcolumn, hincoming⟩ := assignments_eq_ok has ha
  have hwritten : a.column.table = target := by
    rcases hcolumn with hset | ⟨_, _, _, htable⟩
    · obtain ⟨x, hx, rfl⟩ := List.mem_map.mp hset
      exact (Table.mem_insertColumns_iff.mp hx).1
    · exact htable
  rcases Assignment.composeUpsert_eq_ok_iff.mp hcompose with ⟨_, _, _, _, rfl⟩ | ⟨x, hx, rfl⟩
  · rw [List.mem_singleton.mp hc]
    exact hwritten
  · rcases List.mem_pair.mp hc with rfl | rfl
    · exact hwritten
    · rcases hincoming c hx with htable | hmem
      · exact htable
      · exact (Table.mem_insertColumns_iff.mp hmem).1

/-- The columns of the incoming rows of a `merge`. -/
def source (target : Table) (o : OnConflict) : List Column :=
  target.columns.filter fun c => c ∈ target.insertColumns || c ∈ o.effectiveKeys target

theorem mem_source_iff {c : Column} :
    c ∈ o.source target ↔
      c.table = target ∧ (c.definition.identity = false ∨ c ∈ o.effectiveKeys target) := by
  rw [source, List.mem_filter, Table.mem_columns_iff, Bool.or_eq_true, decide_eq_true_iff,
    decide_eq_true_iff, Table.mem_insertColumns_iff]
  tauto

theorem composeMerge_eq_ok_iff {terminated : Bool} {body : Sql.WriteBody} :
    o.composeMerge σ p terminated target rows = .ok body ↔
      (o.effectiveKeys target ≠ [] ∧ ∀ c ∈ o.keys, c.table = target) ∧
        ∃ as, o.assignments target = .ok as ∧
          ∃ names, (o.effectiveKeys target).mapM (·.qualify p.visible false) = .ok names ∧
            ∃ items, as.mapM (·.composeUpsert σ p) = .ok items ∧
              .merge ⟨target, o.source target, rows.map (rowValues (o.source target)), names, items,
                target.insertColumns, terminated⟩ = body := by
  simp only [composeMerge, bind_eq_ok_iff, pure_eq_ok_iff, check_eq_ok_iff, keyColumns_eq_ok_iff,
    List.isEmpty_iff]
  constructor
  · rintro ⟨_, ⟨rfl, howned⟩, hkeys, as, has, names, hnames, items, hitems, rfl⟩
    exact ⟨⟨hkeys, howned⟩, as, has, names, hnames, items, hitems, rfl⟩
  · rintro ⟨⟨hkeys, howned⟩, as, has, names, hnames, items, hitems, rfl⟩
    exact ⟨_, ⟨rfl, howned⟩, hkeys, as, has, names, hnames, items, hitems, rfl⟩

/-- Without explicit assignments a row that exists already is given nothing or incoming values. -/
theorem assignments_eq_assigned {q : InsertQuery} {as : List Assignment}
    (hq : q.conflict = some o) (h : o.assignments q.target = .ok as) :
    as = q.assigned ∨
      q.assigned = [] ∧ ∃ cs ⊆ q.target.insertColumns, as = cs.map Assignment.setIncoming := by
  obtain ⟨keys, policy⟩ := o
  rw [InsertQuery.assigned, hq]
  match policy with
  | .ignore => exact .inl (Except.ok.inj h).symm
  | .update .allColumns =>
    obtain ⟨keys, _, has⟩ := bind_eq_ok_iff.mp h
    exact .inr ⟨rfl, _, List.filter_subset_self _, (pure_eq_ok_iff.mp has).symm⟩
  | .update (.assignments items) =>
    obtain ⟨_, _, has⟩ := bind_eq_ok_iff.mp h
    exact .inl (pure_eq_ok_iff.mp has).symm

/-- The families of upserts, with what each of them writes from the keys and the `set` items. -/
inductive Form (σ : Setting) (p : Position) (target : Table) (rows : List (List Cell))
    (o : OnConflict) (items : List Sql.SetItem) : Sql.WriteBody → Prop where
  | onConflict (hs : σ.dialect.conflict = .onConflict) (howned : ∀ c ∈ o.keys, c.table = target)
      (hkeys : o.checkKeys target (o.effectiveKeys target) = .ok ()) :
      Form σ p target rows o items (.insert ⟨false, target, target.insertColumns,
        rows.map (rowValues target.insertColumns),
        some (.onConflict (o.effectiveKeys target) items)⟩)
  | ignoring (hs : σ.dialect.conflict = .onDuplicateKey) (hitems : items = []) :
      Form σ p target rows o items (.insert ⟨true, target, target.insertColumns,
        rows.map (rowValues target.insertColumns), none⟩)
  | onDuplicateKey (hs : σ.dialect.conflict = .onDuplicateKey) (hitems : items ≠ []) :
      Form σ p target rows o items (.insert ⟨false, target, target.insertColumns,
        rows.map (rowValues target.insertColumns), some (.onDuplicateKey items)⟩)
  | merge {terminated : Bool} {names : List Sql.ColumnName}
      (hs : σ.dialect.conflict = .merge terminated) (hkeys : o.effectiveKeys target ≠ [])
      (howned : ∀ c ∈ o.keys, c.table = target)
      (hnames : List.Forall₂ (fun c n => c.qualify p.visible false = .ok n)
        (o.effectiveKeys target) names) :
      Form σ p target rows o items (.merge ⟨target, o.source target,
        rows.map (rowValues (o.source target)), names, items, target.insertColumns, terminated⟩)

theorem compose_eq_ok_iff {body : Sql.WriteBody} :
    o.compose σ p target rows = .ok body ↔
      ∃ as, o.assignments target = .ok as ∧
        ∃ items, List.Forall₂ (fun a i => a.composeUpsert σ p = .ok i) as items ∧
          o.Form σ p target rows items body := by
  constructor
  · intro h
    unfold compose at h
    cases hs : σ.dialect.conflict with
    | onConflict =>
      simp only [hs, composeOnConflict, bind_eq_ok_iff, pure_eq_ok_iff, mapM_eq_ok_iff,
        keyColumns_eq_ok_iff] at h
      obtain ⟨_, ⟨rfl, howned⟩, as, has, _, hkeys, items, hitems, rfl⟩ := h
      exact ⟨as, has, items, hitems, .onConflict hs howned hkeys⟩
    | onDuplicateKey =>
      simp only [hs, composeOnDuplicateKey, bind_eq_ok_iff, pure_eq_ok_iff, mapM_eq_ok_iff] at h
      obtain ⟨as, has, items, hitems, rfl⟩ := h
      refine ⟨as, has, items, hitems, ?_⟩
      by_cases hnone : items.isEmpty = true
      · rw [if_pos hnone]
        exact .ignoring hs (List.isEmpty_iff.mp hnone)
      · rw [if_neg hnone]
        exact .onDuplicateKey hs (mt List.isEmpty_iff.mpr hnone)
    | merge terminated =>
      simp only [hs, composeMerge_eq_ok_iff, mapM_eq_ok_iff] at h
      obtain ⟨⟨hkeys, howned⟩, as, has, names, hnames, items, hitems, rfl⟩ := h
      exact ⟨as, has, items, hitems, .merge hs hkeys howned hnames⟩
    | absent => simp [hs] at h
  · rintro ⟨as, has, items, hitems, hform⟩
    unfold compose
    cases hform with
    | onConflict hs howned hkeys =>
      simp only [hs, composeOnConflict, bind_eq_ok_iff, pure_eq_ok_iff, mapM_eq_ok_iff,
        keyColumns_eq_ok_iff]
      exact ⟨_, ⟨rfl, howned⟩, as, has, (), hkeys, items, hitems, rfl⟩
    | ignoring hs hnone =>
      simp only [hs, composeOnDuplicateKey, bind_eq_ok_iff, pure_eq_ok_iff, mapM_eq_ok_iff]
      exact ⟨as, has, items, hitems, if_pos (List.isEmpty_iff.mpr hnone)⟩
    | onDuplicateKey hs hsome =>
      simp only [hs, composeOnDuplicateKey, bind_eq_ok_iff, pure_eq_ok_iff, mapM_eq_ok_iff]
      exact ⟨as, has, items, hitems, if_neg (mt List.isEmpty_iff.mp hsome)⟩
    | merge hs hkeys howned hnames =>
      simp only [hs, composeMerge_eq_ok_iff, mapM_eq_ok_iff]
      exact ⟨⟨hkeys, howned⟩, as, has, _, hnames, items, hitems, rfl⟩

theorem Form.columns {items : List Sql.SetItem} {body : Sql.WriteBody}
    (h : o.Form σ p target rows items body) : body.columns = target.insertColumns := by
  cases h <;> rfl

theorem Form.items {items : List Sql.SetItem} {body : Sql.WriteBody}
    (h : o.Form σ p target rows items body) : body.items = items := by
  cases h with
  | ignoring _ hitems => exact hitems.symm
  | _ => rfl

theorem Form.style {items : List Sql.SetItem} {body : Sql.WriteBody}
    (h : o.Form σ p target rows items body) (hd : σ.dialect.conflict ≠ .onDuplicateKey) :
    body.style = .qualified := by
  cases h with
  | onDuplicateKey hs _ => exact absurd hs hd
  | _ => rfl

end OnConflict

/-- A new row has the inserted columns, and the `set` items are the explicit assignments or else stand
for incoming values. -/
theorem InsertQuery.composeBody_items {σ : Setting} {q : InsertQuery} {rows : List (List Cell)}
    {body : Sql.WriteBody} (h : q.composeBody σ rows = .ok body) :
    body.columns = q.target.insertColumns ∧ ∃ as, List.Forall₂ (fun a i =>
        a.composeUpsert σ (.root (.ofTarget q.target q.subQueries)) = .ok i) as body.items ∧
      (as = q.assigned ∨
        q.assigned = [] ∧ ∃ cs ⊆ q.target.insertColumns, as = cs.map Assignment.setIncoming) := by
  unfold composeBody at h
  cases hq : q.conflict with
  | none =>
    rw [hq, pure_eq_ok_iff] at h
    subst h
    exact ⟨rfl, [], .nil, .inl (by rw [assigned, hq])⟩
  | some o =>
    rw [hq] at h
    obtain ⟨as, has, items, hitems, hform⟩ := OnConflict.compose_eq_ok_iff.mp h
    exact ⟨hform.columns, as, hform.items.symm ▸ hitems, OnConflict.assignments_eq_assigned hq has⟩

end SqlCompose
