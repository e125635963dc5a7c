import SqlCompose.Proofs.Renaming.Composing

/-! Updates, deletes and inserts under other numbers. Whether a column belongs to the written table,
which columns an insert writes and which of them are keys is decided by comparing numbers only. -/

namespace SqlCompose

theorem Table.filter_columns_rename (ρ : Renaming) (t : Table) (f : ColumnDef → Bool) :
    (t.rename ρ).columns.filter (fun c => f c.definition) =
      (t.columns.filter fun c => f c.definition).map (Column.rename ρ) := by
  rw [columns_rename, List.filter_map]
  rfl

section

variable {ρ : Renaming}

theorem Column.mem_map_rename {c : Column} {cs : List Column} :
    c.rename ρ ∈ cs.map (Column.rename ρ) ↔ c ∈ cs := List.mem_map_of_injective rename_injective

theorem Column.table_rename_eq_iff {c : Column} {t : Table} :
    (c.rename ρ).table = t.rename ρ ↔ c.table = t := Table.rename_injective.eq_iff

namespace Table

theorem insertColumns_rename (t : Table) :
    (t.rename ρ).insertColumns = t.insertColumns.map (Column.rename ρ) :=
  t.filter_columns_rename ρ (!·.identity)

theorem keyColumns_rename (t : Table) :
    (t.rename ρ).keyColumns = t.keyColumns.map (Column.rename ρ) :=
  t.filter_columns_rename ρ (·.primaryKey)

theorem generatedColumns_rename (ρ : Renaming) (t : Table) :
    (t.rename ρ).generatedColumns = t.generatedColumns.map (Column.rename ρ) := by
  have hidentity := t.filter_columns_rename ρ (·.identity)
  simp only [generatedColumns, hidentity, keyColumns_rename, List.isEmpty_map]
  by_cases h : (t.columns.filter fun c => c.definition.identity).isEmpty = true
  · rw [if_pos h, if_pos h]
  · rw [if_neg h, if_neg h]

theorem nullRow_rename (t : Table) : (t.rename ρ).nullRow = t.nullRow := by
  rw [nullRow, nullRow, columns_rename, List.map_map]
  rfl

end Table

def Cell.rename (ρ : Renaming) (c : Cell) : Cell := ⟨c.column.rename ρ, c.value⟩

theorem Cell.check_rename (column : Column) (value : Value) :
    Recomposed (fun c c' => c' = c.rename ρ) (check column value)
      (check (column.rename ρ) value) := by
  have htype : (column.rename ρ).type = column.type := rfl
  unfold check
  cases value.type? with
  | none => exact .ok rfl
  | some type =>
    by_cases h : type = column.type
    · simp only [htype, h, if_true]
      exact .ok rfl
    · simp only [htype, h, if_false]
      exact .error (by simp [Error.Drafting])

theorem forall₂_eq_map {α β : Type} {f : α → β} {xs : List α} {ys : List β}
    (h : List.Forall₂ (fun x y => y = f x) xs ys) : ys = xs.map f := by
  induction h with
  | nil => rfl
  | cons hxy _ ih => rw [List.map_cons, hxy, ih]

theorem Table.bindRow_rename (t : Table) (row : List Value) :
    Recomposed (fun cs cs' => cs' = cs.map (Cell.rename ρ)) (t.bindRow row)
      ((t.rename ρ).bindRow row) := by
  have hzip : (t.columns.map (Column.rename ρ)).zip row =
      (t.columns.zip row).map fun x => (x.1.rename ρ, x.2) := List.zip_map_left
  have hlength : (t.rename ρ).columns.length = t.columns.length := by
    rw [columns_rename, List.length_map]
  unfold bindRow
  rw [hlength]
  by_cases h : row.length = t.columns.length
  · rw [if_pos h, if_pos h, columns_rename, hzip]
    have hcells : Recomposed (List.Forall₂ fun c c' => c' = c.rename ρ)
        ((t.columns.zip row).mapM fun x => Cell.check x.1 x.2)
        (((t.columns.zip row).map fun x => (x.1.rename ρ, x.2)).mapM
          fun x => Cell.check x.1 x.2) :=
      .mapM_map fun x _ => Cell.check_rename x.1 x.2
    exact hcells.imp fun _ _ => forall₂_eq_map
  · rw [if_neg h, if_neg h]
    exact .error (by simp [Error.Drafting])

theorem rowValues_rename (columns : List Column) (row : List Cell) :
    rowValues (columns.map (Column.rename ρ)) (row.map (Cell.rename ρ)) =
      rowValues columns row := by
  have hmem : ∀ c : Cell, decide ((c.rename ρ).column ∈ columns.map (Column.rename ρ)) =
      decide (c.column ∈ columns) := fun c => decide_eq_decide.mpr Column.mem_map_rename
  rw [rowValues, rowValues, List.filter_map, List.map_map]
  simp only [Function.comp_def, hmem]
  rfl

theorem rows_rename (columns : List Column) (rows : List (List Cell)) :
    (rows.map (List.map (Cell.rename ρ))).map (rowValues (columns.map (Column.rename ρ))) =
      rows.map (rowValues columns) := by
  rw [List.map_map]
  exact List.map_congr_left fun row _ => rowValues_rename columns row

namespace Sql

theorem columnList_rename (columns : List Column) :
    columnList (columns.map (Column.rename ρ)) = columnList columns := by
  rw [columnList, columnList, List.map_map]
  rfl

/-- Items that are printed alike in either style. -/
def SetItem.Alike (i j : SetItem) : Prop := ∀ style, i.pieces style = j.pieces style

variable {items items' : List SetItem}

theorem setPieces_eq (h : List.Forall₂ SetItem.Alike items items') (style : IncomingStyle) :
    setPieces style items = setPieces style items' := by
  rw [setPieces, setPieces, Printed.map_eq (h.imp fun _ _ hi => hi style)]

theorem isEmpty_eq (h : List.Forall₂ SetItem.Alike items items') :
    items.isEmpty = items'.isEmpty := by
  cases h <;> rfl

theorem ConflictClause.onConflict_rename (ρ : Renaming) (keys : List Column)
    (h : List.Forall₂ SetItem.Alike items items') :
    (ConflictClause.onConflict keys items).pieces =
      (ConflictClause.onConflict (keys.map (Column.rename ρ)) items').pieces := by
  simp only [pieces, List.isEmpty_map, columnList_rename, isEmpty_eq h, setPieces_eq h]

theorem ConflictClause.onDuplicateKey_alike (h : List.Forall₂ SetItem.Alike items items') :
    (ConflictClause.onDuplicateKey items).pieces =
      (ConflictClause.onDuplicateKey items').pieces := by
  simp only [pieces, setPieces_eq h]

theorem Insert.pieces_rename (ignoring : Bool) (table : Table) (columns : List Column)
    (rows : List (List Bound)) {conflict conflict' : Option ConflictClause}
    (h : conflict.map ConflictClause.pieces = conflict'.map ConflictClause.pieces) :
    Insert.pieces ⟨ignoring, table, columns, rows, conflict⟩ =
      Insert.pieces ⟨ignoring, table.rename ρ, columns.map (Column.rename ρ), rows,
        conflict'⟩ := by
  have htable : tablePieces (table.rename ρ) = tablePieces table := rfl
  simp only [pieces, htable, columnList_rename]
  cases conflict with
  | none =>
    cases conflict' with
    | none => rfl
    | some _ => simp at h
  | some c =>
    cases conflict' with
    | none => simp at h
    | some c' =>
      have hclause : c.pieces = c'.pieces := by simpa using h
      simp only [hclause]

theorem Merge.pieces_rename (table : Table) (source columns : List Column)
    (rows : List (List Bound)) {keys keys' : List ColumnName}
    (hkeys : List.Forall₂ (Printed keyPieces) keys keys')
    (hitems : List.Forall₂ SetItem.Alike items items') (terminated : Bool) :
    Merge.pieces ⟨table, source, rows, keys, items, columns, terminated⟩ =
      Merge.pieces ⟨table.rename ρ, source.map (Column.rename ρ), rows, keys', items',
        columns.map (Column.rename ρ), terminated⟩ := by
  have htable : tablePieces (table.rename ρ) = tablePieces table := rfl
  have hincoming : (columns.map (Column.rename ρ)).map (incomingPieces .qualified) =
      columns.map (incomingPieces .qualified) := by
    rw [List.map_map]
    rfl
  simp only [pieces, htable, columnList_rename, Printed.map_eq hkeys, isEmpty_eq hitems,
    setPieces_eq hitems, hincoming]

theorem Write.pieces_rename (ρ : Renaming) {body body' : WriteBody}
    (h : body.pieces = body'.pieces) (returning : Option (List Column)) :
    Write.pieces ⟨body, returning⟩ =
      Write.pieces ⟨body', returning.map (List.map (Column.rename ρ))⟩ := by
  cases returning with
  | none => simp only [pieces, h, Option.map_none]
  | some columns =>
    have hnames : (columns.map (Column.rename ρ)).map (fun c => [Piece.name c.ident]) =
        columns.map fun c => [Piece.name c.ident] := by
      rw [List.map_map]
      rfl
    simp only [pieces, h, Option.map_some, hnames]

end Sql

section

variable {σ : Setting} {p : Position}

theorem Assignment.composeUpdate_rename (target : Table) (a : Assignment) :
    Recomposed Sql.SetItem.Alike (a.composeUpdate σ p target)
      ((a.rename ρ).composeUpdate σ (p.rename ρ) (target.rename ρ)) := by
  obtain ⟨column, value⟩ := a
  have howned : column.table ≠ target ↔ (column.rename ρ).table ≠ target.rename ρ :=
    not_congr Column.table_rename_eq_iff.symm
  refine .check howned (by simp [Error.Drafting]) ?_
  cases value with
  | operand o =>
    refine (Operand.compose_rename fun q _ => q.select.renames ρ σ).bind fun e e' he =>
      .ok fun style => ?_
    simp only [Sql.SetItem.pieces, he]
    rfl
  | incoming c => exact .error (by simp [Error.Drafting])

theorem Assignment.composeUpsert_rename (a : Assignment) :
    Recomposed Sql.SetItem.Alike (a.composeUpsert σ p)
      ((a.rename ρ).composeUpsert σ (p.rename ρ)) := by
  obtain ⟨column, value⟩ := a
  cases value with
  | operand o =>
    refine (Operand.compose_rename fun q _ => q.select.renames ρ σ).bind fun e e' he =>
      .ok fun style => ?_
    simp only [Sql.SetItem.pieces, he]
    rfl
  | incoming c => exact .ok fun style => by cases style <;> rfl

theorem Criterion.composeWhere_rename (cs : List Criterion) :
    Recomposed (Printed Sql.Condition.wherePieces) (composeWhere σ p cs)
      (composeWhere σ (p.rename ρ) (cs.map (rename ρ))) :=
  (composeAll_rename fun q _ => q.select.renames ρ σ).bind fun _ _ hes =>
    .ok (Sql.Condition.wherePieces_conjunction? hes)

namespace OnConflict

variable (target : Table) (o : OnConflict)

theorem checkOwned_rename (c : Column) :
    Recomposed Eq (checkOwned target c) (checkOwned (target.rename ρ) (c.rename ρ)) := by
  unfold checkOwned
  by_cases h : c.table = target
  · rw [if_pos h, if_pos (Column.table_rename_eq_iff.mpr h)]
    exact .ok rfl
  · rw [if_neg h, if_neg fun h' => h (Column.table_rename_eq_iff.mp h')]
    exact .error (by simp [Error.Drafting])

theorem keyColumns_rename :
    Recomposed (fun cs cs' => cs' = cs.map (Column.rename ρ)) (o.keyColumns target)
      ((o.rename ρ).keyColumns (target.rename ρ)) := by
  obtain ⟨keys, policy⟩ := o
  simp only [keyColumns, rename, List.isEmpty_map]
  by_cases h : keys.isEmpty = true
  · rw [if_pos h, if_pos h]
    exact .ok target.keyColumns_rename
  · rw [if_neg h, if_neg h]
    exact (Recomposed.forM_map fun c _ => checkOwned_rename target c).bind fun _ _ _ => .ok rfl

theorem setIncoming_rename (columns keys : List Column) :
    ((columns.map (Column.rename ρ)).filter (· ∉ keys.map (Column.rename ρ))).map
        Assignment.setIncoming =
      ((columns.filter (· ∉ keys)).map Assignment.setIncoming).map (Assignment.rename ρ) := by
  have hmem : ∀ c : Column, decide (c.rename ρ ∉ keys.map (Column.rename ρ)) =
      decide (c ∉ keys) := fun c => decide_eq_decide.mpr (not_congr Column.mem_map_rename)
  rw [List.filter_map, List.map_map, List.map_map]
  simp only [Function.comp_def, hmem]
  rfl

theorem assignments_rename :
    Recomposed (fun as as' => as' = as.map (Assignment.rename ρ)) (o.assignments target)
      ((o.rename ρ).assignments (target.rename ρ)) := by
  obtain ⟨keys, policy⟩ := o
  cases policy with
  | ignore => exact .ok rfl
  | update set =>
    cases set with
    | allColumns =>
      refine (keyColumns_rename target ⟨keys, .update .allColumns⟩).bind fun cs cs' hcs => .ok ?_
      rw [hcs, Table.insertColumns_rename]
      exact setIncoming_rename target.insertColumns cs
    | assignments items =>
      refine (Recomposed.forM_map fun a _ => ?_).bind fun _ _ _ => .ok rfl
      refine (checkOwned_rename target a.column).bind fun _ _ _ => ?_
      obtain ⟨column, value⟩ := a
      cases value with
      | operand _ => exact .ok rfl
      | incoming source => exact checkOwned_rename target source

theorem checkKeys_rename (keys : List Column) :
    Recomposed Eq (o.checkKeys target keys)
      ((o.rename ρ).checkKeys (target.rename ρ) (keys.map (Column.rename ρ))) := by
  obtain ⟨known, policy⟩ := o
  have hkeys : ∀ set : UpdateSet,
      Recomposed Eq (OnConflict.checkKeys target keys ⟨known, .update set⟩)
        (OnConflict.checkKeys (target.rename ρ) (keys.map (Column.rename ρ))
          (OnConflict.mk known (.update set))) := fun set => by
    simp only [checkKeys, List.isEmpty_map]
    by_cases h : keys.isEmpty = true
    · rw [if_pos h, if_pos h]
      exact .error (by simp [Error.Drafting])
    · rw [if_neg h, if_neg h]
      exact .ok rfl
  cases policy with
  | ignore => exact .ok rfl
  | update set =>
    cases set with
    | allColumns => exact hkeys .allColumns
    | assignments items => exact hkeys (.assignments items)

theorem mapM_composeUpsert_rename (as : List Assignment) :
    Recomposed (List.Forall₂ Sql.SetItem.Alike) (as.mapM (·.composeUpsert σ p))
      ((as.map (Assignment.rename ρ)).mapM (·.composeUpsert σ (p.rename ρ))) :=
  .mapM_map fun a _ => a.composeUpsert_rename

theorem composeOnConflict_rename (rows : List (List Cell)) :
    Recomposed (Printed Sql.WriteBody.pieces) (o.composeOnConflict σ p target rows)
      ((o.rename ρ).composeOnConflict σ (p.rename ρ) (target.rename ρ)
        (rows.map (List.map (Cell.rename ρ)))) := by
  simp only [composeOnConflict, Table.insertColumns_rename, rows_rename]
  refine (keyColumns_rename target o).bind fun keys _ hkeys => ?_
  subst hkeys
  refine (assignments_rename target o).bind fun as _ has => ?_
  subst has
  refine (checkKeys_rename target o keys).bind fun _ _ _ => ?_
  refine (mapM_composeUpsert_rename as).bind fun items items' hi => .ok ?_
  have hclause := Sql.ConflictClause.onConflict_rename ρ keys hi
  exact Sql.Insert.pieces_rename false target _ _ (congrArg some hclause)

theorem composeOnDuplicateKey_rename (rows : List (List Cell)) :
    Recomposed (Printed Sql.WriteBody.pieces) (o.composeOnDuplicateKey σ p target rows)
      ((o.rename ρ).composeOnDuplicateKey σ (p.rename ρ) (target.rename ρ)
        (rows.map (List.map (Cell.rename ρ)))) := by
  simp only [composeOnDuplicateKey, Table.insertColumns_rename, rows_rename]
  refine (assignments_rename target o).bind fun as _ has => ?_
  subst has
  refine (mapM_composeUpsert_rename as).bind fun items items' hi => .ok ?_
  rw [Sql.isEmpty_eq hi]
  by_cases hempty : items'.isEmpty = true
  · rw [if_pos hempty, if_pos hempty]
    exact Sql.Insert.pieces_rename true target _ _ rfl
  · rw [if_neg hempty, if_neg hempty]
    have hclause := Sql.ConflictClause.onDuplicateKey_alike hi
    exact Sql.Insert.pieces_rename false target _ _ (congrArg some hclause)

theorem composeMerge_rename (terminated : Bool) (rows : List (List Cell)) :
    Recomposed (Printed Sql.WriteBody.pieces) (o.composeMerge σ p terminated target rows)
      ((o.rename ρ).composeMerge σ (p.rename ρ) terminated (target.rename ρ)
        (rows.map (List.map (Cell.rename ρ)))) := by
  simp only [composeMerge, Table.insertColumns_rename]
  refine (keyColumns_rename target o).bind fun keys _ hkeys => ?_
  subst hkeys
  rw [List.isEmpty_map]
  refine .check .rfl (by simp [Error.Drafting]) ?_
  refine (assignments_rename target o).bind fun as _ has => ?_
  subst has
  -- the source is picked by membership, which renaming keeps since it confuses no columns
  have hsource : (target.rename ρ).columns.filter (fun c =>
      decide (c ∈ target.insertColumns.map (Column.rename ρ)) ||
        decide (c ∈ keys.map (Column.rename ρ))) =
      (target.columns.filter fun c =>
        decide (c ∈ target.insertColumns) || decide (c ∈ keys)).map (Column.rename ρ) := by
    rw [Table.columns_rename, List.filter_map]
    simp only [Function.comp_def, Column.mem_map_rename]
  rw [hsource, rows_rename]
  have hnames : Recomposed (List.Forall₂ (Printed Sql.keyPieces))
      (keys.mapM (·.qualify p.visible false))
      ((keys.map (Column.rename ρ)).mapM (·.qualify (p.rename ρ).visible false)) :=
    .mapM_map fun c _ => c.qualify_visible.imp fun n n' hn => by
      simp only [Printed, Sql.keyPieces, hn.2, hn.1]
      rfl
  refine hnames.bind fun names names' hn =>
    (mapM_composeUpsert_rename as).bind fun items items' hi => .ok ?_
  exact Sql.Merge.pieces_rename target _ _ _ hn hi terminated

theorem compose_rename (rows : List (List Cell)) :
    Recomposed (Printed Sql.WriteBody.pieces) (o.compose σ p target rows)
      ((o.rename ρ).compose σ (p.rename ρ) (target.rename ρ)
        (rows.map (List.map (Cell.rename ρ)))) := by
  unfold compose
  cases σ.dialect.conflict with
  | onConflict => exact composeOnConflict_rename target o rows
  | onDuplicateKey => exact composeOnDuplicateKey_rename target o rows
  | merge terminated => exact composeMerge_rename target o terminated rows
  | absent => exact .error (by simp [Error.Drafting])

end OnConflict

end

section

variable {d : Dialect} {options : QueryOptions}

theorem Position.root_rename (target : Table) (qs : List SubQuery) :
    root (.ofTarget (target.rename ρ) (qs.map (SubQuery.rename ρ))) =
      (root (.ofTarget target qs)).rename ρ := by
  rw [ScopeTree.ofTarget_rename]
  rfl

theorem UpdateQuery.compose_rename (q : UpdateQuery) :
    Recomposed (Printed Sql.Update.pieces) (q.compose d options)
      ((q.rename ρ).compose d options) := by
  have hroot : Position.root (.ofTarget (q.rename ρ).target (q.rename ρ).subQueries) =
      (Position.root (.ofTarget q.target q.subQueries)).rename ρ := by
    rw [subQueries_rename]
    exact Position.root_rename q.target q.subQueries
  obtain ⟨target, assignments, filter, own⟩ := q
  simp only [compose, rename, List.isEmpty_map] at *
  refine .check .rfl (by simp [Error.Drafting]) (.check .rfl (by simp [Error.Drafting]) ?_)
  rw [hroot]
  refine (Recomposed.mapM_map fun a _ => a.composeUpdate_rename target).bind
    fun items items' hitems => ?_
  refine (Criterion.composeWhere_rename filter).bind fun f f' hf => .ok ?_
  have htable : Sql.tablePieces (target.rename ρ) = Sql.tablePieces target := rfl
  simp only [Printed, Sql.Update.pieces, htable, Sql.setPieces_eq hitems, hf]

theorem DeleteQuery.compose_rename (q : DeleteQuery) :
    Recomposed (Printed Sql.Delete.pieces) (q.compose d options)
      ((q.rename ρ).compose d options) := by
  have hroot : Position.root (.ofTarget (q.rename ρ).target (q.rename ρ).subQueries) =
      (Position.root (.ofTarget q.target q.subQueries)).rename ρ := by
    rw [subQueries_rename]
    exact Position.root_rename q.target q.subQueries
  obtain ⟨target, filter, own⟩ := q
  simp only [compose, rename, List.isEmpty_map] at *
  refine .check .rfl (by simp [Error.Drafting]) ?_
  rw [hroot]
  refine (Criterion.composeWhere_rename filter).bind fun f f' hf => .ok ?_
  have htable : Sql.tablePieces (target.rename ρ) = Sql.tablePieces target := rfl
  simp only [Printed, Sql.Delete.pieces, htable, hf]

theorem InsertQuery.compose_rename (q : InsertQuery) (rows : List (List Cell)) :
    Recomposed (Printed Sql.Write.pieces) (q.compose d options rows)
      ((q.rename ρ).compose d options (rows.map (List.map (Cell.rename ρ)))) := by
  have hcolumns : (q.rename ρ).target.insertColumns =
      q.target.insertColumns.map (Column.rename ρ) :=
    q.target.insertColumns_rename
  have hbody : Recomposed (Printed Sql.WriteBody.pieces) (q.composeBody (.of d options) rows)
      ((q.rename ρ).composeBody (.of d options) (rows.map (List.map (Cell.rename ρ)))) := by
    have hroot : Position.root (.ofTarget (q.rename ρ).target (q.rename ρ).subQueries) =
        (Position.root (.ofTarget q.target q.subQueries)).rename ρ := by
      rw [subQueries_rename]
      exact Position.root_rename q.target q.subQueries
    obtain ⟨target, conflict, returning, own⟩ := q
    cases conflict with
    | none =>
      simp only [composeBody, rename, Option.map_none] at *
      rw [hcolumns, rows_rename]
      exact .ok (Sql.Insert.pieces_rename false target _ _ rfl)
    | some o =>
      simp only [composeBody, rename, Option.map_some] at *
      rw [hroot]
      exact OnConflict.compose_rename target o rows
  have hempty : q.target.insertColumns.isEmpty = true ↔
      (q.rename ρ).target.insertColumns.isEmpty = true := by
    rw [hcolumns, List.isEmpty_map]
  refine .check hempty (by simp [Error.Drafting]) (hbody.bind fun body body' hb => ?_)
  obtain ⟨target, conflict, returning, own⟩ := q
  cases returning with
  | false => exact .ok (Sql.Write.pieces_rename ρ hb none)
  | true =>
    refine (Setting.require_recomposed _ _ _).bind fun _ _ _ => .ok ?_
    rw [rename, target.generatedColumns_rename ρ]
    exact Sql.Write.pieces_rename ρ hb (some target.generatedColumns)

end

end

end SqlCompose
