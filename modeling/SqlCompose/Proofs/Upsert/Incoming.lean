import SqlCompose.Dialect.Catalog
import SqlCompose.Proofs.Insert.Statements
import SqlCompose.Proofs.Sql.Containment
import SqlCompose.Proofs.Table.Lookup
import SqlCompose.Proofs.Upsert.Clauses

/-! The incoming rows of a `merge`. They are declared with the inserted columns and the keys, and the
statement takes columns from them in its condition, in its `set` items and for a new row. -/

namespace SqlCompose

namespace Table

theorem map_ident_columns (t : Table) :
    t.columns.map Column.ident = t.definition.columns.map (·.name) := by
  rw [← map_definition_columns, List.map_map]
  rfl

theorem bindRow_columns {t : Table} {values : List Value} {row : List Cell}
    (h : t.bindRow values = .ok row) : row.map (·.column) = t.columns := by
  unfold bindRow at h
  by_cases hlen : values.length = t.columns.length
  · rw [if_pos hlen, mapM_eq_ok_iff] at h
    have hcells : List.Forall₂ (fun x (cell : Cell) => cell.column = x.1) (t.columns.zip values) row :=
      h.imp fun x cell hx => by
        obtain ⟨_, rfl⟩ := Cell.check_eq_ok_iff.mp hx
        rfl
    have hfst : (t.columns.zip values).map Prod.fst = t.columns :=
      List.map_fst_zip (by omega)
    have hcolumns : List.Forall₂ (· = ·) (row.map (·.column)) ((t.columns.zip values).map Prod.fst) :=
      List.forall₂_map_left_iff.mpr (List.forall₂_map_right_iff.mpr hcells.flip)
    rwa [List.forall₂_eq_eq_eq, hfst] at hcolumns
  · rw [if_neg hlen] at h
    cases h

end Table

theorem map_column_filter {t : Table} {row : List Cell} (hrow : row.map (·.column) = t.columns)
    (P : Column → Bool) :
    (row.filter (·.column ∈ t.columns.filter P)).map (·.column) = t.columns.filter P := by
  have hmembers : t.columns.filter (· ∈ t.columns.filter P) = t.columns.filter P :=
    List.filter_congr fun c hc => by simp [hc]
  calc (row.filter (·.column ∈ t.columns.filter P)).map (·.column)
      = (row.map (·.column)).filter (· ∈ t.columns.filter P) := by
        rw [List.filter_map]
        rfl
    _ = t.columns.filter P := by rw [hrow, hmembers]

theorem rowValues_types {t : Table} {row : List Cell} (hrow : row.map (·.column) = t.columns)
    (P : Column → Bool) :
    (rowValues (t.columns.filter P) row).map (·.type) = (t.columns.filter P).map Column.type := by
  calc (rowValues (t.columns.filter P) row).map (·.type)
      = ((row.filter (·.column ∈ t.columns.filter P)).map (·.column)).map Column.type := by
        rw [rowValues, List.map_map, List.map_map]
        rfl
    _ = (t.columns.filter P).map Column.type := by rw [map_column_filter hrow]

namespace Sql

open List (infix_rfl infix_cons infix_append_of_infix_left infix_append_of_infix_right)

def SetItem.incoming? (i : SetItem) : Option Column :=
  match i.source with
  | .incoming c => some c
  | .expr _ => none

theorem SetItem.incoming?_eq_some_iff {i : SetItem} {c : Column} :
    i.incoming? = some c ↔ i.source = .incoming c := by
  obtain ⟨target, source⟩ := i
  cases source <;> simp [incoming?]

namespace Merge

/-- The columns that the statement takes from the incoming row. -/
def incoming (m : Merge) : List Column :=
  m.keys.map (·.column) ++ m.items.filterMap SetItem.incoming? ++ m.columns

theorem infix_incoming {m : Merge} {c : Column} (h : c ∈ m.incoming) :
    incomingPieces .qualified c <:+: m.pieces := by
  rw [incoming, List.mem_append, List.mem_append] at h
  rcases h with (hkey | hitem) | hcolumn
  · obtain ⟨n, hn, rfl⟩ := List.mem_map.mp hkey
    have hpieces : incomingPieces .qualified n.column <:+: keyPieces n :=
      infix_append_of_infix_right (infix_cons infix_rfl)
    have hkeys := hpieces.trans (Piece.infix_separated " and " (List.mem_map_of_mem hn))
    iterate 4 refine infix_append_of_infix_left ?_
    exact infix_append_of_infix_right (infix_cons hkeys)
  · obtain ⟨i, hi, hc⟩ := List.mem_filterMap.mp hitem
    have hpieces : incomingPieces .qualified c <:+: i.pieces .qualified := by
      rw [SetItem.pieces, SetItem.incoming?_eq_some_iff.mp hc]
      exact infix_cons (infix_cons infix_rfl)
    exact hpieces.trans (infix_item hi)
  · have hvalues := Piece.infix_separated ", "
      (List.mem_map_of_mem (f := incomingPieces .qualified) hcolumn)
    refine infix_append_of_infix_left (infix_append_of_infix_right (infix_cons ?_))
    exact hvalues.trans (Piece.infix_enclosed _)

/-- Every column that the statement takes from the incoming row is declared, once, and the rows have
a value for each declared column. -/
structure Closed (m : Merge) : Prop where
  declared : ∀ c ∈ m.incoming, c ∈ m.source
  nodup : m.source.Nodup
  width : ∀ row ∈ m.rows, row.length = m.source.length

/-- What is declared in any case, and the values that are given for it. -/
structure Declares (m : Merge) : Prop where
  nodup : m.source.Nodup
  types : ∀ row ∈ m.rows, row.map (·.type) = m.source.map Column.type
  keys : ∀ n ∈ m.keys, n.column ∈ m.source
  columns : ∀ c ∈ m.columns, c ∈ m.source

theorem Declares.closed_iff {m : Merge} (h : m.Declares) :
    m.Closed ↔ ∀ c ∈ m.items.filterMap SetItem.incoming?, c ∈ m.source := by
  constructor
  · intro hclosed c hc
    exact hclosed.declared c (List.mem_append_left _ (List.mem_append_right _ hc))
  · intro hitems
    refine ⟨fun c hc => ?_, h.nodup, fun row hrow => ?_⟩
    · rw [incoming, List.mem_append, List.mem_append] at hc
      rcases hc with (hkey | hitem) | hcolumn
      · obtain ⟨n, hn, rfl⟩ := List.mem_map.mp hkey
        exact h.keys n hn
      · exact hitems c hitem
      · exact h.columns c hcolumn
    · simpa using congrArg List.length (h.types row hrow)

end Merge

end Sql

namespace OnConflict

variable {σ : Setting} {p : Position} {target : Table} {rows : List (List Cell)} {o : OnConflict}
  {terminated : Bool}

theorem composeUpsert_incoming_iff {a : Assignment} {i : Sql.SetItem}
    (h : a.composeUpsert σ p = .ok i) (c : Column) :
    i.incoming? = some c ↔ a.value = .incoming c := by
  rw [Sql.SetItem.incoming?_eq_some_iff]
  obtain ⟨column, value⟩ := a
  cases value with
  | operand operand =>
    obtain ⟨e, _, he⟩ := bind_eq_ok_iff.mp h
    obtain rfl := pure_eq_ok_iff.mp he
    simp
  | incoming source =>
    obtain rfl := Except.ok.inj h
    simp

theorem mem_incoming_iff {as : List Assignment} {items : List Sql.SetItem}
    (h : as.mapM (·.composeUpsert σ p) = .ok items) {c : Column} :
    c ∈ items.filterMap Sql.SetItem.incoming? ↔ ∃ a ∈ as, a.value = .incoming c := by
  have hforall := mapM_eq_ok_iff.mp h
  rw [List.mem_filterMap]
  constructor
  · rintro ⟨i, hi, hc⟩
    obtain ⟨a, ha, hai⟩ := exists_mem_of_forall₂ hforall hi
    exact ⟨a, ha, (composeUpsert_incoming_iff hai c).mp hc⟩
  · rintro ⟨a, ha, hc⟩
    obtain ⟨i, hi, hai⟩ := exists_mem_of_mem hforall ha
    exact ⟨i, hi, (composeUpsert_incoming_iff hai c).mpr hc⟩

/-- The columns of explicit `set` items are left out of what is declared. -/
theorem composeMerge_declares (hrows : ∀ row ∈ rows, row.map (·.column) = target.columns)
    {body : Sql.WriteBody} (h : o.composeMerge σ p terminated target rows = .ok body) :
    ∃ m, body = .merge m ∧ m.source = o.source target ∧ m.Declares ∧
      ∃ as, o.assignments target = .ok as ∧
        (m.Closed ↔ ∀ a ∈ as, ∀ c, a.value = .incoming c →
          c.definition.identity = false ∨ c ∈ o.effectiveKeys target) := by
  obtain ⟨⟨_, howned⟩, as, has, names, hnames, items, hitems, rfl⟩ := composeMerge_eq_ok_iff.mp h
  have hdeclares : Sql.Merge.Declares ⟨target, o.source target, rows.map (rowValues (o.source target)),
      names, items, target.insertColumns, terminated⟩ := by
    refine ⟨target.nodup_columns.filter _, fun row hrow => ?_, fun n hn => ?_, fun c hc => ?_⟩
    · obtain ⟨cells, hcells, rfl⟩ := List.mem_map.mp hrow
      exact rowValues_types (hrows cells hcells) _
    · obtain ⟨c, hc, hname⟩ := exists_mem_of_forall₂ (mapM_eq_ok_iff.mp hnames) hn
      obtain ⟨_, _, rfl⟩ := Column.qualify_eq_ok_iff.mp hname
      exact mem_source_iff.mpr ⟨table_of_mem_effectiveKeys howned hc, .inr hc⟩
    · obtain ⟨htable, hidentity⟩ := Table.mem_insertColumns_iff.mp hc
      exact mem_source_iff.mpr ⟨htable, .inl hidentity⟩
  -- a column of the table is declared unless it has an identity and is no key
  refine ⟨_, rfl, rfl, hdeclares, as, has, hdeclares.closed_iff.trans ?_⟩
  have htable : ∀ a ∈ as, ∀ c, a.value = .incoming c → c.table = target := by
    intro a ha c hc
    rcases (assignments_eq_ok has ha).2 c hc with htable | hcolumn
    · exact htable
    · exact (Table.mem_insertColumns_iff.mp hcolumn).1
  constructor
  · intro hall a ha c hc
    exact (mem_source_iff.mp (hall c ((mem_incoming_iff hitems).mpr ⟨a, ha, hc⟩))).2
  · intro hall c hc
    obtain ⟨a, ha, hvalue⟩ := (mem_incoming_iff hitems).mp hc
    exact mem_source_iff.mpr ⟨htable a ha c hvalue, hall a ha c hvalue⟩

theorem nodup_ident_source (h : (target.definition.columns.map (·.name)).Nodup) :
    ((o.source target).map Column.ident).Nodup := by
  rw [← Table.map_ident_columns] at h
  exact (List.filter_sublist.map Column.ident).nodup h

end OnConflict

/-- A `merge` declares the keys and the inserted columns, each once, and has values of their types for
them. It is closed unless an explicit `set` item takes an identity column that is no key. -/
theorem Query.build_merge_closed_iff {d : Dialect} {defaults : QueryOptions} {draft : InsertDraft}
    {rows : Rows} {o : OnConflict} {b : Built Output} {terminated : Bool}
    (hd : d.conflict = .merge terminated) (ho : draft.query.conflict = some o)
    (hrows : rows ≠ .multiple []) (h : (insert draft rows).build d defaults = .ok b) :
    ∃ m returning, (insert draft rows).Composed d defaults (.write ⟨.merge m, returning⟩) ∧
      b.output.Shows d (.write ⟨.merge m, returning⟩) ∧
      (∀ c ∈ m.incoming, Sql.incomingPieces .qualified c <:+: m.pieces) ∧ m.Declares ∧
      ((draft.query.target.definition.columns.map (·.name)).Nodup →
        (m.source.map Column.ident).Nodup) ∧
      ∃ as, o.assignments draft.query.target = .ok as ∧
        (m.Closed ↔ ∀ a ∈ as, ∀ c, a.value = .incoming c →
          c.definition.identity = false ∨ c ∈ o.effectiveKeys draft.query.target) := by
  obtain ⟨cells, w, hcells, hfault, hw, hshows⟩ := build_insert_shows h hrows
  have hbody := (InsertQuery.compose_eq_ok_iff.mp hw).2.2.1
  have hmerge : o.composeMerge (.of d (draft.query.options.getD defaults))
      (.root (.ofTarget draft.query.target draft.query.subQueries)) terminated draft.query.target
      cells = .ok w.body := by
    simpa only [InsertQuery.composeBody, ho, OnConflict.compose, Setting.of, hd] using hbody
  have hfull : ∀ row ∈ cells, row.map (·.column) = draft.query.target.columns := fun row hrow => by
    obtain ⟨values, hvalues⟩ := hcells row hrow
    exact Table.bindRow_columns hvalues
  obtain ⟨m, hm, hsource, hdeclares, as, has, hclosed⟩ :=
    OnConflict.composeMerge_declares hfull hmerge
  obtain ⟨body, returning⟩ := w
  obtain rfl : body = .merge m := hm
  exact ⟨m, returning, .insert hfault hw, hshows, fun _ => Sql.Merge.infix_incoming, hdeclares,
    fun hnames => hsource ▸ OnConflict.nodup_ident_source hnames, as, has, hclosed⟩

namespace Staff

def employee : Table :=
  ⟨0, .plain "employee", none,
    [⟨.plain "id", .int, false, true, true⟩, ⟨.plain "name", .text, false, false, false⟩]⟩

def id : Column := ⟨employee, (0 : Fin 2)⟩

def name : Column := ⟨employee, (1 : Fin 2)⟩

/-- Whose number is known gets the incoming name. -/
def arriving : InsertDraft := .run employee [.onDuplicateKeyUpdate]

/-- Whose name is known gets the incoming number. -/
def renumbering : InsertDraft :=
  .run employee [.onDuplicateKeyUpdate, .conflictKey name, .set [.setIncoming id]]

end Staff

/-- The number is a key, so that it is declared although it is not inserted. -/
theorem Query.build_merge_closed_iff_arriving :
    ∃ b, (insert Staff.arriving (.multiple [[.int 7, .text "A"], [.null, .text "B"]])).build .h2
        default = .ok b ∧
      ∃ m returning, b.output.Shows .h2 (.write ⟨.merge m, returning⟩) ∧ m.Closed ∧
        (m.source.map Column.ident).Nodup := by
  obtain ⟨b, hb⟩ : ∃ b, (insert Staff.arriving
      (.multiple [[.int 7, .text "A"], [.null, .text "B"]])).build .h2 default = .ok b := ⟨_, rfl⟩
  obtain ⟨m, returning, _, hshows, _, _, hnames, as, has, hclosed⟩ :=
    build_merge_closed_iff rfl rfl (by simp) hb
  obtain rfl : [Assignment.setIncoming Staff.name] = as := Except.ok.inj has
  have hinserted : ∀ c ∈ [Staff.name], c.definition.identity = false := by decide
  refine ⟨b, hb, m, returning, hshows, hclosed.mpr fun a ha c hc => ?_, hnames (by decide)⟩
  obtain rfl := List.mem_singleton.mp ha
  obtain rfl : Staff.name = c := SetValue.incoming.inj hc
  exact .inl (hinserted Staff.name (List.mem_singleton_self _))

/-- The number is taken from the incoming row, which does not have it. -/
theorem Query.build_merge_open_renumbering :
    ∃ b m, (insert Staff.renumbering (.single [.null, .text "A"])).build .h2 default = .ok b ∧
      b.output.Shows .h2 (.write ⟨.merge m, none⟩) ∧
      b.output.sql = "merge into employee using (values (?)) as excluded (name) " ++
        "on (employee.name = excluded.name) when matched then update set id = excluded.id " ++
        "when not matched then insert (name) values (excluded.name)" ∧
      Staff.id ∈ m.incoming ∧ m.source = [Staff.name] ∧ ¬ m.Closed := by
  have hmem : Staff.id ∈ Sql.Merge.incoming ⟨Staff.employee, [Staff.name],
      [[⟨.text "A", .text⟩]], [⟨Staff.name, .plain "employee", false⟩],
      [⟨Staff.id, .incoming Staff.id⟩], [Staff.name], false⟩ := by decide
  refine ⟨_, _, rfl, rfl, by decide +kernel, hmem, rfl, fun hclosed => ?_⟩
  have hsource := hclosed.declared _ hmem
  revert hsource
  decide

end SqlCompose
