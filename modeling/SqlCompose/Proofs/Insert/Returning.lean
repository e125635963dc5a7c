import SqlCompose.Proofs.Insert.Statements
import SqlCompose.Proofs.Upsert.Incoming

/-! What a statement returns of the rows that it wrote: the columns that the database fills in, or else
the primary key. -/

namespace SqlCompose

theorem Piece.sqlAfter_names (d : Dialect) (count : Nat) (is : List Identifier) :
    sqlAfter d count (separated ", " (is.map fun i => [.name i])) =
      ", ".intercalate (is.map (·.sql d.quotes)) := by
  induction is with
  | nil => simp [sqlAfter]
  | cons i is ih =>
    cases is with
    | nil => simp [sqlAfter]
    | cons j is =>
      simp only [List.map_cons, separated_cons_cons, String.intercalate_cons_cons] at ih ⊢
      rw [← ih]
      simp [sqlAfter, String.append_assoc]

theorem Output.Shows.sql_eq {d : Dialect} {c : Sql.Command} {o : Output} (h : o.Shows d c) :
    o.sql = Piece.sqlAfter d 0 c.pieces := by
  cases o with
  | statement s => exact congrArg Statement.sql h
  | batch b => exact h

namespace Table

variable {t : Table} {c : Column}

theorem exists_columns_iff {P : ColumnDef → Prop} :
    (∃ c ∈ t.columns, P c.definition) ↔ ∃ c ∈ t.definition.columns, P c := by
  rw [← map_definition_columns]
  simp

theorem hasIdentity_iff :
    t.definition.hasIdentity = true ↔ ∃ c ∈ t.columns, c.definition.identity = true := by
  rw [TableDef.hasIdentity, List.any_eq_true, ← exists_columns_iff]

theorem generatedColumns_eq (t : Table) : t.generatedColumns =
    t.columns.filter fun c =>
      if t.definition.hasIdentity then c.definition.identity else c.definition.primaryKey := by
  unfold generatedColumns
  by_cases h : t.definition.hasIdentity = true
  · obtain ⟨c, hc, hidentity⟩ := hasIdentity_iff.mp h
    have hne : (t.columns.filter (·.definition.identity)).isEmpty = false :=
      List.isEmpty_eq_false_iff.mpr (List.ne_nil_of_mem (List.mem_filter.mpr ⟨hc, hidentity⟩))
    simp [hne, h]
  · have hnil : t.columns.filter (·.definition.identity) = [] :=
      List.filter_eq_nil_iff.mpr fun c hc hidentity => h (hasIdentity_iff.mpr ⟨c, hc, hidentity⟩)
    simp [hnil, h, keyColumns]

theorem mem_generatedColumns_iff :
    c ∈ t.generatedColumns ↔ c.table = t ∧
      if t.definition.hasIdentity then c.definition.identity = true
      else c.definition.primaryKey = true := by
  rw [generatedColumns_eq, List.mem_filter, mem_columns_iff]
  cases t.definition.hasIdentity <;> rfl

theorem generatedColumns_ne_nil_iff :
    t.generatedColumns ≠ [] ↔
      ∃ c ∈ t.definition.columns, c.identity = true ∨ c.primaryKey = true := by
  rw [← exists_columns_iff (P := fun c => c.identity = true ∨ c.primaryKey = true)]
  constructor
  · intro hne
    obtain ⟨c, hc⟩ := List.exists_mem_of_ne_nil _ hne
    obtain ⟨htable, hflag⟩ := mem_generatedColumns_iff.mp hc
    refine ⟨c, mem_columns_iff.mpr htable, ?_⟩
    cases hd : t.definition.hasIdentity with
    | true => exact .inl (by simpa [hd] using hflag)
    | false => exact .inr (by simpa [hd] using hflag)
  · rintro ⟨c, hc, hflag⟩
    cases hd : t.definition.hasIdentity with
    | true =>
      obtain ⟨e, he, hidentity⟩ := hasIdentity_iff.mp hd
      exact List.ne_nil_of_mem (mem_generatedColumns_iff.mpr
        ⟨mem_columns_iff.mp he, by simpa [hd] using hidentity⟩)
    | false =>
      have hordinary : c.definition.identity ≠ true := fun hidentity => by
        simp [hasIdentity_iff.mpr ⟨c, hc, hidentity⟩] at hd
      exact List.ne_nil_of_mem (mem_generatedColumns_iff.mpr
        ⟨mem_columns_iff.mp hc, by simpa [hd] using hflag.resolve_left hordinary⟩)

end Table

/-- Whichever way rows are sent, the text ends with the returned columns, in the order of their
declaration. It names none exactly when the table has neither an identity nor a primary key. -/
theorem Query.build_returning {d : Dialect} {defaults : QueryOptions} {draft : InsertDraft}
    {rows : Rows} {b : Built Output} (hreturning : draft.query.returning = true)
    (h : (insert draft rows).build d defaults = .ok b) :
    rows = .multiple [] ∧ b.output = .statement (.empty d) ∨
      ∃ w cs, (insert draft rows).Composed d defaults (.write w) ∧
        b.output.Shows d (.write w) ∧
        b.output.sql = Piece.sqlAfter d 0 w.body.pieces ++ " returning " ++
          ", ".intercalate (cs.map fun c => c.ident.sql d.quotes) ∧
        cs.Sublist draft.query.target.columns ∧
        (∀ c, c ∈ cs ↔ c.table = draft.query.target ∧
          if draft.query.target.definition.hasIdentity then c.definition.identity = true
          else c.definition.primaryKey = true) ∧
        (cs ≠ [] ↔ ∃ c ∈ draft.query.target.definition.columns,
          c.identity = true ∨ c.primaryKey = true) := by
  by_cases hrows : rows = .multiple []
  · subst hrows
    exact .inl ⟨rfl, build_insert_nothing h⟩
  · obtain ⟨cells, w, _, hfault, hw, hshows⟩ := build_insert_shows h hrows
    have hcolumns := (InsertQuery.compose_eq_ok hw).2
    rw [if_pos hreturning] at hcolumns
    refine .inr ⟨w, draft.query.target.generatedColumns, .insert hfault hw, hshows, ?_, ?_,
      fun c => Table.mem_generatedColumns_iff, Table.generatedColumns_ne_nil_iff⟩
    · have hpieces : w.pieces = w.body.pieces ++ .text " returning " ::
          Piece.separated ", " ((draft.query.target.generatedColumns.map Column.ident).map
            fun i => [.name i]) := by
        rw [Sql.Write.pieces, hcolumns, List.map_map]
        rfl
      rw [Output.Shows.sql_eq hshows, Sql.Command.pieces, hpieces, Piece.sqlAfter_append,
        Piece.sqlAfter, Piece.sqlAfter_names, List.map_map, String.append_assoc]
      rfl
    · rw [Table.generatedColumns_eq]
      exact List.filter_sublist

/-- Whoever is hired gets a number, which is returned. -/
def Staff.hiring : InsertDraft := .run employee [.returning]

theorem Query.build_returning_hiring :
    ∃ (b : Built Output) (w : Sql.Write) (cs : List Column),
      (insert Staff.hiring (.batch [[.null, .text "A"], [.null, .text "B"]])).build .postgres
        default = .ok b ∧
      b.output.sql = Piece.sqlAfter .postgres 0 w.body.pieces ++ " returning " ++
        ", ".intercalate (cs.map fun c => c.ident.sql (Dialect.quotes .postgres)) ∧
      cs ≠ [] ∧ ∀ c ∈ cs, c.definition.identity = true := by
  obtain ⟨b, hb⟩ : ∃ b, (insert Staff.hiring (.batch [[.null, .text "A"], [.null, .text "B"]])).build
      .postgres default = .ok b := ⟨_, rfl⟩
  rcases build_returning rfl hb with ⟨hrows, _⟩ | ⟨w, cs, _, _, hsql, _, hcolumns, hne⟩
  · cases hrows
  · have hkey : ∃ c ∈ Staff.hiring.query.target.definition.columns,
        c.identity = true ∨ c.primaryKey = true := ⟨_, List.mem_cons_self, .inl rfl⟩
    exact ⟨b, w, cs, hb, hsql, hne.mpr hkey, fun c hc => ((hcolumns c).mp hc).2⟩

namespace Notes

/-- Texts that nothing tells apart. -/
def note : Table := ⟨0, .plain "note", none, [.ordinary (.plain "text") .text]⟩

def writing : InsertDraft := .run note [.returning]

end Notes

/-- The table is accepted although it has no key, and nothing is returned from it by name. -/
theorem Query.build_returning_nothing_writing :
    TableDef.define "note" none [.named .required "text" .text] = .ok Notes.note.definition ∧
      ∃ b, (insert Notes.writing (.single [.text "A"])).build .postgres default = .ok b ∧
        b.output.sql = "insert into note (text) values ($1) returning " :=
  ⟨by decide +kernel, _, rfl, by decide +kernel⟩

end SqlCompose
