import SqlCompose.Dialect.Catalog
import SqlCompose.Proofs.Payload.Mutations
import SqlCompose.Proofs.Query.Coherence

/-! No payload reaches the SQL. Queries of one shape are refused for one reason or give the same
text, whatever values they bind. -/

namespace SqlCompose

/-- The value is NULL or of the column's type. -/
def Value.Suits (c : Column) (v : Value) : Prop := ∀ t ∈ v.type?, t = c.type

instance (c : Column) (v : Value) : Decidable (v.Suits c) :=
  inferInstanceAs (Decidable (∀ t ∈ v.type?, t = c.type))

/-- Two values for a column: both suit it, or they are of one constructor. -/
def Value.Alike (c : Column) (v w : Value) : Prop :=
  v.Suits c ∧ w.Suits c ∨ v.type? = w.type?

instance (c : Column) (v w : Value) : Decidable (Value.Alike c v w) :=
  inferInstanceAs (Decidable (v.Suits c ∧ w.Suits c ∨ v.type? = w.type?))

/-- Two rows for a table, of one length and alike column by column. -/
structure RowAlike (t : Table) (row row' : List Value) : Prop where
  length_eq : row.length = row'.length
  values : ∀ x ∈ t.columns.zip (row.zip row'), Value.Alike x.1 x.2.1 x.2.2

/-- The same way of sending rows, and rows that are alike one by one. -/
inductive Rows.Alike (t : Table) : Rows → Rows → Prop where
  | single {row row' : List Value} (h : RowAlike t row row') : Alike t (.single row) (.single row')
  | multiple {rows rows' : List (List Value)} (h : List.Forall₂ (RowAlike t) rows rows') :
      Alike t (.multiple rows) (.multiple rows')
  | batch {rows rows' : List (List Value)} (h : List.Forall₂ (RowAlike t) rows rows') :
      Alike t (.batch rows) (.batch rows')

/-- Two queries that differ in payloads only. -/
inductive Query.Alike : Query → Query → Prop where
  | select {q q' : Select} (h : q.blank = q'.blank) : Alike (.select q) (.select q')
  | update {q q' : UpdateQuery} (h : q.blank = q'.blank) : Alike (.update q) (.update q')
  | delete {q q' : DeleteQuery} (h : q.blank = q'.blank) : Alike (.delete q) (.delete q')
  | insert {draft draft' : InsertDraft} {rows rows' : Rows} (h : draft.blank = draft'.blank)
      (hrows : rows.Alike draft.query.target rows') : Alike (.insert draft rows) (.insert draft' rows')

theorem Cell.check_alike {c : Column} {v w : Value} (h : Value.Alike c v w) :
    SameOutcome (fun x y : Cell => x.column = y.column) (check c v) (check c w) := by
  have hok : ∀ {v : Value}, v.Suits c → check c v = .ok ⟨c, v⟩ := by
    intro v hv
    unfold check
    cases ht : v.type? with
    | none => rfl
    | some t => simp [hv t ht]
  rcases h with ⟨hv, hw⟩ | h
  · rw [hok hv, hok hw]
    exact .ok rfl
  · unfold check
    rw [h]
    cases w.type? with
    | none => exact .ok rfl
    | some t =>
      by_cases ht : t = c.type
      · simp only [ht, if_true]
        exact .ok rfl
      · simp only [ht, if_false]
        exact .error _

theorem RowAlike.refl (t : Table) (row : List Value) : RowAlike t row row where
  length_eq := rfl
  values x hx := by
    have hsame : ∀ y ∈ row.zip row, y.1 = y.2 := by
      intro y hy
      obtain ⟨i, hi, rfl⟩ := List.mem_iff_getElem.mp hy
      rw [List.getElem_zip]
    exact .inr (congrArg Value.type? (hsame x.2 (List.of_mem_zip hx).2))

theorem Rows.Alike.refl (t : Table) (rows : Rows) : Rows.Alike t rows rows := by
  cases rows with
  | single row => exact .single (.refl t row)
  | multiple rows => exact .multiple (List.forall₂_same.mpr fun row _ => .refl t row)
  | batch rows => exact .batch (List.forall₂_same.mpr fun row _ => .refl t row)

theorem forall₂_zip {α β : Type} {P : α → β → β → Prop} {cs : List α} {xs ys : List β}
    (hlen : xs.length = ys.length) (h : ∀ x ∈ cs.zip (xs.zip ys), P x.1 x.2.1 x.2.2) :
    List.Forall₂ (fun a b => P a.1 a.2 b.2 ∧ a.1 = b.1) (cs.zip xs) (cs.zip ys) := by
  induction cs generalizing xs ys with
  | nil => simp
  | cons c cs ih =>
    cases xs with
    | nil =>
      rw [List.length_eq_zero_iff.mp hlen.symm]
      exact .nil
    | cons x xs =>
      cases ys with
      | nil => simp at hlen
      | cons y ys =>
        refine .cons ⟨h (c, x, y) List.mem_cons_self, rfl⟩ (ih (by simpa using hlen) fun z hz => ?_)
        exact h z (List.mem_cons_of_mem _ hz)

theorem Table.bindRow_alike {t : Table} {row row' : List Value} (h : RowAlike t row row') :
    SameOutcome Cell.SameColumns (t.bindRow row) (t.bindRow row') := by
  unfold bindRow
  rw [h.length_eq]
  by_cases hlen : row'.length = t.columns.length
  · simp only [hlen, if_true]
    refine .mapM ((forall₂_zip h.length_eq h.values).imp ?_)
    rintro ⟨c, v⟩ ⟨_, w⟩ ⟨hvw, rfl⟩
    exact Cell.check_alike hvw
  · simp only [hlen, if_false]
    exact .error _

/-- Statements in one spelling whose pieces differ in the values of their parameters at most. -/
structure Statement.Same (s s' : Statement) : Prop where
  dialect_eq : s.dialect = s'.dialect
  pieces : Piece.Same s.pieces s'.pieces

namespace Statement.Same

variable {s s' : Statement}

theorem sql_eq (h : s.Same s') : s.sql = s'.sql := by
  unfold Statement.sql
  rw [h.dialect_eq]
  exact h.pieces.sql_eq _ 0

theorem report_eq (h : s.Same s') (kind : String) (options : QueryOptions) :
    (s.report kind options).events = (s'.report kind options).events := by
  simp only [Statement.report, Statement.values, h.sql_eq, h.dialect_eq, h.pieces.length_values_eq]

end Statement.Same

/-- Building gives statements that are the same with the same events. -/
def Built.Same (b b' : Built Statement) : Prop := b.output.Same b'.output ∧ b.events = b'.events

section

variable {d : Dialect} {defaults options : QueryOptions}

theorem Sql.Command.statement_same {c c' : Command} (h : Piece.Same c.pieces c'.pieces) :
    (c.statement d).Same (c'.statement d) := ⟨rfl, h⟩

theorem Statement.Same.built {s s' : Statement} (h : s.Same s') (kind : String)
    (options : QueryOptions) : Built.Same (s.report kind options) (s'.report kind options) :=
  ⟨h, h.report_eq kind options⟩

theorem Select.build_blank (q : Select) :
    SameOutcome Built.Same (q.build d defaults) (q.blank.build d defaults) := by
  have hscope : ScopeTree.ofSelect q.blank = ScopeTree.ofSelect q :=
    congrArg Prod.fst (q.scope_blank [])
  have hoptions : q.blank.options = q.options := by
    cases q
    rfl
  simp only [build, compile, hscope, hoptions]
  refine SameOutcome.bind ?_ fun s s' hs => .ok (Statement.Same.built hs _ _)
  exact (q.composedAlike _ _).bind fun t t' ht => .ok (Sql.Command.statement_same ht)

theorem UpdateQuery.build_blank (q : UpdateQuery) :
    SameOutcome Built.Same (q.build d defaults) (q.blank.build d defaults) := by
  refine q.compose_blank.bind fun u u' h => .ok ?_
  have hs : ((Sql.Command.update u).statement d).Same ((Sql.Command.update u').statement d) :=
    Sql.Command.statement_same h
  exact hs.built _ _

theorem DeleteQuery.build_blank (q : DeleteQuery) :
    SameOutcome Built.Same (q.build d defaults) (q.blank.build d defaults) := by
  refine q.compose_blank.bind fun u u' h => .ok ?_
  have hs : ((Sql.Command.delete u).statement d).Same ((Sql.Command.delete u').statement d) :=
    Sql.Command.statement_same h
  exact hs.built _ _

namespace InsertQuery

variable (q : InsertQuery)

theorem verb_blank : q.blank.verb = q.verb := by
  obtain ⟨target, conflict, returning, own⟩ := q
  cases conflict <;> rfl

theorem compile_blank {cells cells' : List (List Cell)}
    (h : List.Forall₂ Cell.SameColumns cells cells') :
    SameOutcome Statement.Same (q.compile d options cells) (q.blank.compile d options cells') :=
  (q.compose_blank h).bind fun _ _ h => .ok (Sql.Command.statement_same h)

theorem compileRow_blank {row row' : List Value} (h : RowAlike q.target row row') :
    SameOutcome Statement.Same (q.compileRow d options row)
      (q.blank.compileRow d options row') :=
  (Table.bindRow_alike h).bind fun _ _ h => q.compile_blank (.cons h .nil)

theorem buildSingle_blank {row row' : List Value} (h : RowAlike q.target row row') :
    SameOutcome Built.Same (q.buildSingle d defaults row) (q.blank.buildSingle d defaults row') := by
  simp only [buildSingle, verb_blank]
  refine (Table.bindRow_alike h).bind fun cells cells' hc => ?_
  exact (q.compile_blank (.cons hc .nil)).bind fun s s' hs => .ok (hs.built _ _)

theorem buildMultiple_blank {rows rows' : List (List Value)}
    (h : List.Forall₂ (RowAlike q.target) rows rows') :
    SameOutcome Built.Same (q.buildMultiple d defaults rows)
      (q.blank.buildMultiple d defaults rows') := by
  have hcells : SameOutcome (List.Forall₂ Cell.SameColumns) (rows.mapM q.target.bindRow)
      (rows'.mapM q.target.bindRow) := .mapM (h.imp fun _ _ hr => Table.bindRow_alike hr)
  have hempty : rows.isEmpty = rows'.isEmpty := by
    cases h with
    | nil => rfl
    | cons _ _ => rfl
  simp only [buildMultiple, verb_blank, hempty, h.length_eq]
  by_cases hnil : rows'.isEmpty = true
  · simp only [hnil, if_true]
    exact .ok ⟨⟨rfl, .refl _⟩, rfl⟩
  · simp only [hnil, if_false, Bool.false_eq_true]
    refine .check (hcells.bind fun cells cells' hc => ?_)
    exact (q.compile_blank hc).bind fun s s' hs => .ok (hs.built _ _)

theorem buildBatch_blank {rows rows' : List (List Value)}
    (h : List.Forall₂ (RowAlike q.target) rows rows') :
    SameOutcome (fun b b' => b.output.sql = b'.output.sql ∧ b.events = b'.events)
      (q.buildBatch d defaults rows) (q.blank.buildBatch d defaults rows') := by
  have hstatements : ∀ options, SameOutcome (List.Forall₂ Statement.Same)
      (rows.mapM (q.compileRow d options)) (rows'.mapM (q.blank.compileRow d options)) :=
    fun _ => .mapM (h.imp fun _ _ hr => q.compileRow_blank hr)
  have hsql : ∀ options statements statements',
      List.Forall₂ Statement.Same statements statements' →
      SameOutcome Eq (q.batchSql d options statements) (q.blank.batchSql d options statements') := by
    intro options statements statements' hs
    cases hs with
    | nil =>
      exact (q.compileRow_blank (.refl _ _)).bind fun s s' hs => .ok hs.sql_eq
    | cons hs _ => exact .ok hs.sql_eq
  simp only [buildBatch, verb_blank, h.length_eq]
  refine .check ((hstatements _).bind fun statements statements' hs => ?_)
  refine (hsql _ statements statements' hs).bind fun sql sql' he => .ok ?_
  subst he
  exact ⟨rfl, rfl⟩

end InsertQuery

end

/-- The SQL of a statement or a batch. -/
def Output.sql : Output → String
  | .statement s => s.sql
  | .batch b => b.sql

/-- What building shows besides values: the SQL and the events. -/
def Built.shown (b : Built Output) : String × List LogEvent := (b.output.sql, b.events)

namespace Query

variable {d : Dialect} {defaults : QueryOptions}

theorem shown_of_same {x y : Except Error (Built Statement)} (h : SameOutcome Built.Same x y) :
    SameOutcome (fun b b' : Built Output => b.shown = b'.shown)
      (do let b ← x; return ⟨.statement b.output, b.events⟩)
      (do let b ← y; return ⟨.statement b.output, b.events⟩) := by
  refine h.bind fun b b' hb => .ok ?_
  rw [Built.shown, Built.shown, Output.sql, Output.sql, hb.1.sql_eq, hb.2]

/-- An insert of rows that are alike shows what its blanked form shows. -/
theorem build_insert_blank {draft : InsertDraft} {rows rows' : Rows}
    (h : rows.Alike draft.query.target rows') :
    SameOutcome (fun b b' => b.shown = b'.shown) ((insert draft rows).build d defaults)
      ((insert draft.blank rows').build d defaults) := by
  obtain ⟨query, fault⟩ := draft
  cases fault with
  | some fault =>
    cases h <;> exact .error _
  | none =>
    cases h with
    | single h => exact shown_of_same (query.buildSingle_blank h)
    | multiple h => exact shown_of_same (query.buildMultiple_blank h)
    | batch h =>
      refine (query.buildBatch_blank h).bind fun b b' hb => .ok ?_
      rw [Built.shown, Built.shown, Output.sql, Output.sql, hb.1, hb.2]

end Query

/-- Queries that differ in payloads only are refused for the same reason, or give the same SQL and
the same events. -/
theorem Query.build_shown_eq {d : Dialect} {defaults : QueryOptions} {q q' : Query}
    (h : q.Alike q') :
    (q.build d defaults).map Built.shown = (q'.build d defaults).map Built.shown := by
  have hjoin : ∀ {x y z : Except Error (Built Output)},
      SameOutcome (fun b b' => b.shown = b'.shown) x y →
      SameOutcome (fun b b' => b.shown = b'.shown) z y → x.map Built.shown = z.map Built.shown :=
    fun hx hz => (hx.map_eq fun _ _ hb => hb).trans (hz.map_eq fun _ _ hb => hb).symm
  cases h with
  | @select q q' h => exact hjoin (shown_of_same (h ▸ q.build_blank)) (shown_of_same q'.build_blank)
  | @update q q' h => exact hjoin (shown_of_same (h ▸ q.build_blank)) (shown_of_same q'.build_blank)
  | @delete q q' h => exact hjoin (shown_of_same (h ▸ q.build_blank)) (shown_of_same q'.build_blank)
  | @insert draft draft' rows rows' h hrows =>
    have htarget : draft.query.target = draft'.query.target :=
      congrArg (fun x => x.query.target) h
    exact hjoin (h ▸ build_insert_blank hrows) (build_insert_blank (.refl _ _))

namespace Family

/-- Whoever is known already gets a new name, unless the old one starts alike. -/
def arrival (newName start : String) : InsertDraft :=
  .run (person 0) [.onDuplicateKeyUpdate, .conflictKey (number 0),
    .set [.set (name 0) (some (.parameter (.text newName))),
      .set (parent 0) (some (.subQuery ⟨1, ((Select.of (person 1)).project
        [.aggregate (.max (number 1))]).filterBy
        [.like true (.column (name 1)) (.parameter (.text start)) .leading]⟩))]]

end Family

/-- An upsert in a batch: texts of a parameter and of a LIKE pattern change, and a row gets NULL for
one of its values. -/
theorem Query.build_shown_eq_arrival :
    (insert (Family.arrival "Ada" "A_")
        (.batch [[.int 1, .null, .text "Eve"]])).Alike
      (insert (Family.arrival "'; drop table person; --" "?")
        (.batch [[.int 1, .int 7, .null]])) ∧
      ((insert (Family.arrival "Ada" "A_")
        (.batch [[.int 1, .null, .text "Eve"]])).build .postgres default).map Built.shown =
      ((insert (Family.arrival "'; drop table person; --" "?")
        (.batch [[.int 1, .int 7, .null]])).build .postgres default).map Built.shown := by
  have h : (insert (Family.arrival "Ada" "A_")
        (.batch [[.int 1, .null, .text "Eve"]])).Alike
      (insert (Family.arrival "'; drop table person; --" "?")
        (.batch [[.int 1, .int 7, .null]])) :=
    .insert rfl (.batch (.cons ⟨rfl, by decide⟩ .nil))
  exact ⟨h, build_shown_eq h⟩

end SqlCompose
