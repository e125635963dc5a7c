import SqlCompose.Proofs.Compose.Lockstep
import SqlCompose.Proofs.Insert.Batch

/-! The statements that an insert is sent as, whichever way its rows are sent. What holds of each
statement holds of all of them, so that two dialects need to be compared only there. -/

namespace SqlCompose

namespace Rows

/-- The rows that each run of the statement writes, in the order in which they are given. -/
def groups : Rows → List (List (List Value))
  | .single row => [[row]]
  | .multiple rows => [rows]
  | .batch rows => rows.map ([·])

/-- The rows whose statement gives the text. -/
def shown (target : Table) : Rows → List (List Value)
  | .single row => [row]
  | .multiple rows => rows
  | .batch (row :: _) => [row]
  | .batch [] => [target.nullRow]

end Rows

namespace InsertQuery

variable {d : Dialect} {options defaults : QueryOptions} {q : InsertQuery}

/-- One statement that writes these rows. -/
def Sends (d : Dialect) (options : QueryOptions) (q : InsertQuery) (rows : List (List Value))
    (w : Sql.Write) : Prop :=
  ∃ cells, List.Forall₂ (fun row cells => q.target.bindRow row = .ok cells) rows cells ∧
    q.compose d options cells = .ok w

theorem exists_sends_of_compileRow {row : List Value} {st : Statement}
    (h : q.compileRow d options row = .ok st) :
    ∃ w, q.Sends d options [row] w ∧ (Sql.Command.write w).statement d = st := by
  obtain ⟨cells, hcells, hst⟩ := bind_eq_ok_iff.mp h
  obtain ⟨w, hw, rfl⟩ := compile_eq_ok hst
  exact ⟨w, ⟨[cells], .cons hcells .nil, hw⟩, rfl⟩

theorem exists_sends_of_buildMultiple {rows : List (List Value)} (hrows : rows ≠ [])
    {b : Built Statement} (h : q.buildMultiple d defaults rows = .ok b) :
    (rows.length > 1 → d.multiRowInsert = true) ∧
      ∃ w, q.Sends d (q.options.getD defaults) rows w ∧
        (Sql.Command.write w).statement d = b.output := by
  simp only [buildMultiple, List.isEmpty_iff, hrows, if_false, check_eq_ok_iff, bind_eq_ok_iff,
    pure_eq_ok_iff, mapM_eq_ok_iff] at h
  obtain ⟨hmany, cells, hcells, st, hst, rfl⟩ := h
  obtain ⟨w, hw, rfl⟩ := compile_eq_ok hst
  exact ⟨fun hlength => by simpa [hlength] using hmany, w, ⟨cells, hcells, hw⟩, rfl⟩

theorem exists_sends_of_statements {rows : List (List Value)} {sts : List Statement}
    (h : List.Forall₂ (fun row st => q.compileRow d options row = .ok st) rows sts) :
    ∃ ws, List.Forall₂ (q.Sends d options) (rows.map ([·])) ws ∧
      ws.map (fun w => (Sql.Command.write w).statement d) = sts := by
  induction h with
  | nil => exact ⟨[], .nil, rfl⟩
  | cons hst _ ih =>
    obtain ⟨w, hw, rfl⟩ := exists_sends_of_compileRow hst
    obtain ⟨ws, hws, rfl⟩ := ih
    exact ⟨w :: ws, .cons hw hws, rfl⟩

/-- The second dialect has a statement for all rows for which the first has one, with the same
values on a condition. -/
def Carried (P : Prop) (d d' : Dialect) (options : QueryOptions) (q : InsertQuery) : Prop :=
  ∀ cells st, q.compile d options cells = .ok st →
    ∃ st', q.compile d' options cells = .ok st' ∧ (P → st'.values = st.values)

namespace Carried

variable {P : Prop} {s : ConflictSyntax}

theorem compileRow (h : Carried P d (d.withConflict s) options q) {row : List Value}
    {st : Statement} (hst : q.compileRow d options row = .ok st) :
    ∃ st', q.compileRow (d.withConflict s) options row = .ok st' ∧
      (P → st'.values = st.values) := by
  obtain ⟨cells, hcells, hst⟩ := bind_eq_ok_iff.mp hst
  obtain ⟨st', hst', hvalues⟩ := h _ st hst
  exact ⟨st', bind_eq_ok_iff.mpr ⟨cells, hcells, hst'⟩, hvalues⟩

theorem buildSingle (h : Carried P d (d.withConflict s) (q.options.getD defaults) q)
    {row : List Value} {b : Built Statement} (hb : q.buildSingle d defaults row = .ok b) :
    ∃ b', q.buildSingle (d.withConflict s) defaults row = .ok b' ∧
      (P → b'.output.values = b.output.values) := by
  obtain ⟨st, hst, rfl⟩ := buildSingle_eq_ok_iff.mp hb
  obtain ⟨st', hst', hvalues⟩ := h.compileRow hst
  exact ⟨_, buildSingle_eq_ok_iff.mpr ⟨st', hst', rfl⟩, hvalues⟩

theorem buildMultiple (h : Carried P d (d.withConflict s) (q.options.getD defaults) q)
    {rows : List (List Value)} {b : Built Statement}
    (hb : q.buildMultiple d defaults rows = .ok b) :
    ∃ b', q.buildMultiple (d.withConflict s) defaults rows = .ok b' ∧
      (P → b'.output.values = b.output.values) := by
  unfold InsertQuery.buildMultiple at hb ⊢
  by_cases hempty : rows.isEmpty = true
  · simp only [hempty, if_true, pure_eq_ok_iff] at hb ⊢
    exact ⟨_, rfl, fun _ => hb ▸ rfl⟩
  · simp only [hempty, if_false, check_eq_ok_iff, bind_eq_ok_iff, pure_eq_ok_iff,
      Bool.false_eq_true] at hb ⊢
    obtain ⟨hmany, cells, hcells, st, hst, rfl⟩ := hb
    obtain ⟨st', hst', hvalues⟩ := h _ st hst
    exact ⟨_, ⟨hmany, cells, hcells, st', hst', rfl⟩, hvalues⟩

theorem statements (h : Carried P d (d.withConflict s) options q) {rows : List (List Value)}
    {sts : List Statement}
    (hsts : List.Forall₂ (fun row st => q.compileRow d options row = .ok st) rows sts) :
    ∃ sts', List.Forall₂ (fun row st => q.compileRow (d.withConflict s) options row = .ok st)
        rows sts' ∧ (P → sts'.map (·.values) = sts.map (·.values)) := by
  induction hsts with
  | nil => exact ⟨[], .nil, fun _ => rfl⟩
  | cons hst _ ih =>
    obtain ⟨st', hst', hvalue⟩ := h.compileRow hst
    obtain ⟨sts', hsts', hvalues⟩ := ih
    refine ⟨st' :: sts', .cons hst' hsts', fun hP => ?_⟩
    rw [List.map_cons, List.map_cons, hvalue hP, hvalues hP]

theorem buildBatch (h : Carried P d (d.withConflict s) (q.options.getD defaults) q)
    {rows : List (List Value)} {b : Built BatchStatement}
    (hb : q.buildBatch d defaults rows = .ok b) :
    ∃ b', q.buildBatch (d.withConflict s) defaults rows = .ok b' ∧
      (P → b'.output.rows = b.output.rows) := by
  simp only [InsertQuery.buildBatch, check_eq_ok_iff, bind_eq_ok_iff, pure_eq_ok_iff,
    mapM_eq_ok_iff] at hb ⊢
  obtain ⟨hgenerated, sts, hsts, sql, hsql, rfl⟩ := hb
  obtain ⟨sts', hsts', hvalues⟩ := h.statements hsts
  have hsql' : ∃ sql, q.batchSql (d.withConflict s) (q.options.getD defaults) sts' = .ok sql := by
    refine exists_batchSql_iff.mpr fun hnil => ?_
    obtain rfl : sts = [] := by
      rw [← List.length_eq_zero_iff, ← hsts.length_eq, hsts'.length_eq, hnil]
      rfl
    obtain ⟨st, hst⟩ := exists_batchSql_iff.mp ⟨sql, hsql⟩ rfl
    obtain ⟨st', hst', _⟩ := h.compileRow hst
    exact ⟨st', hst'⟩
  obtain ⟨sql', hsql'⟩ := hsql'
  exact ⟨_, ⟨hgenerated, sts', hsts', sql', hsql', rfl⟩, hvalues⟩

end Carried

end InsertQuery

/-- The values that each run of the output binds. -/
def Output.values : Output → List (List Bound)
  | .statement s => [s.values]
  | .batch b => b.rows

namespace Query

variable {d : Dialect} {defaults : QueryOptions} {draft : InsertDraft} {rows : Rows}

theorem build_insert_nothing {b : Built Output}
    (h : (insert draft (.multiple [])).build d defaults = .ok b) :
    b.output = .statement (.empty d) := by
  obtain ⟨_, h⟩ := build_insert_eq_ok_iff.mp h
  cases h with
  | multiple hb =>
    obtain rfl := Except.ok.inj hb
    rfl

/-- The text is that of a statement that writes some of the rows, or a row without values when a batch
has none. -/
theorem build_insert_text {b : Built Output} (h : (insert draft rows).build d defaults = .ok b)
    (hrows : rows ≠ .multiple []) :
    draft.fault = none ∧ ∃ w, draft.query.Sends d (draft.query.options.getD defaults)
      (rows.shown draft.query.target) w ∧ b.output.Shows d (.write w) := by
  obtain ⟨hfault, h⟩ := build_insert_eq_ok_iff.mp h
  refine ⟨hfault, ?_⟩
  cases h with
  | single hb =>
    obtain ⟨st, hst, rfl⟩ := InsertQuery.buildSingle_eq_ok_iff.mp hb
    obtain ⟨w, hw, rfl⟩ := InsertQuery.exists_sends_of_compileRow hst
    exact ⟨w, hw, rfl⟩
  | multiple hb =>
    obtain ⟨_, w, hw, hstatement⟩ :=
      InsertQuery.exists_sends_of_buildMultiple (fun hnil => hrows (hnil ▸ rfl)) hb
    exact ⟨w, hw, hstatement.symm⟩
  | batch hb =>
    obtain ⟨statements, hsts, sql, hsql, hbatch, _⟩ := InsertQuery.buildBatch_eq_ok hb
    cases hsts with
    | nil =>
      simp only [InsertQuery.batchSql, bind_eq_ok_iff, pure_eq_ok_iff] at hsql
      obtain ⟨st, hst, rfl⟩ := hsql
      obtain ⟨w, hw, rfl⟩ := InsertQuery.exists_sends_of_compileRow hst
      exact ⟨w, hw, hbatch⟩
    | cons hst _ =>
      obtain rfl := pure_eq_ok_iff.mp hsql
      obtain ⟨w, hw, rfl⟩ := InsertQuery.exists_sends_of_compileRow hst
      exact ⟨w, hw, hbatch⟩

theorem build_insert_shows {b : Built Output} (h : (insert draft rows).build d defaults = .ok b)
    (hrows : rows ≠ .multiple []) :
    ∃ cells w, (∀ row ∈ cells, ∃ values, draft.query.target.bindRow values = .ok row) ∧
      draft.fault = none ∧
      draft.query.compose d (draft.query.options.getD defaults) cells = .ok w ∧
      b.output.Shows d (.write w) := by
  obtain ⟨hfault, w, ⟨cells, hcells, hw⟩, hshows⟩ := build_insert_text h hrows
  refine ⟨cells, w, fun row hrow => ?_, hfault, hw, hshows⟩
  obtain ⟨values, _, hvalues⟩ := exists_mem_of_forall₂ hcells hrow
  exact ⟨values, hvalues⟩

/-- Each run writes its rows and binds what its own statement binds, under one text. -/
theorem build_insert_runs {b : Built Output} (h : (insert draft rows).build d defaults = .ok b)
    (hrows : rows ≠ .multiple []) :
    ∃ ws, List.Forall₂ (draft.query.Sends d (draft.query.options.getD defaults)) rows.groups ws ∧
      (∀ w ∈ ws, b.output.Shows d (.write w)) ∧
      b.output.values = ws.map fun w => Piece.values w.pieces := by
  obtain ⟨_, h⟩ := build_insert_eq_ok_iff.mp h
  cases h with
  | single hb =>
    obtain ⟨st, hst, rfl⟩ := InsertQuery.buildSingle_eq_ok_iff.mp hb
    obtain ⟨w, hw, rfl⟩ := InsertQuery.exists_sends_of_compileRow hst
    exact ⟨[w], .cons hw .nil, List.forall_mem_singleton.mpr rfl, rfl⟩
  | @multiple rows built hb =>
    obtain ⟨_, w, hw, hstatement⟩ :=
      InsertQuery.exists_sends_of_buildMultiple (fun hnil => hrows (hnil ▸ rfl)) hb
    have hvalues : Output.values (.statement built.output) = [Piece.values w.pieces] :=
      congrArg (fun st => [Statement.values st]) hstatement.symm
    exact ⟨[w], .cons hw .nil, List.forall_mem_singleton.mpr hstatement.symm, hvalues⟩
  | batch hb =>
    obtain ⟨statements, hsts, sql, hsql, hbatch, hvalues⟩ := InsertQuery.buildBatch_eq_ok hb
    obtain ⟨_, first, hfirst, rfl⟩ := InsertQuery.batchSql_eq_ok hsts hsql
    obtain ⟨ws, hws, rfl⟩ := InsertQuery.exists_sends_of_statements hsts
    refine ⟨ws, hws, fun w hw => hbatch.trans ?_, hvalues.trans (List.map_map ..)⟩
    obtain ⟨row, _, hrow⟩ := exists_mem_of_forall₂ hsts
      (List.mem_map_of_mem (f := fun w => (Sql.Command.write w).statement d) hw)
    exact InsertQuery.compileRow_sql_eq hfirst hrow

theorem build_carried {P : Prop} {s : ConflictSyntax} {b : Built Output}
    (hcarried : draft.query.Carried P d (d.withConflict s) (draft.query.options.getD defaults))
    (h : (insert draft rows).build d defaults = .ok b) :
    ∃ b', (insert draft rows).build (d.withConflict s) defaults = .ok b' ∧
      (P → b'.output.values = b.output.values) := by
  obtain ⟨hfault, h⟩ := build_insert_eq_ok_iff.mp h
  cases h with
  | single hb =>
    obtain ⟨b', hb', hvalues⟩ := hcarried.buildSingle hb
    exact ⟨_, build_insert_eq_ok_iff.mpr ⟨hfault, .single hb'⟩,
      fun hP => congrArg ([·]) (hvalues hP)⟩
  | multiple hb =>
    obtain ⟨b', hb', hvalues⟩ := hcarried.buildMultiple hb
    exact ⟨_, build_insert_eq_ok_iff.mpr ⟨hfault, .multiple hb'⟩,
      fun hP => congrArg ([·]) (hvalues hP)⟩
  | batch hb =>
    obtain ⟨b', hb', hvalues⟩ := hcarried.buildBatch hb
    exact ⟨_, build_insert_eq_ok_iff.mpr ⟨hfault, .batch hb'⟩, hvalues⟩

end Query

end SqlCompose
