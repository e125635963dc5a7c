import SqlCompose.Proofs.Compose.Commands
import SqlCompose.Proofs.Insert.Rows

/-! A batch is run as its rows would be run one by one. One SQL text stands for all of them, and each
row binds what its own statement binds. -/

namespace SqlCompose

/-- Each row has a statement of its own with the SQL of the batch and the values that the batch has
for the row. -/
def BatchStatement.RunsEach (b : BatchStatement)
    (single : List Value → Except Error (Built Statement)) (rows : List (List Value)) : Prop :=
  List.Forall₂
    (fun row values => ∃ s, single row = .ok s ∧ s.output.sql = b.sql ∧ s.output.values = values)
    rows b.rows

namespace InsertQuery

variable {d : Dialect} {defaults options : QueryOptions} {q : InsertQuery}
  {row : List Value} {rows : List (List Value)}

theorem buildSingle_eq_ok_iff {b : Built Statement} :
    q.buildSingle d defaults row = .ok b ↔
      ∃ s, q.compileRow d (q.options.getD defaults) row = .ok s ∧
        s.report q.verb (q.options.getD defaults) = b := by
  simp only [buildSingle, compileRow, bind_eq_ok_iff, pure_eq_ok_iff]
  constructor
  · rintro ⟨cells, hcells, s, hs, rfl⟩
    exact ⟨s, ⟨cells, hcells, hs⟩, rfl⟩
  · rintro ⟨s, ⟨cells, hcells, hs⟩, rfl⟩
    exact ⟨cells, hcells, s, hs, rfl⟩

theorem exists_buildSingle_iff :
    (∃ b, q.buildSingle d defaults row = .ok b) ↔
      ∃ s, q.compileRow d (q.options.getD defaults) row = .ok s := by
  constructor
  · rintro ⟨b, hb⟩
    obtain ⟨s, hs, _⟩ := buildSingle_eq_ok_iff.mp hb
    exact ⟨s, hs⟩
  · rintro ⟨s, hs⟩
    exact ⟨_, buildSingle_eq_ok_iff.mpr ⟨s, hs, rfl⟩⟩

theorem exists_buildBatch_iff :
    (∃ b, q.buildBatch d defaults rows = .ok b) ↔
      (q.target.definition.hasIdentity = true → d.batchGeneratedKeys = true) ∧
        ∃ statements, List.Forall₂
            (fun row s => q.compileRow d (q.options.getD defaults) row = .ok s) rows statements ∧
          ∃ sql, q.batchSql d (q.options.getD defaults) statements = .ok sql := by
  simp only [buildBatch, check_eq_ok_iff, bind_eq_ok_iff, pure_eq_ok_iff, mapM_eq_ok_iff,
    Bool.and_eq_true, Bool.not_eq_true', not_and, Bool.not_eq_false]
  constructor
  · rintro ⟨_, hkeys, statements, hrows, sql, hsql, _⟩
    exact ⟨hkeys, statements, hrows, sql, hsql⟩
  · rintro ⟨hkeys, statements, hrows, sql, hsql⟩
    exact ⟨_, hkeys, statements, hrows, sql, hsql, rfl⟩

theorem exists_batchSql_iff {statements : List Statement} :
    (∃ sql, q.batchSql d options statements = .ok sql) ↔
      (statements = [] → ∃ s, q.compileRow d options q.target.nullRow = .ok s) := by
  cases statements with
  | nil =>
    simp only [batchSql, bind_eq_ok_iff, pure_eq_ok_iff, forall_const]
    constructor
    · rintro ⟨_, s, hs, _⟩
      exact ⟨s, hs⟩
    · rintro ⟨s, hs⟩
      exact ⟨_, s, hs, rfl⟩
  | cons s statements => simp [batchSql, pure_eq_ok_iff]

theorem exists_forall₂_iff {α β : Type} {R : α → β → Prop} {xs : List α} :
    (∃ ys, List.Forall₂ R xs ys) ↔ ∀ x ∈ xs, ∃ y, R x y := by
  induction xs with
  | nil => simp
  | cons x xs ih =>
    rw [List.forall_mem_cons, ← ih]
    constructor
    · rintro ⟨_, hys⟩
      cases hys with
      | cons hy hys => exact ⟨⟨_, hy⟩, _, hys⟩
    · rintro ⟨⟨y, hy⟩, ys, hys⟩
      exact ⟨y :: ys, .cons hy hys⟩

/-- A batch can be built when each of its rows can, and without rows when a row of NULLs can. -/
theorem exists_buildBatch_iff_singles :
    (∃ b, q.buildBatch d defaults rows = .ok b) ↔
      (q.target.definition.hasIdentity = true → d.batchGeneratedKeys = true) ∧
        (∀ row ∈ rows, ∃ s, q.buildSingle d defaults row = .ok s) ∧
        (rows = [] → ∃ s, q.buildSingle d defaults q.target.nullRow = .ok s) := by
  simp only [exists_buildBatch_iff, exists_batchSql_iff, exists_buildSingle_iff]
  refine and_congr_right fun _ => ?_
  rw [← exists_forall₂_iff, ← exists_and_right]
  refine exists_congr fun statements => and_congr_right fun hrows => ?_
  have hnil : statements = [] ↔ rows = [] := by
    rw [← List.length_eq_zero_iff, ← hrows.length_eq, List.length_eq_zero_iff]
  rw [hnil]

theorem buildBatch_runsEach {b : Built BatchStatement} (h : q.buildBatch d defaults rows = .ok b) :
    b.output.RunsEach (q.buildSingle d defaults) rows := by
  obtain ⟨statements, hrows, sql, hsql, hb, hvalues⟩ := buildBatch_eq_ok h
  obtain ⟨_, first, hfirst, rfl⟩ := batchSql_eq_ok hrows hsql
  rw [BatchStatement.RunsEach, hvalues, List.forall₂_map_right_iff]
  refine hrows.imp fun row s hs => ?_
  refine ⟨_, buildSingle_eq_ok_iff.mpr ⟨s, hs, rfl⟩, ?_, rfl⟩
  rw [hb]
  exact compileRow_sql_eq hs hfirst

/-- Without rows the SQL is that of every row that could have been there. -/
theorem buildBatch_nil_sql {b : Built BatchStatement} (h : q.buildBatch d defaults [] = .ok b)
    (hrow : q.target.Fits row) :
    ∃ s, q.buildSingle d defaults row = .ok s ∧ s.output.sql = b.output.sql := by
  obtain ⟨statements, hrows, sql, hsql, hb, _⟩ := buildBatch_eq_ok h
  obtain ⟨_, first, hfirst, rfl⟩ := batchSql_eq_ok hrows hsql
  obtain ⟨s, hs, hsame⟩ := exists_compileRow_of_fits hfirst hrow
  exact ⟨_, buildSingle_eq_ok_iff.mpr ⟨s, hs, rfl⟩, hsame.trans hb.symm⟩

theorem buildMultiple_singleton :
    q.buildMultiple d defaults [row] = q.buildSingle d defaults row := by
  have hbind : [row].mapM q.target.bindRow = q.target.bindRow row >>= fun cells => pure [cells] := by
    simp
  simp only [buildMultiple, buildSingle, hbind, bind_assoc, pure_bind]
  simp

/-- A batch that is built runs each row as the row's own statement. Whether it is built depends on
the rows one by one and on the keys that the dialect can give back. -/
theorem buildBatch_eq_buildSingle (d : Dialect) (defaults : QueryOptions) (q : InsertQuery) :
    (∀ rows b, q.buildBatch d defaults rows = .ok b →
      b.output.RunsEach (q.buildSingle d defaults) rows) ∧
    (∀ rows, (∃ b, q.buildBatch d defaults rows = .ok b) ↔
      (q.target.definition.hasIdentity = true → d.batchGeneratedKeys = true) ∧
        (∀ row ∈ rows, ∃ s, q.buildSingle d defaults row = .ok s) ∧
        (rows = [] → ∃ s, q.buildSingle d defaults q.target.nullRow = .ok s)) ∧
    (∀ b row, q.buildBatch d defaults [] = .ok b → q.target.Fits row →
      ∃ s, q.buildSingle d defaults row = .ok s ∧ s.output.sql = b.output.sql) ∧
    ∀ row, q.buildMultiple d defaults [row] = q.buildSingle d defaults row :=
  ⟨fun _ _ h => buildBatch_runsEach h, fun _ => exists_buildBatch_iff_singles,
    fun _ _ h hrow => buildBatch_nil_sql h hrow, fun _ => buildMultiple_singleton⟩

end InsertQuery

/-- An upsert by `merge`, whose only own parameters belong to its `set` items. -/
theorem InsertQuery.buildBatch_eq_buildSingle_arrival :
    (∃ b, (Family.arrival "Ada" "A_").query.buildBatch .h2 default
        [[.int 1, .null, .text "Eve"], [.int 2, .int 1, .null]] = .ok b ∧
      b.output.RunsEach ((Family.arrival "Ada" "A_").query.buildSingle .h2 default)
        [[.int 1, .null, .text "Eve"], [.int 2, .int 1, .null]]) ∧
    ∃ b, (Family.arrival "Ada" "A_").query.buildBatch .h2 default [] = .ok b ∧
      ∃ s, (Family.arrival "Ada" "A_").query.buildSingle .h2 default
          [.int 1, .null, .text "Eve"] = .ok s ∧ s.output.sql = b.output.sql := by
  have h := buildBatch_eq_buildSingle .h2 default (Family.arrival "Ada" "A_").query
  obtain ⟨b, hb⟩ : ∃ b, (Family.arrival "Ada" "A_").query.buildBatch .h2 default
      [[.int 1, .null, .text "Eve"], [.int 2, .int 1, .null]] = .ok b := ⟨_, rfl⟩
  obtain ⟨b', hb'⟩ : ∃ b, (Family.arrival "Ada" "A_").query.buildBatch .h2 default [] = .ok b :=
    ⟨_, rfl⟩
  have hrow : (Family.arrival "Ada" "A_").query.target.Fits [.int 1, .null, .text "Eve"] :=
    ⟨rfl, by decide⟩
  exact ⟨⟨b, hb, h.1 _ b hb⟩, b', hb', h.2.2.1 b' _ hb' hrow⟩

end SqlCompose
