import SqlCompose.Dialect.Catalog
import SqlCompose.Proofs.Query.Coherence
import SqlCompose.Proofs.Renaming.Mutations

/-! Nothing that building gives depends on the numbers of tables and sub-queries. A query can be
built again in another process, or its SQL be looked up by its text, whatever numbers are given
there. -/

namespace SqlCompose

section

variable {ρ : Renaming} {d : Dialect} {defaults options : QueryOptions}

theorem Sql.Command.statement_eq {c c' : Command} (h : Printed Command.pieces c c') :
    c.statement d = c'.statement d := by
  rw [statement, statement, h]

theorem Select.build_rename (q : Select) :
    Recomposed Eq (q.build d defaults) ((q.rename ρ).build d defaults) := by
  have hroot : Position.root (.ofSelect (q.rename ρ)) =
      (Position.root (.ofSelect q)).rename ρ := by
    rw [ScopeTree.ofSelect_rename]
    rfl
  have hcompile : ∀ options,
      Recomposed Eq (q.compile d options) ((q.rename ρ).compile d options) := by
    intro options
    rw [compile, compile, hroot]
    refine (q.renames ρ (.of d options) _).bind fun t t' ht => .ok ?_
    show (Sql.Command.select t).statement d = (Sql.Command.select t').statement d
    exact Sql.Command.statement_eq ht
  simp only [build, options_rename]
  exact (hcompile _).bind fun s _ hs => .ok (by rw [hs])

theorem UpdateQuery.build_rename (q : UpdateQuery) :
    Recomposed Eq (q.build d defaults) ((q.rename ρ).build d defaults) := by
  refine q.compose_rename.bind fun u u' hu => .ok ?_
  have hstatement : (Sql.Command.update u).statement d = (Sql.Command.update u').statement d :=
    Sql.Command.statement_eq hu
  rw [hstatement]
  rfl

theorem DeleteQuery.build_rename (q : DeleteQuery) :
    Recomposed Eq (q.build d defaults) ((q.rename ρ).build d defaults) := by
  refine q.compose_rename.bind fun u u' hu => .ok ?_
  have hstatement : (Sql.Command.delete u).statement d = (Sql.Command.delete u').statement d :=
    Sql.Command.statement_eq hu
  rw [hstatement]
  rfl

namespace InsertQuery

variable (q : InsertQuery)

theorem verb_rename : (q.rename ρ).verb = q.verb := by
  rw [verb, verb, rename, Option.isSome_map]

theorem compile_rename (cells : List (List Cell)) :
    Recomposed Eq (q.compile d options cells)
      ((q.rename ρ).compile d options (cells.map (List.map (Cell.rename ρ)))) := by
  refine (q.compose_rename cells).bind fun w w' hw => .ok ?_
  show (Sql.Command.write w).statement d = (Sql.Command.write w').statement d
  exact Sql.Command.statement_eq hw

theorem compileRow_rename (row : List Value) :
    Recomposed Eq (q.compileRow d options row) ((q.rename ρ).compileRow d options row) := by
  refine (q.target.bindRow_rename row).bind fun cells _ hcells => ?_
  subst hcells
  exact q.compile_rename [cells]

theorem buildSingle_rename (row : List Value) :
    Recomposed Eq (q.buildSingle d defaults row) ((q.rename ρ).buildSingle d defaults row) := by
  simp only [buildSingle, verb_rename]
  refine (q.target.bindRow_rename row).bind fun cells _ hcells => ?_
  subst hcells
  exact (q.compile_rename [cells]).bind fun s _ hs => .ok (by rw [hs]; rfl)

theorem buildMultiple_rename (rows : List (List Value)) :
    Recomposed Eq (q.buildMultiple d defaults rows)
      ((q.rename ρ).buildMultiple d defaults rows) := by
  have hcells : Recomposed (fun cs cs' => cs' = cs.map (List.map (Cell.rename ρ)))
      (rows.mapM q.target.bindRow) (rows.mapM (q.rename ρ).target.bindRow) := by
    have hrows : Recomposed (List.Forall₂ fun cs cs' => cs' = cs.map (Cell.rename ρ))
        (rows.mapM q.target.bindRow) (rows.mapM (q.rename ρ).target.bindRow) :=
      .mapM (List.forall₂_same.mpr fun row _ => q.target.bindRow_rename row)
    exact hrows.imp fun _ _ => forall₂_eq_map
  simp only [buildMultiple, verb_rename]
  by_cases hempty : rows.isEmpty = true
  · simp only [hempty, if_true]
    exact .ok rfl
  · simp only [hempty, if_false, Bool.false_eq_true]
    refine .check .rfl (by simp [Error.Drafting]) (hcells.bind fun cells _ hc => ?_)
    subst hc
    exact (q.compile_rename cells).bind fun s _ hs => .ok (by rw [hs]; rfl)

theorem batchSql_rename (statements : List Statement) :
    Recomposed Eq (q.batchSql d options statements)
      ((q.rename ρ).batchSql d options statements) := by
  cases statements with
  | cons first rest => exact .ok rfl
  | nil =>
    have hrow : (q.rename ρ).target.nullRow = q.target.nullRow := q.target.nullRow_rename
    simp only [batchSql, hrow]
    exact (q.compileRow_rename q.target.nullRow).bind fun s _ hs => .ok (by rw [hs])

theorem buildBatch_rename (rows : List (List Value)) :
    Recomposed Eq (q.buildBatch d defaults rows) ((q.rename ρ).buildBatch d defaults rows) := by
  have hstatements : ∀ options, Recomposed Eq (rows.mapM (q.compileRow d options))
      (rows.mapM ((q.rename ρ).compileRow d options)) := by
    intro options
    have hrows : Recomposed (List.Forall₂ Eq) (rows.mapM (q.compileRow d options))
        (rows.mapM ((q.rename ρ).compileRow d options)) :=
      .mapM (List.forall₂_same.mpr fun row _ => q.compileRow_rename row)
    exact hrows.imp fun _ _ => List.forall₂_eq_eq_eq ▸ id
  simp only [buildBatch, verb_rename]
  refine .check .rfl (by simp [Error.Drafting]) ((hstatements _).bind fun statements _ hs => ?_)
  subst hs
  exact (q.batchSql_rename statements).bind fun sql _ hsql => .ok (by rw [hsql]; rfl)

/-- An insert without calls out of place. -/
theorem build_recomposed (ρ : Renaming) (rows : Rows) :
    Recomposed Eq ((Query.insert ⟨q, none⟩ rows).build d defaults)
      ((Query.insert ⟨q.rename ρ, none⟩ rows).build d defaults) := by
  have hbuilt : ∀ {α : Type} {x y : Except Error (Built α)} (f : Built α → Built Output),
      Recomposed Eq x y → Recomposed Eq (f <$> x) (f <$> y) := fun f h =>
    h.map fun _ _ he => congrArg f he
  cases rows with
  | single row => exact hbuilt _ (q.buildSingle_rename row)
  | multiple rows => exact hbuilt _ (q.buildMultiple_rename rows)
  | batch rows => exact hbuilt _ (q.buildBatch_rename rows)

end InsertQuery

/-- A query and its renamed form are refused for the same reason, or give the same statement or
batch: the SQL, the values and the events. -/
theorem Query.build_rename_eq (ρ : Renaming) (q : Query) (d : Dialect) (defaults : QueryOptions) :
    (q.rename ρ).build d defaults = q.build d defaults := by
  cases q with
  | select q =>
    have hbuild : (q.rename ρ).build d defaults = q.build d defaults := q.build_rename.eq.symm
    simp only [rename, build, hbuild]
  | update q =>
    have hbuild : (q.rename ρ).build d defaults = q.build d defaults := q.build_rename.eq.symm
    simp only [rename, build, hbuild]
  | delete q =>
    have hbuild : (q.rename ρ).build d defaults = q.build d defaults := q.build_rename.eq.symm
    simp only [rename, build, hbuild]
  | insert draft rows =>
    obtain ⟨query, fault⟩ := draft
    cases fault with
    | some fault => rfl
    | none => exact (query.build_recomposed ρ rows).eq.symm

end

/-- All tables and all sub-queries at all levels get other numbers. -/
theorem Query.build_rename_eq_households :
    Family.households.tables.map (·.id) = [0, 1] ∧
    (Family.households.rename .neighbours).tables.map (·.id) = [1, 0] ∧
    Family.households.subQueries.map (·.id) = [7, 8] ∧
    (Family.households.rename .neighbours).subQueries.map (·.id) = [6, 9] ∧
    ∃ b, Family.households.build .h2 default = .ok b ∧
      (Family.households.rename .neighbours).build .h2 default = .ok b := by
  obtain ⟨b, hb⟩ : ∃ b, Family.households.build .h2 default = .ok b := ⟨_, rfl⟩
  refine ⟨rfl, rfl, rfl, rfl, b, hb, ?_⟩
  rw [build_rename_eq, hb]

end SqlCompose
