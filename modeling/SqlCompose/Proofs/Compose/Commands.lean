import SqlCompose.Proofs.Compose.Success

/-! Which commands a query is composed into. What a statement or a batch shows is one of them in the
spelling of the dialect. -/

namespace SqlCompose

theorem forM_eq_ok_iff {ε α : Type} {f : α → Except ε Unit} {xs : List α} {u : Unit} :
    xs.forM f = .ok u ↔ ∀ x ∈ xs, f x = .ok () := by
  induction xs with
  | nil => simp [pure_eq_ok_iff]
  | cons x xs ih =>
    rw [List.forM_eq_forM] at ih ⊢
    simp only [List.forM_cons, bind_eq_ok_iff, ih, List.forall_mem_cons]
    constructor
    · rintro ⟨_, hx, hxs⟩
      exact ⟨hx, hxs⟩
    · rintro ⟨hx, hxs⟩
      exact ⟨(), hx, hxs⟩

theorem subset_flatMap_of_mem {α β : Type} {f : α → List β} {xs : List α} {x : α} (h : x ∈ xs) :
    f x ⊆ xs.flatMap f := fun _ hy => List.mem_flatMap.mpr ⟨x, h, hy⟩

namespace OnConflict

theorem checkOwned_eq_ok_iff {target : Table} {c : Column} {u : Unit} :
    checkOwned target c = .ok u ↔ c.table = target := by
  by_cases h : c.table = target <;> simp [checkOwned, h]

/-- The keys that count. -/
def effectiveKeys (target : Table) (o : OnConflict) : List Column :=
  if o.keys.isEmpty then target.keyColumns else o.keys

theorem keyColumns_eq_ok_iff {target : Table} {o : OnConflict} {keys : List Column} :
    o.keyColumns target = .ok keys ↔
      o.effectiveKeys target = keys ∧ ∀ c ∈ o.keys, c.table = target := by
  obtain ⟨known, policy⟩ := o
  cases known with
  | nil => simp [keyColumns, effectiveKeys]
  | cons k ks =>
    simp only [keyColumns, effectiveKeys, List.isEmpty_cons, Bool.false_eq_true, if_false,
      bind_eq_ok_iff, pure_eq_ok_iff, forM_eq_ok_iff, checkOwned_eq_ok_iff]
    constructor
    · rintro ⟨_, howned, rfl⟩
      exact ⟨rfl, howned⟩
    · rintro ⟨rfl, howned⟩
      exact ⟨(), howned, rfl⟩

theorem assignments_eq_ok {target : Table} {o : OnConflict} {as : List Assignment}
    (h : o.assignments target = .ok as) {a : Assignment} (ha : a ∈ as) :
    (a ∈ (target.insertColumns.map Assignment.setIncoming) ∨
        ∃ items, o.policy = .update (.assignments items) ∧ a ∈ items ∧ a.column.table = target) ∧
      ∀ c, a.value = .incoming c → c.table = target ∨ c ∈ target.insertColumns := by
  obtain ⟨known, policy⟩ := o
  cases policy with
  | ignore =>
    simp only [assignments, Except.ok.injEq] at h
    simp [← h] at ha
  | update set =>
    cases set with
    | allColumns =>
      simp only [assignments, bind_eq_ok_iff, pure_eq_ok_iff] at h
      obtain ⟨keys, _, rfl⟩ := h
      obtain ⟨c, hc, rfl⟩ := List.mem_map.mp ha
      have hc := (List.mem_filter.mp hc).1
      refine ⟨.inl (List.mem_map_of_mem hc), fun x hx => .inr ?_⟩
      simp only [Assignment.setIncoming, SetValue.incoming.injEq] at hx
      exact hx ▸ hc
    | assignments items =>
      simp only [assignments, bind_eq_ok_iff, pure_eq_ok_iff, forM_eq_ok_iff,
        checkOwned_eq_ok_iff] at h
      obtain ⟨_, howned, rfl⟩ := h
      obtain ⟨_, hcolumn, hvalue⟩ := howned a ha
      refine ⟨.inr ⟨items, rfl, ha, hcolumn⟩, fun c hc => .inl ?_⟩
      simpa [hc, checkOwned_eq_ok_iff] using hvalue

end OnConflict

theorem InsertQuery.subQueries_of_assignment {q : InsertQuery} {o : OnConflict}
    {as : List Assignment} {a : Assignment} (hq : q.conflict = some o) (has : o.assignments q.target = .ok as)
    (ha : a ∈ as) : a.subQueries ⊆ q.subQueries := by
  rcases (OnConflict.assignments_eq_ok has ha).1 with hset | ⟨items, hpolicy, hitem, _⟩
  · obtain ⟨c, _, rfl⟩ := List.mem_map.mp hset
    exact List.nil_subset _
  · obtain ⟨keys, policy⟩ := o
    obtain rfl : policy = .update (.assignments items) := hpolicy
    have hsub : q.subQueries = items.flatMap Assignment.subQueries := by rw [subQueries, hq]
    rw [hsub]
    exact subset_flatMap_of_mem hitem

section

variable {d : Dialect} {options : QueryOptions}

theorem UpdateQuery.compose_eq_ok {q : UpdateQuery} {u : Sql.Update}
    (h : q.compose d options = .ok u) :
    ∃ items, List.Forall₂ (fun a i => a.composeUpdate (.of d options)
        (.root (.ofTarget q.target q.subQueries)) q.target = .ok i) q.assignments items ∧
      ∃ conditions, List.Forall₂ (fun c e => c.compose (.of d options)
        (.root (.ofTarget q.target q.subQueries)) = .ok e) q.filter conditions ∧
        ⟨q.target, items, Sql.Condition.conjunction? conditions⟩ = u := by
  simp only [compose, bind_eq_ok_iff, pure_eq_ok_iff, mapM_eq_ok_iff, check_eq_ok_iff,
    Criterion.composeWhere_eq_ok_iff] at h
  obtain ⟨_, _, items, hitems, _, ⟨conditions, hconditions, rfl⟩, rfl⟩ := h
  exact ⟨items, hitems, conditions, hconditions, rfl⟩

theorem DeleteQuery.compose_eq_ok {q : DeleteQuery} {u : Sql.Delete}
    (h : q.compose d options = .ok u) :
    ∃ conditions, List.Forall₂ (fun c e => c.compose (.of d options)
        (.root (.ofTarget q.target q.subQueries)) = .ok e) q.filter conditions ∧
      ⟨q.target, Sql.Condition.conjunction? conditions⟩ = u := by
  simp only [compose, bind_eq_ok_iff, pure_eq_ok_iff, check_eq_ok_iff,
    Criterion.composeWhere_eq_ok_iff] at h
  obtain ⟨_, _, ⟨conditions, hconditions, rfl⟩, rfl⟩ := h
  exact ⟨conditions, hconditions, rfl⟩

theorem InsertQuery.compose_eq_ok_iff {q : InsertQuery} {cells : List (List Cell)} {w : Sql.Write} :
    q.compose d options cells = .ok w ↔
      q.target.insertColumns ≠ [] ∧ (q.returning = true → d.returning = true) ∧
        q.composeBody (.of d options) cells = .ok w.body ∧
          w.returning = if q.returning then some q.target.generatedColumns else none := by
  obtain ⟨body, returning⟩ := w
  simp only [compose, bind_eq_ok_iff, check_eq_ok_iff, List.isEmpty_iff]
  by_cases hr : q.returning = true
  · simp only [hr, if_true, bind_eq_ok_iff, pure_eq_ok_iff, Setting.require_eq_ok_iff,
      Sql.Write.mk.injEq, forall_const]
    constructor
    · rintro ⟨hcolumns, _, hbody, _, hreturning, rfl, rfl⟩
      exact ⟨hcolumns, hreturning, hbody, rfl⟩
    · rintro ⟨hcolumns, hreturning, hbody, rfl⟩
      exact ⟨hcolumns, body, hbody, (), hreturning, rfl, rfl⟩
  · simp only [hr, if_false, pure_eq_ok_iff, Sql.Write.mk.injEq, Bool.false_eq_true,
      false_imp_iff, true_and]
    constructor
    · rintro ⟨hcolumns, _, hbody, rfl, rfl⟩
      exact ⟨hcolumns, hbody, rfl⟩
    · rintro ⟨hcolumns, hbody, rfl⟩
      exact ⟨hcolumns, body, hbody, rfl, rfl⟩

theorem InsertQuery.compose_eq_ok {q : InsertQuery} {rows : List (List Cell)} {w : Sql.Write}
    (h : q.compose d options rows = .ok w) :
    q.composeBody (.of d options) rows = .ok w.body ∧
      w.returning = if q.returning then some q.target.generatedColumns else none :=
  (compose_eq_ok_iff.mp h).2.2

end

namespace Query

/-- The options of the query itself. -/
def options? : Query → Option QueryOptions
  | .select query => query.options
  | .update query => query.options
  | .delete query => query.options
  | .insert draft _ => draft.query.options

/-- Where the whole of a query is composed: what a nested select has for options plays no part. -/
def setting (d : Dialect) (defaults : QueryOptions) (q : Query) : Setting :=
  .of d (q.options?.getD defaults)

end Query

/-- The commands that a query is composed into, with `defaults` where it has no options of its
own. -/
inductive Query.Composed (d : Dialect) (defaults : QueryOptions) : Query → Sql.Command → Prop where
  | select {q : Select} {t : Sql.Select}
      (h : q.compose (.of d (q.options.getD defaults)) (.root (.ofSelect q)) = .ok t) :
      Composed d defaults (.select q) (.select t)
  | update {q : UpdateQuery} {u : Sql.Update}
      (h : q.compose d (q.options.getD defaults) = .ok u) :
      Composed d defaults (.update q) (.update u)
  | delete {q : DeleteQuery} {u : Sql.Delete}
      (h : q.compose d (q.options.getD defaults) = .ok u) :
      Composed d defaults (.delete q) (.delete u)
  | insert {draft : InsertDraft} {rows : Rows} {cells : List (List Cell)} {w : Sql.Write}
      (hfault : draft.fault = none)
      (h : draft.query.compose d (draft.query.options.getD defaults) cells = .ok w) :
      Composed d defaults (.insert draft rows) (.write w)

/-- The output is a command in the spelling of the dialect. -/
def Output.Shows (d : Dialect) (c : Sql.Command) : Output → Prop
  | .statement s => s = c.statement d
  | .batch b => b.sql = (c.statement d).sql

section

variable {d : Dialect} {defaults options : QueryOptions}

theorem Select.build_eq_ok {q : Select} {b : Built Statement} (h : q.build d defaults = .ok b) :
    ∃ t, q.compose (.of d (q.options.getD defaults)) (.root (.ofSelect q)) = .ok t ∧
      b.output = (Sql.Command.select t).statement d := by
  simp only [build, compile, bind_eq_ok_iff, pure_eq_ok_iff] at h
  obtain ⟨_, ⟨t, ht, rfl⟩, rfl⟩ := h
  exact ⟨t, ht, rfl⟩

theorem UpdateQuery.build_eq_ok {q : UpdateQuery} {b : Built Statement}
    (h : q.build d defaults = .ok b) :
    ∃ t, q.compose d (q.options.getD defaults) = .ok t ∧
      b.output = (Sql.Command.update t).statement d := by
  simp only [build, bind_eq_ok_iff, pure_eq_ok_iff] at h
  obtain ⟨t, ht, rfl⟩ := h
  exact ⟨t, ht, rfl⟩

theorem DeleteQuery.build_eq_ok {q : DeleteQuery} {b : Built Statement}
    (h : q.build d defaults = .ok b) :
    ∃ t, q.compose d (q.options.getD defaults) = .ok t ∧
      b.output = (Sql.Command.delete t).statement d := by
  simp only [build, bind_eq_ok_iff, pure_eq_ok_iff] at h
  obtain ⟨t, ht, rfl⟩ := h
  exact ⟨t, ht, rfl⟩

namespace InsertQuery

variable {q : InsertQuery}

theorem compile_eq_ok {cells : List (List Cell)} {s : Statement}
    (h : q.compile d options cells = .ok s) :
    ∃ w, q.compose d options cells = .ok w ∧ s = (Sql.Command.write w).statement d := by
  simp only [compile, bind_eq_ok_iff, pure_eq_ok_iff] at h
  obtain ⟨w, hw, rfl⟩ := h
  exact ⟨w, hw, rfl⟩

theorem compileRow_eq_ok {row : List Value} {s : Statement}
    (h : q.compileRow d options row = .ok s) :
    ∃ cells w, q.compose d options cells = .ok w ∧ s = (Sql.Command.write w).statement d := by
  simp only [compileRow, bind_eq_ok_iff] at h
  obtain ⟨cells, _, h⟩ := h
  exact ⟨[cells], compile_eq_ok h⟩

theorem buildSingle_eq_ok {row : List Value} {b : Built Statement}
    (h : q.buildSingle d defaults row = .ok b) :
    ∃ cells w, q.compose d (q.options.getD defaults) cells = .ok w ∧
      b.output = (Sql.Command.write w).statement d := by
  simp only [buildSingle, bind_eq_ok_iff, pure_eq_ok_iff] at h
  obtain ⟨cells, _, s, hs, rfl⟩ := h
  exact ⟨[cells], compile_eq_ok hs⟩

theorem buildMultiple_eq_ok {rows : List (List Value)} {b : Built Statement}
    (h : q.buildMultiple d defaults rows = .ok b) :
    rows = [] ∧ b.output = .empty d ∨
      ∃ cells w, q.compose d (q.options.getD defaults) cells = .ok w ∧
        b.output = (Sql.Command.write w).statement d := by
  unfold buildMultiple at h
  by_cases hempty : rows.isEmpty = true
  · simp only [hempty, if_true, pure_eq_ok_iff] at h
    exact .inl ⟨List.isEmpty_iff.mp hempty, h ▸ rfl⟩
  · simp only [hempty, if_false, check_eq_ok_iff, bind_eq_ok_iff, pure_eq_ok_iff,
      Bool.false_eq_true] at h
    obtain ⟨_, cells, _, s, hs, rfl⟩ := h
    exact .inr ⟨cells, compile_eq_ok hs⟩

theorem buildBatch_eq_ok {rows : List (List Value)} {b : Built BatchStatement}
    (h : q.buildBatch d defaults rows = .ok b) :
    ∃ statements,
      List.Forall₂ (fun row s => q.compileRow d (q.options.getD defaults) row = .ok s)
        rows statements ∧
      ∃ sql, q.batchSql d (q.options.getD defaults) statements = .ok sql ∧
        b.output.sql = sql ∧ b.output.rows = statements.map (·.values) := by
  simp only [buildBatch, check_eq_ok_iff, bind_eq_ok_iff, pure_eq_ok_iff, mapM_eq_ok_iff] at h
  obtain ⟨_, statements, hrows, sql, hsql, rfl⟩ := h
  exact ⟨statements, hrows, sql, hsql, rfl, rfl⟩

theorem batchSql_eq_ok {rows : List (List Value)} {statements : List Statement} {sql : String}
    (hrows : List.Forall₂ (fun row s => q.compileRow d options row = .ok s) rows statements)
    (h : q.batchSql d options statements = .ok sql) :
    ∃ row s, q.compileRow d options row = .ok s ∧ sql = s.sql := by
  cases hrows with
  | nil =>
    simp only [batchSql, bind_eq_ok_iff, pure_eq_ok_iff] at h
    obtain ⟨s, hs, rfl⟩ := h
    exact ⟨_, s, hs, rfl⟩
  | cons hs _ => exact ⟨_, _, hs, (pure_eq_ok_iff.mp h).symm⟩

end InsertQuery

theorem InsertDraft.finish_eq_ok_iff {draft : InsertDraft} {q : InsertQuery} :
    draft.finish = .ok q ↔ draft.fault = none ∧ draft.query = q := by
  obtain ⟨query, fault⟩ := draft
  cases fault <;> simp [finish]

/-- The rows are built in the way in which they are sent. -/
inductive InsertQuery.Builds (d : Dialect) (defaults : QueryOptions) (q : InsertQuery) :
    Rows → Built Output → Prop where
  | single {row : List Value} {b : Built Statement} (h : q.buildSingle d defaults row = .ok b) :
      Builds d defaults q (.single row) ⟨.statement b.output, b.events⟩
  | multiple {rows : List (List Value)} {b : Built Statement}
      (h : q.buildMultiple d defaults rows = .ok b) :
      Builds d defaults q (.multiple rows) ⟨.statement b.output, b.events⟩
  | batch {rows : List (List Value)} {b : Built BatchStatement}
      (h : q.buildBatch d defaults rows = .ok b) :
      Builds d defaults q (.batch rows) ⟨.batch b.output, b.events⟩

theorem Query.build_insert_eq_ok_iff {draft : InsertDraft} {rows : Rows} {b : Built Output} :
    (insert draft rows).build d defaults = .ok b ↔
      draft.fault = none ∧ draft.query.Builds d defaults rows b := by
  constructor
  · intro h
    simp only [build, bind_eq_ok_iff, InsertDraft.finish_eq_ok_iff] at h
    obtain ⟨_, ⟨hfault, rfl⟩, h⟩ := h
    refine ⟨hfault, ?_⟩
    cases rows with
    | single row =>
      simp only [bind_eq_ok_iff, pure_eq_ok_iff] at h
      obtain ⟨_, hb, rfl⟩ := h
      exact .single hb
    | multiple rows =>
      simp only [bind_eq_ok_iff, pure_eq_ok_iff] at h
      obtain ⟨_, hb, rfl⟩ := h
      exact .multiple hb
    | batch rows =>
      simp only [bind_eq_ok_iff, pure_eq_ok_iff] at h
      obtain ⟨_, hb, rfl⟩ := h
      exact .batch hb
  · rintro ⟨hfault, h⟩
    simp only [build, bind_eq_ok_iff, InsertDraft.finish_eq_ok_iff]
    refine ⟨_, ⟨hfault, rfl⟩, ?_⟩
    cases h with
    | single hb => exact bind_eq_ok_iff.mpr ⟨_, hb, rfl⟩
    | multiple hb => exact bind_eq_ok_iff.mpr ⟨_, hb, rfl⟩
    | batch hb => exact bind_eq_ok_iff.mpr ⟨_, hb, rfl⟩

/-- What building gives shows a command that the query is composed into. Only several rows that
are none give the empty statement instead. -/
theorem Query.build_eq_ok {q : Query} {b : Built Output} (h : q.build d defaults = .ok b) :
    (∃ draft, q = .insert draft (.multiple [])) ∧ b.output = .statement (.empty d) ∨
      ∃ c, q.Composed d defaults c ∧ b.output.Shows d c := by
  cases q with
  | select q =>
    simp only [build, bind_eq_ok_iff, pure_eq_ok_iff] at h
    obtain ⟨_, hb, rfl⟩ := h
    obtain ⟨t, ht, he⟩ := Select.build_eq_ok hb
    exact .inr ⟨_, .select ht, he⟩
  | update q =>
    simp only [build, bind_eq_ok_iff, pure_eq_ok_iff] at h
    obtain ⟨_, hb, rfl⟩ := h
    obtain ⟨t, ht, he⟩ := UpdateQuery.build_eq_ok hb
    exact .inr ⟨_, .update ht, he⟩
  | delete q =>
    simp only [build, bind_eq_ok_iff, pure_eq_ok_iff] at h
    obtain ⟨_, hb, rfl⟩ := h
    obtain ⟨t, ht, he⟩ := DeleteQuery.build_eq_ok hb
    exact .inr ⟨_, .delete ht, he⟩
  | insert draft rows =>
    obtain ⟨hfault, h⟩ := build_insert_eq_ok_iff.mp h
    cases h with
    | single hb =>
      obtain ⟨cells, w, hw, he⟩ := InsertQuery.buildSingle_eq_ok hb
      exact .inr ⟨_, .insert hfault hw, he⟩
    | multiple hb =>
      rcases InsertQuery.buildMultiple_eq_ok hb with ⟨rfl, he⟩ | ⟨cells, w, hw, he⟩
      · exact .inl ⟨⟨draft, rfl⟩, congrArg Output.statement he⟩
      · exact .inr ⟨_, .insert hfault hw, he⟩
    | batch hb =>
      obtain ⟨statements, hrows, sql, hsql, he, _⟩ := InsertQuery.buildBatch_eq_ok hb
      obtain ⟨row, s, hs, hrow⟩ := InsertQuery.batchSql_eq_ok hrows hsql
      obtain ⟨cells, w, hw, hstatement⟩ := InsertQuery.compileRow_eq_ok hs
      refine .inr ⟨_, .insert hfault hw, ?_⟩
      show _ = _
      rw [he, hrow, hstatement]

theorem Query.build_shows {q : Query} {b : Built Output} (h : q.build d defaults = .ok b) :
    b.output = .statement (.empty d) ∨ ∃ c, q.Composed d defaults c ∧ b.output.Shows d c :=
  (build_eq_ok h).imp_left And.right

/-- Only an insert whose rows are sent in a batch gives a batch. -/
theorem Query.build_eq_batch {q : Query} {b : Built Output} {batch : BatchStatement}
    (h : q.build d defaults = .ok b) (ho : b.output = .batch batch) :
    ∃ draft rows, q = .insert draft (.batch rows) ∧ draft.fault = none ∧
      ∃ b, draft.query.buildBatch d defaults rows = .ok b ∧ b.output = batch := by
  cases q with
  | insert draft rows =>
    obtain ⟨hfault, h⟩ := build_insert_eq_ok_iff.mp h
    cases h with
    | batch hb => exact ⟨draft, _, rfl, hfault, _, hb, Output.batch.inj ho⟩
    | _ => cases ho
  | _ =>
    simp only [build, bind_eq_ok_iff, pure_eq_ok_iff] at h
    obtain ⟨_, _, rfl⟩ := h
    cases ho

end

end SqlCompose
