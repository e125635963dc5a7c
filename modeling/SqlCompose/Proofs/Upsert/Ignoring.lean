import SqlCompose.Proofs.Upsert.Identity

/-! Updates that have nothing to update. Each family writes them as it writes an upsert that leaves
existing rows alone, so that no statement ends in a `set` without items. -/

namespace SqlCompose

namespace OnConflict

/-- An existing row would be updated, but no column of it is written: none is assigned to, or all
inserted ones are keys. -/
inductive UpdatesNothing (target : Table) (o : OnConflict) : Prop where
  | unassigned (h : o.policy = .update (.assignments []))
  | onlyKeys (h : o.policy = .update .allColumns)
      (hkeys : ∀ c ∈ target.insertColumns, c ∈ o.effectiveKeys target)

/-- The same keys for an upsert that leaves existing rows alone. -/
def ignoring (o : OnConflict) : OnConflict := { o with policy := .ignore }

section

variable {target : Table} {o : OnConflict} (howned : ∀ c ∈ o.keys, c.table = target)

include howned

theorem keyColumns_eq : o.keyColumns target = .ok (o.effectiveKeys target) :=
  keyColumns_eq_ok_iff.mpr ⟨rfl, howned⟩

theorem keyColumns_ignoring : o.ignoring.keyColumns target = .ok (o.effectiveKeys target) :=
  keyColumns_eq (o := o.ignoring) howned

theorem assignments_allColumns (h : o.policy = .update .allColumns) :
    o.assignments target =
      .ok ((target.insertColumns.filter (· ∉ o.effectiveKeys target)).map Assignment.setIncoming) := by
  simp only [assignments, h, keyColumns_eq howned]
  rfl

theorem UpdatesNothing.assignments (h : o.UpdatesNothing target) :
    o.assignments target = .ok [] := by
  cases h with
  | unassigned h => simp [OnConflict.assignments, h, pure, Except.pure, bind, Except.bind]
  | onlyKeys h hkeys =>
    have hnone : target.insertColumns.filter (· ∉ o.effectiveKeys target) = [] :=
      List.filter_eq_nil_iff.mpr fun c hc => by simp [hkeys c hc]
    rw [assignments_allColumns howned h, hnone]
    rfl

/-- Each family finds the same keys and nothing to assign. -/
theorem UpdatesNothing.compose_eq (h : o.UpdatesNothing target)
    (hkeys : o.effectiveKeys target ≠ []) (σ : Setting) (p : Position) (rows : List (List Cell)) :
    o.compose σ p target rows = o.ignoring.compose σ p target rows := by
  have hnone := h.assignments howned
  have hignored : o.ignoring.assignments target = .ok [] := rfl
  have hfound := keyColumns_eq howned
  have hkept := keyColumns_ignoring howned
  unfold compose
  cases σ.dialect.conflict with
  | onConflict =>
    have hchecked : o.checkKeys target (o.effectiveKeys target) = .ok () := by
      unfold checkKeys
      cases o.policy <;> simp [hkeys]
    have hunchecked : o.ignoring.checkKeys target (o.effectiveKeys target) = .ok () := rfl
    simp only [composeOnConflict, hfound, hkept, hnone, hignored, hchecked, hunchecked, bind,
      Except.bind]
  | onDuplicateKey => simp only [composeOnDuplicateKey, hnone, hignored]
  | merge terminated => simp only [composeMerge, hfound, hkept, hnone, hignored, bind, Except.bind]
  | absent => rfl

end

end OnConflict

namespace InsertQuery

/-- However the rows are sent, what is built of the conflict depends on the body for bound rows only. -/
theorem build_eq_of_body {q q' : InsertQuery} {d : Dialect} (htarget : q'.target = q.target)
    (hoptions : q'.options = q.options) (hreturning : q'.returning = q.returning)
    (hverb : q'.verb = q.verb)
    (hbody : ∀ options cells,
      q'.composeBody (.of d options) cells = q.composeBody (.of d options) cells)
    (defaults : QueryOptions) (rows : Rows) :
    (Query.insert ⟨q', none⟩ rows).build d defaults =
      (Query.insert ⟨q, none⟩ rows).build d defaults := by
  have hcompile : ∀ options, q'.compile d options = q.compile d options := by
    intro options
    funext cells
    simp only [compile, compose, hbody, htarget, hreturning]
  have hrow : ∀ options, q'.compileRow d options = q.compileRow d options := by
    intro options
    funext row
    rw [compileRow, compileRow, hcompile, htarget]
  have hbatch : ∀ options, q'.batchSql d options = q.batchSql d options := by
    intro options
    funext statements
    cases statements with
    | nil => rw [batchSql, batchSql, hrow, htarget]
    | cons first rest => rfl
  have hbuilt : ∀ {α : Type} {x y : Except Error (Built α)} (f : Built α → Built Output),
      x = y → f <$> x = f <$> y := fun f h => congrArg (f <$> ·) h
  cases rows with
  | single row =>
    have hsingle : q'.buildSingle d defaults row = q.buildSingle d defaults row := by
      simp only [buildSingle, hcompile, hverb, htarget, hoptions]
    exact hbuilt _ hsingle
  | multiple rows =>
    have hmultiple : q'.buildMultiple d defaults rows = q.buildMultiple d defaults rows := by
      simp only [buildMultiple, hcompile, hverb, htarget, hoptions]
    exact hbuilt _ hmultiple
  | batch rows =>
    have hall : q'.buildBatch d defaults rows = q.buildBatch d defaults rows := by
      simp only [buildBatch, hrow, hbatch, hverb, htarget, hoptions]
    exact hbuilt _ hall

/-- The same insert, but an upsert leaves existing rows alone. -/
def ignoring (q : InsertQuery) : InsertQuery :=
  { q with conflict := q.conflict.map OnConflict.ignoring }

theorem verb_ignoring (q : InsertQuery) : q.ignoring.verb = q.verb := by
  rw [verb, verb, ignoring, Option.isSome_map]

variable {q : InsertQuery} {o : OnConflict}

/-- No sub-query is left out with the assignments. -/
theorem subQueries_ignoring (hq : q.conflict = some o) (h : o.UpdatesNothing q.target) :
    q.ignoring.subQueries = q.subQueries := by
  obtain ⟨target, conflict, returning, options⟩ := q
  obtain ⟨keys, policy⟩ := o
  obtain rfl : conflict = some ⟨keys, policy⟩ := hq
  rcases h with h | ⟨h, _⟩
  · obtain rfl : policy = .update (.assignments []) := h
    rfl
  · obtain rfl : policy = .update .allColumns := h
    rfl

variable (hq : q.conflict = some o) (howned : ∀ c ∈ o.keys, c.table = q.target)
  (hkeys : o.effectiveKeys q.target ≠ []) (h : o.UpdatesNothing q.target)

include hq howned hkeys h

theorem composeBody_ignoring (σ : Setting) (rows : List (List Cell)) :
    q.ignoring.composeBody σ rows = q.composeBody σ rows := by
  have hsub := subQueries_ignoring hq h
  have hconflict : q.ignoring.conflict = some o.ignoring := by rw [ignoring, hq]; rfl
  simp only [composeBody, hq, hconflict, hsub]
  exact (h.compose_eq howned hkeys σ _ rows).symm

theorem build_ignoring (d : Dialect) (defaults : QueryOptions) (rows : Rows) :
    (Query.insert ⟨q.ignoring, none⟩ rows).build d defaults =
      (Query.insert ⟨q, none⟩ rows).build d defaults := by
  have htarget : q.ignoring.target = q.target := rfl
  have hoptions : q.ignoring.options = q.options := rfl
  have hreturning : q.ignoring.returning = q.returning := rfl
  exact build_eq_of_body htarget hoptions hreturning (verb_ignoring q)
    (fun _ => composeBody_ignoring hq howned hkeys h _) defaults rows

end InsertQuery

/-- The same draft, but an upsert leaves existing rows alone. -/
def InsertDraft.ignoring (draft : InsertDraft) : InsertDraft :=
  { draft with query := draft.query.ignoring }

namespace Query

variable {draft : InsertDraft} {o : OnConflict} (ho : draft.query.conflict = some o)
  (howned : ∀ c ∈ o.keys, c.table = draft.query.target)

include ho howned

/-- Without explicit assignments the columns of a new row are parted into keys and columns that are
overwritten. -/
theorem targets_of_allColumns (hall : o.policy = .update .allColumns) {σ : Setting}
    {rows : List (List Cell)} {body : Sql.WriteBody}
    (h : draft.query.composeBody σ rows = .ok body) {c : Column} :
    c ∈ body.targets ↔ c ∈ body.columns ∧ c ∉ o.effectiveKeys draft.query.target := by
  unfold InsertQuery.composeBody at h
  rw [ho] at h
  obtain ⟨as, has, items, hitems, hform⟩ := OnConflict.compose_eq_ok_iff.mp h
  rw [OnConflict.assignments_allColumns howned hall, Except.ok.injEq] at has
  have htargets : List.Forall₂ (· = ·) (items.map (·.target)) (as.map (·.column)) :=
    List.forall₂_map_left_iff.mpr (List.forall₂_map_right_iff.mpr
      (hitems.flip.imp fun _ _ ha => Assignment.composeUpsert_target ha))
  rw [List.forall₂_eq_eq_eq] at htargets
  rw [Sql.WriteBody.targets, hform.items, hform.columns, htargets, ← has, List.map_map]
  simp [Assignment.setIncoming]

/-- Where there are keys, an update that has nothing to update is built like an upsert that leaves
existing rows alone. An update of all columns overwrites those that are inserted and no keys. -/
theorem build_update_ignoring (hkeys : o.effectiveKeys draft.query.target ≠ []) (d : Dialect)
    (defaults : QueryOptions) (rows : Rows) :
    (o.UpdatesNothing draft.query.target →
      (insert draft rows).build d defaults = (insert draft.ignoring rows).build d defaults) ∧
    (o.policy = .update .allColumns → ∀ b, (insert draft rows).build d defaults = .ok b →
      rows = .multiple [] ∧ b.output = .statement (.empty d) ∨
        ∃ w, (insert draft rows).Composed d defaults (.write w) ∧ b.output.Shows d (.write w) ∧
          w.body.targets ⊆ w.body.columns ∧
          ∀ c ∈ w.body.columns,
            (c ∈ w.body.targets ↔ c ∉ o.effectiveKeys draft.query.target)) := by
  constructor
  · intro h
    obtain ⟨query, fault⟩ := draft
    cases fault with
    | some fault => rfl
    | none => exact (query.build_ignoring ho howned hkeys h d defaults rows).symm
  · intro hall b hb
    by_cases hrows : rows = .multiple []
    · subst hrows
      exact .inl ⟨rfl, build_insert_nothing hb⟩
    · obtain ⟨cells, w, _, hfault, hw, hshows⟩ := build_insert_shows hb hrows
      have hbody := (InsertQuery.compose_eq_ok hw).1
      refine .inr ⟨w, .insert hfault hw, hshows, fun c hc => ?_, fun c hc => ?_⟩
      · exact ((targets_of_allColumns ho howned hall hbody).mp hc).1
      · rw [targets_of_allColumns ho howned hall hbody, and_iff_right hc]

end Query

namespace Staff

/-- Rows are told apart by the only column that they bring along. -/
def naming : InsertDraft := .run employee [.onDuplicateKeyUpdate, .conflictKey name]

end Staff

/-- Nothing is left to update where the name is the key, and the name is updated where it is none. -/
theorem Query.build_update_ignoring_naming :
    (∀ d, (insert Staff.naming (.single [.null, .text "A"])).build d default =
      (insert Staff.naming.ignoring (.single [.null, .text "A"])).build d default) ∧
    ∃ b w, (insert Staff.arriving (.single [.null, .text "A"])).build .postgres default = .ok b ∧
      b.output.Shows .postgres (.write w) ∧ w.body.targets ⊆ w.body.columns ∧
      (Staff.name ∈ w.body.columns → Staff.name ∈ w.body.targets) := by
  constructor
  · intro d
    have hkeys : ∀ c ∈ Staff.employee.insertColumns, c ∈ [Staff.name] := by decide
    have hnothing : OnConflict.UpdatesNothing Staff.employee ⟨[Staff.name], .update .allColumns⟩ :=
      .onlyKeys rfl hkeys
    exact (build_update_ignoring rfl (by decide) (by decide) d default _).1 hnothing
  · obtain ⟨b, hb⟩ : ∃ b, (insert Staff.arriving (.single [.null, .text "A"])).build .postgres
        default = .ok b := ⟨_, rfl⟩
    rcases (build_update_ignoring rfl (by decide) (by decide) .postgres default _).2 rfl b hb with
      ⟨hrows, _⟩ | ⟨w, _, hshows, hsubset, htargets⟩
    · cases hrows
    · exact ⟨b, w, hb, hshows, hsubset, fun hc => (htargets _ hc).mpr (by decide)⟩

end SqlCompose
