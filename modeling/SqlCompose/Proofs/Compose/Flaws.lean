import SqlCompose.Build

/-! What queries are refused with for their own flaws. A check of names, tables, keys or rows fails
with the same errors under every dialect, and never for what calls or levels of sub-queries are
answerable for. -/

namespace SqlCompose

/-- Whatever the computation fails with is such an error. -/
def FailsOnly {α : Type} (P : Error → Prop) (x : Except Error α) : Prop := ∀ e, x = .error e → P e

namespace FailsOnly

variable {α β : Type} {P Q : Error → Prop}

theorem ok (a : α) : FailsOnly P (.ok a) := fun _ h => by cases h

theorem error {e : Error} (h : P e) : FailsOnly P (.error e : Except Error α) :=
  fun _ he => Except.error.inj he ▸ h

theorem imp {x : Except Error α} (h : FailsOnly P x) (hPQ : ∀ e, P e → Q e) : FailsOnly Q x :=
  fun e he => hPQ e (h e he)

theorem bind {x : Except Error α} {f : α → Except Error β} (hx : FailsOnly P x)
    (hf : ∀ a, x = .ok a → FailsOnly P (f a)) : FailsOnly P (x >>= f) := by
  cases x with
  | error e => exact error (hx e rfl)
  | ok a => exact hf a rfl

theorem map {x : Except Error α} (h : FailsOnly P x) (f : α → β) : FailsOnly P (f <$> x) := by
  cases x with
  | error e => exact error (h e rfl)
  | ok a => exact ok (f a)

theorem mapM {f : α → Except Error β} {xs : List α} (h : ∀ x ∈ xs, FailsOnly P (f x)) :
    FailsOnly P (xs.mapM f) := by
  induction xs with
  | nil => exact ok []
  | cons x xs ih =>
    rw [List.mapM_cons]
    have htail := ih fun y hy => h y (List.mem_cons_of_mem _ hy)
    exact (h x List.mem_cons_self).bind fun _ _ => htail.bind fun _ _ => ok _

theorem forM {f : α → Except Error Unit} {xs : List α} (h : ∀ x ∈ xs, FailsOnly P (f x)) :
    FailsOnly P (xs.forM f) := by
  induction xs with
  | nil => exact ok ()
  | cons x xs ih =>
    rw [List.forM_eq_forM] at ih ⊢
    rw [List.forM_cons]
    exact (h x List.mem_cons_self).bind fun _ _ => ih fun y hy => h y (List.mem_cons_of_mem _ hy)

theorem check {c : Prop} [Decidable c] {e : Error} {f : PUnit → Except Error α}
    {x : Except Error α} (he : c → P e) (h : ¬ c → FailsOnly P x) :
    FailsOnly P (if c then throw e >>= f else x) := by
  by_cases hc : c
  · rw [if_pos hc]
    exact error (he hc)
  · rw [if_neg hc]
    exact h hc

theorem guard {c : Prop} [Decidable c] {e : Error} (he : P e) {x : Except Error α}
    (h : FailsOnly P x) : FailsOnly P (if c then x else .error e) := by
  by_cases hc : c
  · rwa [if_pos hc]
  · rw [if_neg hc]
    exact error he

end FailsOnly

/-- A table that no level in sight introduces, or something that is invalid in itself. -/
inductive Error.Flaw : Error → Prop where
  | unknownTable (table column : String) : Flaw (.unknownTable table column)
  | validation {fault : Fault} (hlevel : fault ≠ .unregisteredSubQuery := by simp)
      (hcall : ∀ call, fault ≠ .misuse call := by simp) : Flaw (.validation fault)

open Error (Flaw)

theorem Column.qualify_failsOnly (c : Column) (levels : List Level) (outer : Bool) :
    FailsOnly Flaw (c.qualify levels outer) := by
  unfold qualify
  cases Level.resolve? levels c.table with
  | some name => exact .ok _
  | none => exact .error (.unknownTable _ _)

theorem Table.item_failsOnly (t : Table) (level : Level) : FailsOnly Flaw (t.item level) := by
  unfold item
  cases level.lookup t with
  | some name => exact .ok _
  | none => exact .error (.unknownTable _ _)

theorem Select.checkTables_failsOnly (tables : List Table) :
    FailsOnly Flaw (checkTables tables) := by
  unfold checkTables
  cases firstRepeated? [] tables with
  | none => exact .ok ()
  | some t => exact .error .validation

theorem Select.checkWidth_failsOnly (width : Option Nat) (found : Nat) :
    FailsOnly Flaw (checkWidth width found) := by
  cases width with
  | none => exact .ok ()
  | some w => exact .guard .validation (.ok ())

namespace OnConflict

theorem checkOwned_failsOnly (target : Table) (c : Column) :
    FailsOnly Flaw (checkOwned target c) :=
  .guard .validation (.ok ())

theorem keyColumns_failsOnly (target : Table) (o : OnConflict) :
    FailsOnly Flaw (o.keyColumns target) := by
  unfold keyColumns
  by_cases h : o.keys.isEmpty = true
  · rw [if_pos h]
    exact .ok _
  · rw [if_neg h]
    exact (FailsOnly.forM fun c _ => checkOwned_failsOnly target c).bind fun _ _ => .ok _

theorem assignments_failsOnly (target : Table) (o : OnConflict) :
    FailsOnly Flaw (o.assignments target) := by
  obtain ⟨keys, policy⟩ := o
  cases policy with
  | ignore => exact .ok _
  | update set =>
    cases set with
    | allColumns => exact (keyColumns_failsOnly target _).bind fun _ _ => .ok _
    | assignments items =>
      refine (FailsOnly.forM fun a _ => ?_).bind fun _ _ => .ok _
      refine (checkOwned_failsOnly target a.column).bind fun _ _ => ?_
      cases a.value with
      | incoming source => exact checkOwned_failsOnly target source
      | operand _ => exact .ok ()

theorem checkKeys_failsOnly (target : Table) (keys : List Column) (o : OnConflict) :
    FailsOnly Flaw (o.checkKeys target keys) := by
  obtain ⟨known, policy⟩ := o
  cases policy with
  | ignore => exact .ok ()
  | update set =>
    unfold checkKeys
    by_cases h : keys.isEmpty = true
    · simp only [if_pos h]
      exact .error .validation
    · simp only [if_neg h]
      exact .ok ()

end OnConflict

theorem Cell.check_failsOnly (column : Column) (value : Value) :
    FailsOnly Flaw (Cell.check column value) := by
  unfold check
  cases value.type? with
  | none => exact .ok _
  | some type => exact .guard .validation (.ok _)

theorem Table.bindRow_failsOnly (t : Table) (row : List Value) :
    FailsOnly Flaw (t.bindRow row) := by
  refine .guard .validation (.mapM fun cv _ => ?_)
  exact Cell.check_failsOnly cv.1 cv.2

namespace InsertQuery

variable {d : Dialect} {options defaults : QueryOptions} {q : InsertQuery} {P : Error → Prop}
  (hflaw : ∀ e, Flaw e → P e)

section

variable (h : ∀ cells, FailsOnly P (q.compose d options cells))

include hflaw h

theorem compileRow_failsOnly (row : List Value) : FailsOnly P (q.compileRow d options row) :=
  ((q.target.bindRow_failsOnly row).imp hflaw).bind fun _ _ => (h _).bind fun _ _ => .ok _

/-- The SQL of a batch is that of a row, of which there may be none. -/
theorem batchSql_failsOnly (statements : List Statement) :
    FailsOnly P (q.batchSql d options statements) := by
  cases statements with
  | nil => exact (compileRow_failsOnly hflaw h q.target.nullRow).bind fun _ _ => .ok _
  | cons first rest => exact .ok _

end

variable (h : ∀ cells, FailsOnly P (q.compose d (q.options.getD defaults) cells))

include hflaw h

theorem buildSingle_failsOnly (row : List Value) : FailsOnly P (q.buildSingle d defaults row) :=
  ((q.target.bindRow_failsOnly row).imp hflaw).bind fun _ _ =>
    ((h _).bind fun _ _ => .ok _).bind fun _ _ => .ok _

theorem buildMultiple_failsOnly {rows : List (List Value)}
    (hmany : rows.length > 1 → d.multiRowInsert = false → P (.unsupported d.name .multiRowInsert)) :
    FailsOnly P (q.buildMultiple d defaults rows) := by
  unfold buildMultiple
  by_cases hempty : rows.isEmpty = true
  · simp only [hempty, if_true]
    exact .ok _
  · simp only [hempty, if_false, Bool.false_eq_true]
    refine .check (fun hrefused => ?_) fun _ => ?_
    · simp only [Bool.and_eq_true, decide_eq_true_eq, Bool.not_eq_true'] at hrefused
      exact hmany hrefused.1 hrefused.2
    · have hcells : FailsOnly P (rows.mapM q.target.bindRow) :=
        .mapM fun row _ => (q.target.bindRow_failsOnly row).imp hflaw
      exact hcells.bind fun _ _ => ((h _).bind fun _ _ => .ok _).bind fun _ _ => .ok _

theorem buildBatch_failsOnly
    (hkeys : q.target.definition.hasIdentity = true → d.batchGeneratedKeys = false →
      P (.unsupported d.name (.batchGeneratedKeys q.verb q.target.name)))
    (rows : List (List Value)) : FailsOnly P (q.buildBatch d defaults rows) := by
  refine .check (fun hrefused => ?_) fun _ => ?_
  · simp only [Bool.and_eq_true, Bool.not_eq_true'] at hrefused
    exact hkeys hrefused.1 hrefused.2
  · have hstatements := FailsOnly.mapM fun row (_ : row ∈ rows) => compileRow_failsOnly hflaw h row
    exact hstatements.bind fun _ _ => (batchSql_failsOnly hflaw h _).bind fun _ _ => .ok _

end InsertQuery

end SqlCompose
