import Mathlib.Logic.Function.Basic
import SqlCompose.Build
import SqlCompose.Proofs.Payload.Blank

/-! Queries under other identities. The numbers of table references and of sub-queries say which
mentions mean one table and which mean one sub-query. A renaming keeps that and nothing else of the
numbers. -/

namespace SqlCompose

/-- New numbers for table references and for sub-queries. -/
structure Renaming where
  table : Nat → Nat
  subQuery : Nat → Nat
  table_injective : Function.Injective table
  subQuery_injective : Function.Injective subQuery

namespace Renaming

/-- Every number stays what it is. -/
def refl : Renaming := ⟨id, id, Function.injective_id, Function.injective_id⟩

theorem involutive_xor (k : Nat) : Function.Involutive (· ^^^ k) := by
  intro n
  show (n ^^^ k) ^^^ k = n
  rw [Nat.xor_assoc, Nat.xor_self, Nat.xor_zero]

/-- Every even number changes places with the odd one after it. -/
def neighbours : Renaming where
  table := (· ^^^ 1)
  subQuery := (· ^^^ 1)
  table_injective := (involutive_xor 1).injective
  subQuery_injective := (involutive_xor 1).injective

end Renaming

def Table.rename (ρ : Renaming) (t : Table) : Table := ⟨ρ.table t.id, t.definition⟩

/-- The column at the same place of the renamed reference. -/
def Column.rename (ρ : Renaming) (c : Column) : Column := ⟨c.table.rename ρ, c.index⟩

def SortItem.rename (ρ : Renaming) (i : SortItem) : SortItem :=
  { i with column := i.column.rename ρ }

def Aggregate.rename (ρ : Renaming) : Aggregate → Aggregate
  | .countAll => .countAll
  | .count c => .count (c.rename ρ)
  | .max c => .max (c.rename ρ)
  | .min c => .min (c.rename ρ)

mutual

@[simp] def Operand.rename (ρ : Renaming) : Operand → Operand
  | .column c => .column (c.rename ρ)
  | .outer c => .outer (c.rename ρ)
  | .parameter b => .parameter b
  | .subQuery query => .subQuery (query.rename ρ)
  | .pattern parts => .pattern parts

@[simp] def Operand.renameAll (ρ : Renaming) : List Operand → List Operand
  | [] => []
  | o :: os => o.rename ρ :: Operand.renameAll ρ os

@[simp] def OperandPair.rename (ρ : Renaming) : OperandPair → OperandPair
  | ⟨first, second⟩ => ⟨first.rename ρ, second.rename ρ⟩

@[simp] def OperandPair.renameAll (ρ : Renaming) : List OperandPair → List OperandPair
  | [] => []
  | p :: ps => p.rename ρ :: OperandPair.renameAll ρ ps

@[simp] def Criterion.rename (ρ : Renaming) : Criterion → Criterion
  | .compare op left right => .compare op (left.rename ρ) (right.rename ρ)
  | .isNull negated o => .isNull negated (o.rename ρ)
  | .like negated o pattern option => .like negated (o.rename ρ) (pattern.rename ρ) option
  | .between negated o low high => .between negated (o.rename ρ) (low.rename ρ) (high.rename ρ)
  | .inList negated o values => .inList negated (o.rename ρ) (Operand.renameAll ρ values)
  | .inSubQuery negated o query => .inSubQuery negated (o.rename ρ) (query.rename ρ)
  | .pairInList negated pair values =>
    .pairInList negated (pair.rename ρ) (OperandPair.renameAll ρ values)
  | .pairInSubQuery negated pair query =>
    .pairInSubQuery negated (pair.rename ρ) (query.rename ρ)
  | .exists negated query => .exists negated (query.rename ρ)
  | .all children => .all (Criterion.renameAll ρ children)
  | .any children => .any (Criterion.renameAll ρ children)
  | .not children => .not (Criterion.renameAll ρ children)

@[simp] def Criterion.renameAll (ρ : Renaming) : List Criterion → List Criterion
  | [] => []
  | c :: cs => c.rename ρ :: Criterion.renameAll ρ cs

@[simp] def Join.rename (ρ : Renaming) : Join → Join
  | ⟨kind, table, on⟩ => ⟨kind, table.rename ρ, Criterion.renameAll ρ on⟩

@[simp] def Join.renameAll (ρ : Renaming) : List Join → List Join
  | [] => []
  | j :: js => j.rename ρ :: Join.renameAll ρ js

@[simp] def SelectItem.rename (ρ : Renaming) : SelectItem → SelectItem
  | .column c => .column (c.rename ρ)
  | .aggregate a => .aggregate (a.rename ρ)
  | .subQuery query => .subQuery (query.rename ρ)

@[simp] def SelectItem.renameAll (ρ : Renaming) : List SelectItem → List SelectItem
  | [] => []
  | i :: is => i.rename ρ :: SelectItem.renameAll ρ is

@[simp] def Projection.rename (ρ : Renaming) : Projection → Projection
  | .allColumns => .allColumns
  | .explicit items => .explicit (SelectItem.renameAll ρ items)

@[simp] def Select.rename (ρ : Renaming) : Select → Select
  | ⟨target, joins, filter, projection, distinct, orderBy, offset, limit, lock, options⟩ =>
    ⟨target.rename ρ, Join.renameAll ρ joins, Criterion.renameAll ρ filter, projection.rename ρ,
      distinct, orderBy.map (SortItem.rename ρ), offset, limit, lock, options⟩

@[simp] def SubQuery.rename (ρ : Renaming) : SubQuery → SubQuery
  | ⟨id, select⟩ => ⟨ρ.subQuery id, select.rename ρ⟩

end

@[simp] theorem Operand.renameAll_eq_map (ρ : Renaming) (os : List Operand) :
    renameAll ρ os = os.map (rename ρ) := by
  induction os with
  | nil => rfl
  | cons o os ih => simp [ih]

@[simp] theorem OperandPair.renameAll_eq_map (ρ : Renaming) (ps : List OperandPair) :
    renameAll ρ ps = ps.map (rename ρ) := by
  induction ps with
  | nil => rfl
  | cons p ps ih => simp [ih]

@[simp] theorem Criterion.renameAll_eq_map (ρ : Renaming) (cs : List Criterion) :
    renameAll ρ cs = cs.map (rename ρ) := by
  induction cs with
  | nil => rfl
  | cons c cs ih => simp [ih]

@[simp] theorem Join.renameAll_eq_map (ρ : Renaming) (js : List Join) :
    renameAll ρ js = js.map (rename ρ) := by
  induction js with
  | nil => rfl
  | cons j js ih => simp [ih]

@[simp] theorem SelectItem.renameAll_eq_map (ρ : Renaming) (is : List SelectItem) :
    renameAll ρ is = is.map (rename ρ) := by
  induction is with
  | nil => rfl
  | cons i is ih => simp [ih]

def Assignment.rename (ρ : Renaming) (a : Assignment) : Assignment :=
  ⟨a.column.rename ρ, match a.value with
    | .operand o => .operand (o.rename ρ)
    | .incoming c => .incoming (c.rename ρ)⟩

def UpdateQuery.rename (ρ : Renaming) (q : UpdateQuery) : UpdateQuery :=
  ⟨q.target.rename ρ, q.assignments.map (Assignment.rename ρ), q.filter.map (Criterion.rename ρ),
    q.options⟩

def DeleteQuery.rename (ρ : Renaming) (q : DeleteQuery) : DeleteQuery :=
  ⟨q.target.rename ρ, q.filter.map (Criterion.rename ρ), q.options⟩

def ConflictPolicy.rename (ρ : Renaming) : ConflictPolicy → ConflictPolicy
  | .update .allColumns => .update .allColumns
  | .update (.assignments items) => .update (.assignments (items.map (Assignment.rename ρ)))
  | .ignore => .ignore

def OnConflict.rename (ρ : Renaming) (o : OnConflict) : OnConflict :=
  ⟨o.keys.map (Column.rename ρ), o.policy.rename ρ⟩

def InsertQuery.rename (ρ : Renaming) (q : InsertQuery) : InsertQuery :=
  ⟨q.target.rename ρ, q.conflict.map (OnConflict.rename ρ), q.returning, q.options⟩

def InsertDraft.rename (ρ : Renaming) (draft : InsertDraft) : InsertDraft :=
  ⟨draft.query.rename ρ, draft.fault⟩

/-- The rows of an insert are for the columns of its table, whatever its number is. -/
def Query.rename (ρ : Renaming) : Query → Query
  | .select q => .select (q.rename ρ)
  | .update q => .update (q.rename ρ)
  | .delete q => .delete (q.rename ρ)
  | .insert draft rows => .insert (draft.rename ρ) rows

section

variable {ρ : Renaming}

theorem Table.rename_injective : Function.Injective (Table.rename ρ) := by
  intro t u h
  obtain ⟨id, definition⟩ := t
  obtain ⟨id', definition'⟩ := u
  obtain ⟨hid, rfl⟩ := Table.mk.inj h
  obtain rfl : id = id' := ρ.table_injective hid
  rfl

theorem Table.columns_rename (t : Table) :
    (t.rename ρ).columns = t.columns.map (Column.rename ρ) := by
  rw [columns, columns, List.map_map]
  rfl

theorem Column.rename_injective : Function.Injective (Column.rename ρ) := by
  intro c c' h
  obtain ⟨t, i⟩ := c
  obtain ⟨t', i'⟩ := c'
  obtain rfl : t = t' := Table.rename_injective (congrArg Column.table h)
  have hi : i = i' := eq_of_heq (Column.mk.inj h).2
  rw [hi]

theorem Operand.subQueries_rename (o : Operand) :
    (o.rename ρ).subQueries = o.subQueries.map (SubQuery.rename ρ) := by
  cases o <;> simp [subQueries]

theorem OperandPair.subQueries_rename (p : OperandPair) :
    (p.rename ρ).subQueries = p.subQueries.map (SubQuery.rename ρ) := by
  obtain ⟨first, second⟩ := p
  simp [subQueries, Operand.subQueries_rename]

theorem Criterion.subQueries_rename (c : Criterion) :
    (c.rename ρ).subQueries = c.subQueries.map (SubQuery.rename ρ) := by
  have hos : ∀ os : List Operand, (os.map (Operand.rename ρ)).flatMap Operand.subQueries =
      (os.flatMap Operand.subQueries).map (SubQuery.rename ρ) := fun os =>
    flatMap_map_of fun o _ => o.subQueries_rename
  have hps : ∀ ps : List OperandPair,
      (ps.map (OperandPair.rename ρ)).flatMap OperandPair.subQueries =
        (ps.flatMap OperandPair.subQueries).map (SubQuery.rename ρ) := fun ps =>
    flatMap_map_of fun p _ => p.subQueries_rename
  induction c with
  | all cs ih => rw [rename, renameAll_eq_map, subQueries_all, subQueries_all, flatMap_map_of ih]
  | any cs ih => rw [rename, renameAll_eq_map, subQueries_any, subQueries_any, flatMap_map_of ih]
  | not cs ih => rw [rename, renameAll_eq_map, subQueries_not, subQueries_not, flatMap_map_of ih]
  | _ => simp [subQueries, Operand.subQueries_rename, OperandPair.subQueries_rename, hos, hps]

theorem SelectItem.subQueries_rename (i : SelectItem) :
    (i.rename ρ).subQueries = i.subQueries.map (SubQuery.rename ρ) := by
  cases i <;> simp [subQueries]

theorem Projection.subQueries_rename (p : Projection) :
    (p.rename ρ).subQueries = p.subQueries.map (SubQuery.rename ρ) := by
  cases p with
  | allColumns => rfl
  | explicit items =>
    rw [rename, SelectItem.renameAll_eq_map]
    exact flatMap_map_of fun i _ => i.subQueries_rename

namespace Select

theorem criteria_rename (s : Select) :
    (s.rename ρ).criteria = s.criteria.map (Criterion.rename ρ) := by
  cases s with
  | mk target joins filter projection distinct orderBy offset limit lock options =>
    have hon : ∀ j ∈ joins, (j.rename ρ).on = j.on.map (Criterion.rename ρ) := by
      intro j _
      obtain ⟨kind, table, on⟩ := j
      simp
    simp [criteria, flatMap_map_of hon]

theorem subQueries_rename (s : Select) :
    (s.rename ρ).subQueries = s.subQueries.map (SubQuery.rename ρ) := by
  have hprojection : (s.rename ρ).projection = s.projection.rename ρ := by
    cases s
    simp
  rw [subQueries, subQueries, criteria_rename, hprojection, Projection.subQueries_rename,
    flatMap_map_of fun (c : Criterion) _ => c.subQueries_rename, List.map_append]

theorem tables_rename (s : Select) : (s.rename ρ).tables = s.tables.map (Table.rename ρ) := by
  cases s with
  | mk target joins filter projection distinct orderBy offset limit lock options =>
    have hon : ∀ j ∈ joins, (j.rename ρ).table = j.table.rename ρ := by
      intro j _
      obtain ⟨kind, table, on⟩ := j
      simp
    simpa [tables] using hon

theorem width_rename (s : Select) : (s.rename ρ).width = s.width := by
  cases s with
  | mk target joins filter projection distinct orderBy offset limit lock options =>
    cases projection <;> simp [width, Table.rename]

theorem options_rename (s : Select) : (s.rename ρ).options = s.options := by
  cases s
  rfl

end Select

theorem Assignment.subQueries_rename (a : Assignment) :
    (a.rename ρ).subQueries = a.subQueries.map (SubQuery.rename ρ) := by
  obtain ⟨column, value⟩ := a
  cases value with
  | operand o => exact o.subQueries_rename
  | incoming c => rfl

theorem UpdateQuery.subQueries_rename (q : UpdateQuery) :
    (q.rename ρ).subQueries = q.subQueries.map (SubQuery.rename ρ) := by
  rw [subQueries, subQueries, rename, List.map_append,
    flatMap_map_of fun (a : Assignment) _ => a.subQueries_rename,
    flatMap_map_of fun (c : Criterion) _ => c.subQueries_rename]

theorem DeleteQuery.subQueries_rename (q : DeleteQuery) :
    (q.rename ρ).subQueries = q.subQueries.map (SubQuery.rename ρ) :=
  flatMap_map_of fun c _ => c.subQueries_rename

theorem InsertQuery.subQueries_rename (q : InsertQuery) :
    (q.rename ρ).subQueries = q.subQueries.map (SubQuery.rename ρ) := by
  obtain ⟨target, conflict, returning, options⟩ := q
  match conflict with
  | none => rfl
  | some ⟨keys, .ignore⟩ => rfl
  | some ⟨keys, .update .allColumns⟩ => rfl
  | some ⟨keys, .update (.assignments items)⟩ =>
    exact flatMap_map_of fun a _ => a.subQueries_rename

end

end SqlCompose
