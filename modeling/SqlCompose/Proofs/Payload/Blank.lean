import Mathlib.Data.List.Basic
import SqlCompose.Compose.Like
import SqlCompose.Proofs.Scope.Registration

/-! Queries with their payloads blanked: every value becomes a fixed one of its own constructor and
every fragment of a LIKE pattern loses its text. Two queries have one shape when blanking makes them
equal. Levels and aliases depend on the shape alone. -/

namespace SqlCompose

namespace Value

/-- The value with a fixed payload. -/
@[simp] def blank : Value → Value
  | .null => .null
  | .bool _ => .bool false
  | .smallInt _ => .smallInt 0
  | .int _ => .int 0
  | .bigInt _ => .bigInt 0
  | .real _ => .real ⟨0⟩
  | .double _ => .double ⟨0⟩
  | .text _ => .text ""
  | .bytes _ => .bytes []
  | .uuid _ => .uuid []
  | .date _ => .date ⟨2000, 1, 1, by decide, by decide⟩
  | .timestamp _ => .timestamp ⟨⟨2000, 1, 1, by decide, by decide⟩, 0, 0, 0, 0, by decide,
      by decide, by decide, by decide⟩
  | .timestampTz _ => .timestampTz ⟨⟨2000, 1, 1, by decide, by decide⟩, 0, 0, 0, 0, by decide,
      by decide, by decide, by decide⟩
  | .json _ => .json .null

end Value

@[simp] def Bound.blank (b : Bound) : Bound := ⟨b.value.blank, b.type⟩

@[simp] def PatternPart.blank (p : PatternPart) : PatternPart := ⟨"", p.option⟩

mutual

@[simp] def Operand.blank : Operand → Operand
  | .column c => .column c
  | .outer c => .outer c
  | .parameter b => .parameter b.blank
  | .subQuery query => .subQuery query.blank
  | .pattern parts => .pattern (parts.map PatternPart.blank)

@[simp] def Operand.blankAll : List Operand → List Operand
  | [] => []
  | o :: os => o.blank :: Operand.blankAll os

@[simp] def OperandPair.blank : OperandPair → OperandPair
  | ⟨first, second⟩ => ⟨first.blank, second.blank⟩

@[simp] def OperandPair.blankAll : List OperandPair → List OperandPair
  | [] => []
  | p :: ps => p.blank :: OperandPair.blankAll ps

@[simp] def Criterion.blank : Criterion → Criterion
  | .compare op left right => .compare op left.blank right.blank
  | .isNull negated o => .isNull negated o.blank
  | .like negated o pattern option => .like negated o.blank pattern.blank option
  | .between negated o low high => .between negated o.blank low.blank high.blank
  | .inList negated o values => .inList negated o.blank (Operand.blankAll values)
  | .inSubQuery negated o query => .inSubQuery negated o.blank query.blank
  | .pairInList negated pair values => .pairInList negated pair.blank (OperandPair.blankAll values)
  | .pairInSubQuery negated pair query => .pairInSubQuery negated pair.blank query.blank
  | .exists negated query => .exists negated query.blank
  | .all children => .all (Criterion.blankAll children)
  | .any children => .any (Criterion.blankAll children)
  | .not children => .not (Criterion.blankAll children)

@[simp] def Criterion.blankAll : List Criterion → List Criterion
  | [] => []
  | c :: cs => c.blank :: Criterion.blankAll cs

@[simp] def Join.blank : Join → Join
  | ⟨kind, table, on⟩ => ⟨kind, table, Criterion.blankAll on⟩

@[simp] def Join.blankAll : List Join → List Join
  | [] => []
  | j :: js => j.blank :: Join.blankAll js

@[simp] def SelectItem.blank : SelectItem → SelectItem
  | .column c => .column c
  | .aggregate a => .aggregate a
  | .subQuery query => .subQuery query.blank

@[simp] def SelectItem.blankAll : List SelectItem → List SelectItem
  | [] => []
  | i :: is => i.blank :: SelectItem.blankAll is

@[simp] def Projection.blank : Projection → Projection
  | .allColumns => .allColumns
  | .explicit items => .explicit (SelectItem.blankAll items)

/-- Limits and offsets are not payloads. -/
@[simp] def Select.blank : Select → Select
  | ⟨target, joins, filter, projection, distinct, orderBy, offset, limit, lock, options⟩ =>
    ⟨target, Join.blankAll joins, Criterion.blankAll filter, projection.blank, distinct, orderBy,
      offset, limit, lock, options⟩

@[simp] def SubQuery.blank : SubQuery → SubQuery
  | ⟨id, select⟩ => ⟨id, select.blank⟩

end

@[simp] theorem Operand.blankAll_eq_map (os : List Operand) : blankAll os = os.map blank := by
  induction os with
  | nil => rfl
  | cons o os ih => simp [ih]

@[simp] theorem OperandPair.blankAll_eq_map (ps : List OperandPair) :
    blankAll ps = ps.map blank := by
  induction ps with
  | nil => rfl
  | cons p ps ih => simp [ih]

@[simp] theorem Criterion.blankAll_eq_map (cs : List Criterion) : blankAll cs = cs.map blank := by
  induction cs with
  | nil => rfl
  | cons c cs ih => simp [ih]

@[simp] theorem Join.blankAll_eq_map (js : List Join) : blankAll js = js.map blank := by
  induction js with
  | nil => rfl
  | cons j js ih => simp [ih]

@[simp] theorem SelectItem.blankAll_eq_map (is : List SelectItem) : blankAll is = is.map blank := by
  induction is with
  | nil => rfl
  | cons i is ih => simp [ih]

def Assignment.blank (a : Assignment) : Assignment :=
  ⟨a.column, match a.value with
    | .operand o => .operand o.blank
    | .incoming c => .incoming c⟩

def UpdateQuery.blank (q : UpdateQuery) : UpdateQuery :=
  { q with assignments := q.assignments.map Assignment.blank, filter := q.filter.map Criterion.blank }

def DeleteQuery.blank (q : DeleteQuery) : DeleteQuery :=
  { q with filter := q.filter.map Criterion.blank }

def ConflictPolicy.blank : ConflictPolicy → ConflictPolicy
  | .update .allColumns => .update .allColumns
  | .update (.assignments items) => .update (.assignments (items.map Assignment.blank))
  | .ignore => .ignore

def OnConflict.blank (o : OnConflict) : OnConflict := ⟨o.keys, o.policy.blank⟩

def InsertQuery.blank (q : InsertQuery) : InsertQuery :=
  { q with conflict := q.conflict.map OnConflict.blank }

def InsertDraft.blank (draft : InsertDraft) : InsertDraft := ⟨draft.query.blank, draft.fault⟩

theorem flatMap_map_of {α β : Type} {f : α → α} {g : α → List β} {h : β → β} {xs : List α}
    (hg : ∀ x ∈ xs, g (f x) = (g x).map h) : (xs.map f).flatMap g = (xs.flatMap g).map h := by
  rw [List.flatMap_map, List.map_flatMap]
  exact List.flatMap_congr hg

theorem Operand.subQueries_blank (o : Operand) :
    o.blank.subQueries = o.subQueries.map SubQuery.blank := by
  cases o <;> simp [subQueries]

theorem OperandPair.subQueries_blank (p : OperandPair) :
    p.blank.subQueries = p.subQueries.map SubQuery.blank := by
  obtain ⟨first, second⟩ := p
  simp [subQueries, Operand.subQueries_blank]

theorem Criterion.subQueries_blank (c : Criterion) :
    c.blank.subQueries = c.subQueries.map SubQuery.blank := by
  have hos : ∀ os : List Operand, (os.map Operand.blank).flatMap Operand.subQueries =
      (os.flatMap Operand.subQueries).map SubQuery.blank := fun os =>
    flatMap_map_of fun o _ => o.subQueries_blank
  have hps : ∀ ps : List OperandPair, (ps.map OperandPair.blank).flatMap OperandPair.subQueries =
      (ps.flatMap OperandPair.subQueries).map SubQuery.blank := fun ps =>
    flatMap_map_of fun p _ => p.subQueries_blank
  induction c with
  | all cs ih => rw [blank, blankAll_eq_map, subQueries_all, subQueries_all, flatMap_map_of ih]
  | any cs ih => rw [blank, blankAll_eq_map, subQueries_any, subQueries_any, flatMap_map_of ih]
  | not cs ih => rw [blank, blankAll_eq_map, subQueries_not, subQueries_not, flatMap_map_of ih]
  | _ => simp [subQueries, Operand.subQueries_blank, OperandPair.subQueries_blank, hos, hps]

theorem SelectItem.subQueries_blank (i : SelectItem) :
    i.blank.subQueries = i.subQueries.map SubQuery.blank := by
  cases i <;> simp [subQueries]

theorem Projection.subQueries_blank (p : Projection) :
    p.blank.subQueries = p.subQueries.map SubQuery.blank := by
  cases p with
  | allColumns => rfl
  | explicit items =>
    rw [blank, SelectItem.blankAll_eq_map]
    exact flatMap_map_of fun i _ => i.subQueries_blank

namespace Select

theorem criteria_blank (s : Select) : s.blank.criteria = s.criteria.map Criterion.blank := by
  cases s with
  | mk target joins filter projection distinct orderBy offset limit lock options =>
    have hon : ∀ j ∈ joins, j.blank.on = j.on.map Criterion.blank := by
      intro j _
      obtain ⟨kind, table, on⟩ := j
      simp
    simp [criteria, flatMap_map_of hon]

theorem subQueries_blank (s : Select) :
    s.blank.subQueries = s.subQueries.map SubQuery.blank := by
  have hprojection : s.blank.projection = s.projection.blank := by
    cases s
    simp
  rw [subQueries, subQueries, criteria_blank, hprojection, Projection.subQueries_blank,
    flatMap_map_of fun (c : Criterion) _ => c.subQueries_blank, List.map_append]

theorem tables_blank (s : Select) : s.blank.tables = s.tables := by
  cases s with
  | mk target joins filter projection distinct orderBy offset limit lock options =>
    have hon : ∀ j ∈ joins, j.blank.table = j.table := by
      intro j _
      obtain ⟨kind, table, on⟩ := j
      simp
    simpa [tables] using hon

theorem width_blank (s : Select) : s.blank.width = s.width := by
  cases s with
  | mk target joins filter projection distinct orderBy offset limit lock options =>
    cases projection <;> simp [width]

end Select

/-- Levels are registered alike when those below them are. -/
theorem Registry.foldl_blank {qs : List SubQuery}
    (h : ∀ q ∈ qs, ∀ used, q.select.blank.scope used = q.select.scope used) (r : Registry) :
    (qs.map SubQuery.blank).foldl SubQuery.register r = qs.foldl SubQuery.register r := by
  induction qs generalizing r with
  | nil => rfl
  | cons q qs ih =>
    obtain ⟨id, select⟩ := q
    have hq : ∀ used, select.blank.scope used = select.scope used :=
      h ⟨id, select⟩ List.mem_cons_self
    rw [List.map_cons, List.foldl_cons, List.foldl_cons,
      ih fun q hq => h q (List.mem_cons_of_mem _ hq), SubQuery.blank, SubQuery.register,
      SubQuery.register, hq]

theorem Select.scope_blank (s : Select) (used : List String) :
    s.blank.scope used = s.scope used := by
  induction s generalizing used with
  | step s ih =>
    rw [scope_eq_grow, scope_eq_grow, subQueries_blank, tables_blank]
    simp only [ScopeTree.grow, Registry.foldl_blank ih]

theorem ScopeTree.grow_blank (tables : List Table) (qs : List SubQuery) (used : List String) :
    grow tables (qs.map SubQuery.blank) used = grow tables qs used := by
  simp only [grow, Registry.foldl_blank fun q _ used => q.select.scope_blank used]

end SqlCompose
