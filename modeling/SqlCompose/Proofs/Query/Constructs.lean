import SqlCompose.Build
import SqlCompose.Proofs.Query.Nesting

/-! Constructs that a dialect may lack, and what a query asks for at one level. What it contains as a
whole may stand in a nested select, at any depth. -/

namespace SqlCompose

inductive Construct where
  | nullsOrdering
  /-- A pair looked for in a list that is not empty. -/
  | rowInList
  | rowInSubQuery
  | lock
  | returning
  /-- A values list of several rows. -/
  | multiRow
  | upsert
  /-- A batch into a table that has an identity column. -/
  | batchKeys
deriving DecidableEq, Repr

/-- What the dialect answers. -/
def Dialect.supports (d : Dialect) : Construct → Bool
  | .nullsOrdering => d.nullsOrdering
  | .rowInList => d.rowValueInList
  | .rowInSubQuery => d.rowValueInSubQuery
  | .lock => d.locking = .supported
  | .returning => d.returning
  | .multiRow => d.multiRowInsert
  | .upsert => d.conflict ≠ .absent
  | .batchKeys => d.batchGeneratedKeys

/-- The construct that a refusal names. Lists of pairs are never refused. -/
def Feature.construct? : Feature → Option Construct
  | .nullsOrdering => some .nullsOrdering
  | .rowLock => some .lock
  | .rowValueInSubQuery => some .rowInSubQuery
  | .multiRowInsert => some .multiRow
  | .batchGeneratedKeys _ _ => some .batchKeys
  | .returning => some .returning
  | .upsert => some .upsert
  | .named _ => none

namespace Criterion

mutual

def constructs : Criterion → List Construct
  | .pairInList _ _ values => if values.isEmpty then [] else [.rowInList]
  | .pairInSubQuery _ _ _ => [.rowInSubQuery]
  | .all children => listConstructs children
  | .any children => listConstructs children
  | .not children => listConstructs children
  | .compare _ _ _ => []
  | .isNull _ _ => []
  | .like _ _ _ _ => []
  | .between _ _ _ _ => []
  | .inList _ _ _ => []
  | .inSubQuery _ _ _ => []
  | .exists _ _ => []

def listConstructs : List Criterion → List Construct
  | [] => []
  | c :: cs => c.constructs ++ listConstructs cs

end

theorem listConstructs_eq_flatMap (cs : List Criterion) :
    listConstructs cs = cs.flatMap constructs := by
  induction cs with
  | nil => rfl
  | cons c cs ih => rw [listConstructs, ih, List.flatMap_cons]

theorem constructs_all (cs : List Criterion) : (all cs).constructs = cs.flatMap constructs :=
  listConstructs_eq_flatMap cs

theorem constructs_any (cs : List Criterion) : (any cs).constructs = cs.flatMap constructs :=
  listConstructs_eq_flatMap cs

theorem constructs_not (cs : List Criterion) :
    (Criterion.not cs).constructs = cs.flatMap constructs := listConstructs_eq_flatMap cs

end Criterion

def SortItem.constructs (i : SortItem) : List Construct :=
  if i.nulls.isSome then [.nullsOrdering] else []

namespace Select

def constructs (s : Select) : List Construct :=
  s.criteria.flatMap Criterion.constructs ++ s.orderBy.flatMap SortItem.constructs ++
    if s.lock.isSome then [.lock] else []

/-- The select asks for the construct, or a select nested in it does. -/
inductive Contains (k : Construct) : Select → Prop where
  | here {s : Select} (h : k ∈ s.constructs) : Contains k s
  | inside {s : Select} {q : SubQuery} (hq : q ∈ s.subQueries) (h : q.select.Contains k) :
      Contains k s

end Select

/-- What the way to send rows to a table asks for. -/
def Rows.constructs (target : Table) : Rows → List Construct
  | .single _ => []
  | .multiple rows => if rows.length > 1 then [.multiRow] else []
  | .batch _ => if target.definition.hasIdentity then [.batchKeys] else []

def InsertQuery.constructs (q : InsertQuery) : List Construct :=
  (if q.conflict.isSome then [.upsert] else []) ++ if q.returning then [.returning] else []

namespace Query

/-- What the outermost level asks for. -/
def constructs : Query → List Construct
  | .select q => q.constructs
  | .update q => q.filter.flatMap Criterion.constructs
  | .delete q => q.filter.flatMap Criterion.constructs
  | .insert draft rows => draft.query.constructs ++ rows.constructs draft.query.target

/-- The query asks for the construct, or a select nested in it does. -/
inductive Contains (k : Construct) (q : Query) : Prop where
  | here (h : k ∈ q.constructs)
  | inside {r : SubQuery} (hr : r ∈ q.subQueries) (h : r.select.Contains k)

end Query

end SqlCompose
