import SqlCompose.Options
import SqlCompose.Table

/-! Descriptions of queries: operands, criteria and selects that nest inside one another. A
nested select carries a number, and two mentions of one number are one shared sub-query. -/

namespace SqlCompose

inductive Comparison where
  | equal
  | notEqual
  | less
  | lessOrEqual
  | greater
  | greaterOrEqual
deriving DecidableEq, Repr

/-- What becomes of a text used as a LIKE pattern. -/
inductive LikeOption where
  /-- Used as it is, wildcards included. -/
  | raw
  /-- Matches itself. -/
  | literal
  /-- Matches what starts with the text. -/
  | leading
  /-- Matches what contains the text. -/
  | anywhere
  /-- Matches what ends with the text. -/
  | trailing
deriving DecidableEq, Repr

/-- One fragment of a LIKE pattern. -/
structure PatternPart where
  text : String
  option : LikeOption
deriving DecidableEq, Repr

inductive JoinKind where
  | inner
  | left
deriving DecidableEq, Repr

inductive NullsOrder where
  | first
  | last
deriving DecidableEq, Repr

structure SortItem where
  column : Column
  descending : Bool
  nulls : Option NullsOrder
deriving DecidableEq, Repr

inductive Aggregate where
  | countAll
  | count (column : Column)
  | max (column : Column)
  | min (column : Column)
deriving DecidableEq, Repr

/-- What a locking select does about rows that others hold. -/
inductive LockWait where
  | wait
  | noWait
  | skipLocked
deriving DecidableEq, Repr

mutual

inductive Operand where
  /-- A column, looked up from the level of the operand outwards. -/
  | column (column : Column)
  /-- A column, looked up from the enclosing level outwards. -/
  | outer (column : Column)
  | parameter (bound : Bound)
  /-- A scalar sub-query. -/
  | subQuery (query : SubQuery)
  /-- A LIKE pattern joined from fragments. -/
  | pattern (parts : List PatternPart)

structure OperandPair where
  first : Operand
  second : Operand

inductive Criterion where
  | compare (op : Comparison) (left right : Operand)
  | isNull (negated : Bool) (operand : Operand)
  | like (negated : Bool) (operand pattern : Operand) (option : LikeOption)
  | between (negated : Bool) (operand low high : Operand)
  | inList (negated : Bool) (operand : Operand) (values : List Operand)
  | inSubQuery (negated : Bool) (operand : Operand) (query : SubQuery)
  | pairInList (negated : Bool) (pair : OperandPair) (values : List OperandPair)
  | pairInSubQuery (negated : Bool) (pair : OperandPair) (query : SubQuery)
  | exists (negated : Bool) (query : SubQuery)
  | all (children : List Criterion)
  | any (children : List Criterion)
  /-- Not all of the children. -/
  | not (children : List Criterion)

structure Join where
  kind : JoinKind
  table : Table
  on : List Criterion

inductive SelectItem where
  | column (column : Column)
  | aggregate (aggregate : Aggregate)
  | subQuery (query : SubQuery)

inductive Projection where
  /-- Every column of the target table. -/
  | allColumns
  | explicit (items : List SelectItem)

structure Select where
  target : Table
  joins : List Join
  filter : List Criterion
  projection : Projection
  distinct : Bool
  orderBy : List SortItem
  offset : Option UInt64
  limit : Option UInt64
  lock : Option LockWait
  options : Option QueryOptions

structure SubQuery where
  id : Nat
  select : Select

end

namespace Select

/-- Every column of a table, nothing else asked. -/
def of (target : Table) : Select where
  target
  joins := []
  filter := []
  projection := .allColumns
  distinct := false
  orderBy := []
  offset := none
  limit := none
  lock := none
  options := none

/-- The tables that this level introduces. -/
def tables (s : Select) : List Table := s.target :: s.joins.map (·.table)

/-- Join conditions first, then the where clause. -/
def criteria (s : Select) : List Criterion := s.joins.flatMap (·.on) ++ s.filter

/-- How many columns the select list yields. -/
def width (s : Select) : Nat :=
  match s.projection with
  | .allColumns => s.target.definition.columns.length
  | .explicit items => items.length

def filterBy (s : Select) (criteria : List Criterion) : Select :=
  { s with filter := s.filter ++ criteria }

def join (s : Select) (kind : JoinKind) (table : Table) (on : List Criterion) : Select :=
  { s with joins := s.joins ++ [⟨kind, table, on⟩] }

def orderedBy (s : Select) (item : SortItem) : Select :=
  { s with orderBy := s.orderBy ++ [item] }

/-- Adds to an explicit select list, or starts one. -/
def addItem (s : Select) (item : SelectItem) : Select :=
  match s.projection with
  | .allColumns => { s with projection := .explicit [item] }
  | .explicit items => { s with projection := .explicit (items ++ [item]) }

/-- Replaces the select list. -/
def project (s : Select) (items : List SelectItem) : Select :=
  { s with projection := .explicit items }

end Select

end SqlCompose
