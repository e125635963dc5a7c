import SqlCompose.Dialect.Basic
import SqlCompose.Query.Basic

/-! SQL statements as trees. Names are resolved, values are bound, and what differs between
dialects is decided, all but the spelling of quoted names and of placeholders. -/

namespace SqlCompose.Sql

/-- `qualifier.name` -/
structure ColumnName where
  column : Column
  qualifier : Identifier
  /-- The column was asked for from the enclosing level. -/
  outer : Bool

/-- `and`, which binds tighter, or `or`. -/
inductive Connective where
  | and
  | or
deriving DecidableEq, Repr

/-- `[schema.]name [alias]` -/
structure TableItem where
  table : Table
  /-- The alias, which may be the name of the table itself. -/
  name : Identifier

structure OrderItem where
  name : ColumnName
  descending : Bool
  nulls : Option NullsOrder

inductive Paging where
  | limitOffset (limit : Option Int) (offset : Option UInt64)
  /-- Without an order of its own the level is ordered by a constant. -/
  | offsetFetch (ordered : Bool) (offset : UInt64) (fetch : Option UInt64)
deriving DecidableEq, Repr

inductive AggregateFunction where
  | count
  | max
  | min
deriving DecidableEq, Repr

mutual

inductive Expr where
  | column (name : ColumnName)
  | parameter (bound : Bound)
  | subQuery (query : Select)

structure ExprPair where
  first : Expr
  second : Expr

inductive Condition where
  /-- A comparison of constants that is always true or always false. -/
  | constant (truth : Bool)
  | compare (op : Comparison) (left right : Expr)
  | isNull (negated : Bool) (operand : Expr)
  | like (negated : Bool) (operand pattern : Expr) (escape : Option String)
  | between (negated : Bool) (operand low high : Expr)
  | inList (negated : Bool) (operand : Expr) (values : List Expr)
  | inSubQuery (negated : Bool) (operand : Expr) (query : Select)
  | rowInList (negated : Bool) (row : ExprPair) (values : List ExprPair)
  | rowInSubQuery (negated : Bool) (row : ExprPair) (query : Select)
  | exists (negated : Bool) (query : Select)
  /-- Conditions side by side, without parentheses around them. -/
  | chain (op : Connective) (parts : List Condition)
  | parenthesized (inner : Condition)
  | not (inner : Condition)

inductive SelectItem where
  | column (name : ColumnName)
  | countAll
  | aggregate (function : AggregateFunction) (name : ColumnName)
  | subQuery (query : Select)

structure Join where
  kind : JoinKind
  table : TableItem
  on : Condition

structure Select where
  distinct : Bool
  items : List SelectItem
  source : TableItem
  joins : List Join
  filter : Option Condition
  orderBy : List OrderItem
  paging : Paging
  lock : Option LockWait

end

/-- How the incoming row of an upsert is referred to. -/
inductive IncomingStyle where
  /-- `excluded.c` -/
  | qualified
  /-- `values(c)` -/
  | valuesFunction
deriving DecidableEq, Repr

inductive SetSource where
  | expr (expr : Expr)
  | incoming (column : Column)

structure SetItem where
  target : Column
  source : SetSource

structure Update where
  table : Table
  items : List SetItem
  filter : Option Condition

structure Delete where
  table : Table
  filter : Option Condition

/-- What an insert does about a row that exists already. -/
inductive ConflictClause where
  /-- `on conflict (keys) do update set ...`, or `do nothing` without items -/
  | onConflict (keys : List Column) (items : List SetItem)
  /-- `on duplicate key update ...` -/
  | onDuplicateKey (items : List SetItem)

structure Insert where
  /-- `insert ignore` -/
  ignoring : Bool
  table : Table
  columns : List Column
  rows : List (List Bound)
  conflict : Option ConflictClause

structure Merge where
  table : Table
  /-- The columns of the incoming rows. -/
  source : List Column
  rows : List (List Bound)
  /-- Each key of the table meets that of the incoming row. -/
  keys : List ColumnName
  items : List SetItem
  /-- The columns of an inserted row. -/
  columns : List Column
  terminated : Bool

inductive WriteBody where
  | insert (insert : Insert)
  | merge (merge : Merge)

/-- An insert or merge that may return columns of the rows it wrote. -/
structure Write where
  body : WriteBody
  returning : Option (List Column)

inductive Command where
  | select (select : Select)
  | update (update : Update)
  | delete (delete : Delete)
  | write (write : Write)

end SqlCompose.Sql
