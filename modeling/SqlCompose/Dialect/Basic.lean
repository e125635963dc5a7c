import SqlCompose.Identifier
import SqlCompose.Value.Literal

/-! What distinguishes one database's SQL from another's, as far as composed statements show
it. -/

namespace SqlCompose

/-- How a parameter is marked in the text. -/
inductive Placeholder where
  | fixed (mark : String)
  /-- The number of the parameter, from 1, follows the lead. -/
  | numbered (lead : String)
deriving DecidableEq, Repr

def Placeholder.text (index : Nat) : Placeholder → String
  | .fixed mark => mark
  | .numbered lead => lead ++ toString index

/-- How a window of rows is written. -/
inductive PagingStyle where
  /-- `limit` and `offset`. A database whose offset needs a limit has a number that stands for no
  limit. -/
  | limitOffset (unlimited : Option Int)
  /-- `offset ... rows fetch next ... rows only`, allowed only after an ordering. -/
  | offsetFetch
deriving DecidableEq, Repr

/-- Whether rows can be locked, or else which dialect says that they cannot. -/
inductive Locking where
  | supported
  | refusedBy (dialect : String)
deriving DecidableEq, Repr

/-- How an upsert is written. -/
inductive ConflictSyntax where
  /-- `insert ... on conflict (k) do update set c = excluded.c` -/
  | onConflict
  /-- `insert ... on duplicate key update c = values(c)`. The conflict keys are those of the
  table's unique indexes. -/
  | onDuplicateKey
  /-- `merge into ... using (values ...)`, closed by a semicolon or not. -/
  | merge (terminated : Bool)
  | absent
deriving DecidableEq, Repr

structure Dialect where
  name : String
  quotes : QuotePair
  placeholder : Placeholder
  escapeSequence : String
  /-- The characters with a meaning of their own in a LIKE pattern. -/
  wildcards : List Char
  literals : LiteralStyle
  paging : PagingStyle
  locking : Locking
  nullsOrdering : Bool
  multiRowInsert : Bool
  batchGeneratedKeys : Bool
  returning : Bool
  rowValueInList : Bool
  rowValueInSubQuery : Bool
  conflict : ConflictSyntax
deriving DecidableEq, Repr

namespace Dialect

/-- A name between the dialect's quotes. -/
def quoteIdentifier (d : Dialect) (name : String) : String := (Identifier.quoted name).sql d.quotes

def literal (d : Dialect) (v : Value) : String := v.literal d.literals

end Dialect

end SqlCompose
