/-! Why a statement was refused or failed, with the text that tells it. -/

namespace SqlCompose

/-- A construct that a dialect may lack. -/
inductive Feature where
  | nullsOrdering
  | rowLock
  | rowValueInSubQuery
  | multiRowInsert
  /-- Keys generated for the members of a batch, for a batch of this verb into this table. -/
  | batchGeneratedKeys (verb table : String)
  | returning
  | upsert
  /-- A construct in the words of a dialect defined by the caller. -/
  | named (text : String)
deriving DecidableEq, Repr

namespace Feature

def text : Feature → String
  | .nullsOrdering => "nulls ordering"
  | .rowLock => "for update"
  | .rowValueInSubQuery => "row value compared with a sub-query"
  | .multiRowInsert => "multi-row insert"
  | .batchGeneratedKeys verb table =>
    "batch " ++ verb ++ " into `" ++ table ++
      "`: generated keys cannot be retrieved from a batch"
  | .returning => "returning"
  | .upsert => "upsert"
  | .named text => text

end Feature

/-- A statement that would reach every row of a table. -/
inductive Unfiltered where
  | update (table : String)
  | delete (table : String)
  | named (text : String)
deriving DecidableEq, Repr

namespace Unfiltered

def text : Unfiltered → String
  | .update table => "update of `" ++ table ++ "` would affect every row"
  | .delete table => "delete from `" ++ table ++ "` would affect every row"
  | .named text => text

end Unfiltered

/-- A call on an insert that comes too early. -/
inductive Misuse where
  | conflictKeyWithoutPolicy
  | setWithoutUpdatePolicy
deriving DecidableEq, Repr

namespace Misuse

def text : Misuse → String
  | .conflictKeyWithoutPolicy =>
    "conflict_key() requires on_duplicate_key_update() or on_duplicate_key_ignore()"
  | .setWithoutUpdatePolicy => "set() requires on_duplicate_key_update()"

end Misuse

/-- An invalid name, table, query or row. -/
inductive Fault where
  | emptyName
  | nameStart (c : Char)
  | nameCharacter (c : Char)
  | emptyQuotedName
  | nulInName
  | noColumns (table : String)
  | duplicateColumn (table column : String)
  | noSuchColumn (table column : String)
  | columnType (table column actual expected : String)
  | repeatedTable (table : String)
  | subQueryWidth (expected found : Nat)
  | unregisteredSubQuery
  | noSetItems (table : String)
  | foreignSetTarget (column : String)
  | incomingOutsideUpsert
  | rowLength (table : String) (found expected : Nat)
  | rowValue (table column actual expected : String)
  | noInsertableColumns (table : String)
  | foreignUpsertColumn (table column : String)
  | noConflictKeys (table : String)
  | misuse (call : Misuse)
  /-- A fault in the words of the caller. -/
  | named (text : String)
deriving DecidableEq, Repr

namespace Fault

def text : Fault → String
  | .emptyName => "Identifier cannot be empty"
  | .nameStart c => "Invalid identifier start character: '" ++ c.toString ++ "'"
  | .nameCharacter c => "Invalid character in identifier: '" ++ c.toString ++ "'"
  | .emptyQuotedName => "Empty quoted identifier"
  | .nulInName => "Identifier cannot contain NUL character"
  | .noColumns table => "table `" ++ table ++ "` has no columns"
  | .duplicateColumn table column =>
    "duplicate column `" ++ column ++ "` in table `" ++ table ++ "`"
  | .noSuchColumn table column => "table `" ++ table ++ "` has no column `" ++ column ++ "`"
  | .columnType table column actual expected =>
    "column `" ++ table ++ "." ++ column ++ "` is " ++ actual ++ ", not " ++ expected
  | .repeatedTable table =>
    "table reference `" ++ table ++ "` appears twice in one query; use Table::alias()"
  | .subQueryWidth expected found =>
    "sub-query must select " ++ toString expected ++ " column(s), found " ++ toString found
  | .unregisteredSubQuery => "sub-query was not registered with the alias scope"
  | .noSetItems table => "update of `" ++ table ++ "` has no set items"
  | .foreignSetTarget column =>
    "cannot set `" ++ column ++ "`: it belongs to another table reference"
  | .incomingOutsideUpsert => "excluded values are only available in an upsert"
  | .rowLength table found expected =>
    "row for `" ++ table ++ "` has " ++ toString found ++ " values, expected " ++
      toString expected
  | .rowValue table column actual expected =>
    "value for `" ++ table ++ "." ++ column ++ "` is " ++ actual ++ ", expected " ++ expected
  | .noInsertableColumns table => "table `" ++ table ++ "` has no insertable columns"
  | .foreignUpsertColumn table column =>
    "upsert of `" ++ table ++ "` cannot use `" ++ column ++ "` of another table reference"
  | .noConflictKeys table => "upsert of `" ++ table ++ "` needs conflict keys or a primary key"
  | .misuse call => call.text
  | .named text => text

end Fault

/-- The first three reject a whole statement while it is composed, as does a fault. The others
come from running it. -/
inductive Error where
  | unsupported (dialect : String) (feature : Feature)
  | missingWhere (statement : Unfiltered)
  | unknownTable (table column : String)
  | validation (fault : Fault)
  | query (detail : String)
  | uniqueViolation (detail : String)
  | foreignKeyViolation (detail : String)
  | executionFailed (count : Int)
  | decode (column detail : String)
  | other (text : String)
deriving DecidableEq, Repr

namespace Error

def message : Error → String
  | .unsupported dialect feature => "Unsupported by " ++ dialect ++ ": " ++ feature.text
  | .missingWhere statement => "Missing WHERE clause: " ++ statement.text
  | .unknownTable table column =>
    "Unknown table reference `" ++ table ++ "` for column `" ++ column ++ "`"
  | .validation fault => "Validation error: " ++ fault.text
  | .query detail => "Query error: " ++ detail
  | .uniqueViolation detail => "Unique constraint violation: " ++ detail
  | .foreignKeyViolation detail => "Foreign key violation: " ++ detail
  | .executionFailed count =>
    "Execution failed: driver reported affected count " ++ toString count
  | .decode column detail => "Decode error on column '" ++ column ++ "': " ++ detail
  | .other text => text

def isUnsupported : Error → Bool
  | .unsupported _ _ => true
  | _ => false

def isUniqueViolation : Error → Bool
  | .uniqueViolation _ => true
  | _ => false

end Error

end SqlCompose
