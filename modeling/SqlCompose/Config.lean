import SqlCompose.Build
import SqlCompose.Dialect.Catalog
import SqlCompose.Json.Basic

/-! Settings of a database as an application keeps them in JSON: the name of a dialect and default
options. A missing field takes its default, and fields of other names are passed over. -/

namespace SqlCompose

structure DatabaseConfig where
  dialect : DialectKind
  options : QueryOptions
deriving DecidableEq, Repr

namespace Json

/-- The value of the field; when there is no such field, a default. -/
def fieldOr {α : Type} (fields : List (String × Json)) (name : String) (missing : α)
    (read : Json → Option α) : Option α :=
  match fields.lookup name with
  | some value => read value
  | none => some missing

def bool? : Json → Option Bool
  | .bool b => some b
  | _ => none

def string? : Json → Option String
  | .string s => some s
  | _ => none

/-- A whole number that is not negative. -/
def nat? : Json → Option Nat
  | .integer n => if 0 ≤ n then some n.toNat else none
  | _ => none

/-- `null`, or what `read` accepts. -/
def nullable {α : Type} (read : Json → Option α) : Json → Option (Option α)
  | .null => some none
  | j => (read j).map some

/-- The fields of a record: those of an object, or the entries of an array in the order of the
names, of which the last may be missing. -/
def record? (names : List String) : Json → Option (List (String × Json))
  | .object fields => some fields
  | .array entries => if names.length < entries.length then none else some (names.zip entries)
  | _ => none

end Json

namespace QueryOptions

def fieldNames : List String :=
  ["escape_sequence", "allow_missing_where_clause", "batch_size", "max_sql_length"]

def ofJson? (j : Json) : Option QueryOptions := do
  let fields ← j.record? fieldNames
  let escapeSequence ←
    Json.fieldOr fields "escape_sequence" default.escapeSequence (Json.nullable Json.string?)
  let allowMissingWhere ←
    Json.fieldOr fields "allow_missing_where_clause" default.allowMissingWhere Json.bool?
  let batchSize ← Json.fieldOr fields "batch_size" default.batchSize Json.nat?
  let maxSqlLength ←
    Json.fieldOr fields "max_sql_length" default.maxSqlLength (Json.nullable Json.nat?)
  return ⟨escapeSequence, allowMissingWhere, batchSize, maxSqlLength⟩

def toJson (o : QueryOptions) : Json :=
  .ofFields
    [("escape_sequence", match o.escapeSequence with
        | some sequence => .string sequence
        | none => .null),
      ("allow_missing_where_clause", .bool o.allowMissingWhere),
      ("batch_size", .integer o.batchSize),
      ("max_sql_length", match o.maxSqlLength with
        | some bytes => .integer bytes
        | none => .null)]

end QueryOptions

namespace DialectKind

/-- A name, or an object whose one field is a name and holds nothing. -/
def ofJson? : Json → Option DialectKind
  | .string key => ofKey? key
  | .object [(key, .null)] => ofKey? key
  | _ => none

end DialectKind

namespace DatabaseConfig

/-- The dialect with default options. -/
def of (dialect : DialectKind) : DatabaseConfig := ⟨dialect, .default⟩

def default : DatabaseConfig := of .postgres

def ofJson? (j : Json) : Option DatabaseConfig := do
  let fields ← j.record? ["dialect", "options"]
  let dialect ← Json.fieldOr fields "dialect" default.dialect DialectKind.ofJson?
  let options ← Json.fieldOr fields "options" default.options QueryOptions.ofJson?
  return ⟨dialect, options⟩

def toJson (c : DatabaseConfig) : Json :=
  .ofFields [("dialect", .string c.dialect.key), ("options", c.options.toJson)]

/-- Builds a query for the configured dialect, with the configured options as defaults. -/
def build (c : DatabaseConfig) (q : Query) : Except Error (Built Output) :=
  q.build c.dialect.dialect c.options

end DatabaseConfig

end SqlCompose
