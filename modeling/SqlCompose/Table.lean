import SqlCompose.Identifier
import SqlCompose.Value.Basic

/-! Table definitions, references to them, and the columns of a reference. Two references to one
definition are two tables of a query, which is what a self-join needs. -/

namespace SqlCompose

structure ColumnDef where
  name : Identifier
  type : SqlType
  nullable : Bool
  primaryKey : Bool
  /-- The database gives the value: the column list of an insert leaves it out. -/
  identity : Bool
deriving DecidableEq, Repr

namespace ColumnDef

/-- An ordinary column. -/
def ordinary (name : Identifier) (type : SqlType) : ColumnDef := ⟨name, type, false, false, false⟩

end ColumnDef

structure TableDef where
  name : Identifier
  schema : Option Identifier
  columns : List ColumnDef
deriving DecidableEq, Repr

/-- A reference to a table. References with different numbers are different tables. -/
structure Table where
  id : Nat
  definition : TableDef
deriving DecidableEq, Repr

/-- A column of a table reference, by its place in the declaration. -/
structure Column where
  table : Table
  index : Fin table.definition.columns.length
deriving DecidableEq, Repr

/-- How a column is declared by name. -/
inductive ColumnKind where
  | required
  | nullable
  /-- A primary key column that the caller fills in. -/
  | key
  /-- A primary key column that the database fills in. -/
  | identity
deriving DecidableEq, Repr

/-- One column of a declaration: a name to be read, or a finished definition. -/
inductive ColumnSpec where
  | named (kind : ColumnKind) (name : String) (type : SqlType)
  | exact (definition : ColumnDef)
deriving DecidableEq, Repr

namespace ColumnSpec

def define : ColumnSpec → Except Error ColumnDef
  | .exact definition => .ok definition
  | .named kind name type => do
    let name ← Identifier.parse name
    return {
      name, type
      nullable := kind == .nullable
      primaryKey := kind == .key || kind == .identity
      identity := kind == .identity }

end ColumnSpec

namespace TableDef

/-- The first column whose name stands earlier already. -/
def firstRepeated? (seen : List Identifier) : List ColumnDef → Option ColumnDef
  | [] => none
  | c :: cs => if c.name ∈ seen then some c else firstRepeated? (seen ++ [c.name]) cs

/-- Reads the names, then checks that there are columns and that their names differ. -/
def define (name : String) (schema : Option String) (specs : List ColumnSpec) :
    Except Error TableDef := do
  let columns ← specs.mapM ColumnSpec.define
  let name ← Identifier.parse name
  let schema ← schema.mapM Identifier.parse
  if columns.isEmpty then throw (.validation (.noColumns name.name))
  match firstRepeated? [] columns with
  | some c => throw (.validation (.duplicateColumn name.name c.name.name))
  | none => return { name, schema, columns }

def hasIdentity (d : TableDef) : Bool := d.columns.any (·.identity)

end TableDef

namespace Table

def name (t : Table) : String := t.definition.name.name

/-- All columns in the order of declaration. -/
def columns (t : Table) : List Column := (List.finRange t.definition.columns.length).map (⟨t, ·⟩)

end Table

namespace Column

def definition (c : Column) : ColumnDef := c.table.definition.columns.get c.index

def ident (c : Column) : Identifier := c.definition.name

def name (c : Column) : String := c.ident.name

def type (c : Column) : SqlType := c.definition.type

end Column

namespace Table

/-- The first column of that name, quoted or not. -/
def column (t : Table) (name : String) : Except Error Column :=
  match t.columns.find? (·.name == name) with
  | some c => .ok c
  | none => .error (.validation (.noSuchColumn t.name name))

/-- The column, provided that it has the type. -/
def typedColumn (t : Table) (name : String) (type : SqlType) : Except Error Column := do
  let c ← t.column name
  if c.type = type then return c
  else throw (.validation (.columnType t.name name c.type.name type.name))

end Table

end SqlCompose
