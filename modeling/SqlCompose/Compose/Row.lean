import SqlCompose.Table

/-! Rows to be written. A row carries one value for each column of its table, and each value is
NULL or of the column's type. -/

namespace SqlCompose

/-- A value of a row beside the column that it is for. -/
structure Cell where
  column : Column
  value : Value

namespace Cell

def bound (c : Cell) : Bound := ⟨c.value, c.column.type⟩

/-- Fails when the value is not one of the column's. -/
def check (column : Column) (value : Value) : Except Error Cell :=
  match value.type? with
  | some type =>
    if type = column.type then .ok ⟨column, value⟩
    else .error (.validation
      (.rowValue column.table.name column.name type.name column.type.name))
  | none => .ok ⟨column, value⟩

end Cell

namespace Table

/-- The cells of a row, in the order of declaration. -/
def bindRow (t : Table) (values : List Value) : Except Error (List Cell) :=
  if values.length = t.columns.length then
    (t.columns.zip values).mapM fun (column, value) => Cell.check column value
  else .error (.validation (.rowLength t.name values.length t.columns.length))

/-- The columns that an insert writes. -/
def insertColumns (t : Table) : List Column := t.columns.filter (!·.definition.identity)

def keyColumns (t : Table) : List Column := t.columns.filter (·.definition.primaryKey)

/-- The columns that an insert can return: those the database fills in, or else the primary
key. -/
def generatedColumns (t : Table) : List Column :=
  let identity := t.columns.filter (·.definition.identity)
  if identity.isEmpty then t.keyColumns else identity

/-- A row without any value. -/
def nullRow (t : Table) : List Value := t.columns.map fun _ => .null

end Table

/-- The values that a row has for some columns, in the order of declaration. -/
def rowValues (columns : List Column) (row : List Cell) : List Bound :=
  (row.filter (·.column ∈ columns)).map Cell.bound

end SqlCompose
