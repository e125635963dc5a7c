import SqlCompose.Query.Nested

/-! Updates and deletes, and the assignments that updates and upserts share. -/

namespace SqlCompose

/-- The right side of a `set` item. -/
inductive SetValue where
  | operand (operand : Operand)
  /-- What the conflicting row of an upsert carries for the column. -/
  | incoming (column : Column)

structure Assignment where
  column : Column
  value : SetValue

namespace Assignment

/-- An absent operand sets NULL. -/
def set (column : Column) (operand : Option Operand) : Assignment :=
  ⟨column, .operand (operand.getD (.parameter (.null column.type)))⟩

def setColumn (column other : Column) : Assignment := ⟨column, .operand (.column other)⟩

def setNull (column : Column) : Assignment := ⟨column, .operand (.parameter (.null column.type))⟩

def setIncoming (column : Column) : Assignment := ⟨column, .incoming column⟩

def subQueries (a : Assignment) : List SubQuery :=
  match a.value with
  | .operand operand => operand.subQueries
  | .incoming _ => []

end Assignment

structure UpdateQuery where
  target : Table
  assignments : List Assignment
  filter : List Criterion
  options : Option QueryOptions

namespace UpdateQuery

def of (target : Table) : UpdateQuery := ⟨target, [], [], none⟩

def set (q : UpdateQuery) (items : List Assignment) : UpdateQuery :=
  { q with assignments := q.assignments ++ items }

def filterBy (q : UpdateQuery) (criteria : List Criterion) : UpdateQuery :=
  { q with filter := q.filter ++ criteria }

/-- Those of the assignments, then those of the where clause. -/
def subQueries (q : UpdateQuery) : List SubQuery :=
  q.assignments.flatMap Assignment.subQueries ++ q.filter.flatMap Criterion.subQueries

end UpdateQuery

structure DeleteQuery where
  target : Table
  filter : List Criterion
  options : Option QueryOptions

namespace DeleteQuery

def of (target : Table) : DeleteQuery := ⟨target, [], none⟩

def filterBy (q : DeleteQuery) (criteria : List Criterion) : DeleteQuery :=
  { q with filter := q.filter ++ criteria }

def subQueries (q : DeleteQuery) : List SubQuery := q.filter.flatMap Criterion.subQueries

end DeleteQuery

end SqlCompose
