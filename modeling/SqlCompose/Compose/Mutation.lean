import SqlCompose.Compose.Select
import SqlCompose.Query.Mutation

/-! Composing updates and deletes. Without criteria both are refused, unless the options allow a
statement that reaches every row. -/

namespace SqlCompose

namespace Assignment

/-- One `set` item of an update: the column must belong to the updated table, and there is no
incoming row. -/
def composeUpdate (σ : Setting) (p : Position) (target : Table) (a : Assignment) :
    Except Error Sql.SetItem := do
  if a.column.table ≠ target then throw (.validation (.foreignSetTarget a.column.name))
  match a.value with
  | .operand operand => return ⟨a.column, .expr (← operand.compose σ p)⟩
  | .incoming _ => throw (.validation .incomingOutsideUpsert)

end Assignment

namespace UpdateQuery

def compose (d : Dialect) (options : QueryOptions) (q : UpdateQuery) :
    Except Error Sql.Update := do
  if q.assignments.isEmpty then throw (.validation (.noSetItems q.target.name))
  if q.filter.isEmpty && !options.allowMissingWhere then
    throw (.missingWhere (.update q.target.name))
  let σ := Setting.of d options
  let p := Position.root (.ofTarget q.target q.subQueries)
  let items ← q.assignments.mapM (·.composeUpdate σ p q.target)
  let filter ← Criterion.composeWhere σ p q.filter
  return ⟨q.target, items, filter⟩

end UpdateQuery

namespace DeleteQuery

def compose (d : Dialect) (options : QueryOptions) (q : DeleteQuery) :
    Except Error Sql.Delete := do
  if q.filter.isEmpty && !options.allowMissingWhere then
    throw (.missingWhere (.delete q.target.name))
  let σ := Setting.of d options
  let p := Position.root (.ofTarget q.target q.subQueries)
  let filter ← Criterion.composeWhere σ p q.filter
  return ⟨q.target, filter⟩

end DeleteQuery

end SqlCompose
