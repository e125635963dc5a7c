import SqlCompose.Compose.Upsert

/-! Composing inserts and upserts of rows that are bound already. -/

namespace SqlCompose

namespace InsertQuery

/-- What the statement is called. -/
def verb (q : InsertQuery) : String := if q.conflict.isSome then "upsert" else "insert"

def composeBody (σ : Setting) (q : InsertQuery) (rows : List (List Cell)) :
    Except Error Sql.WriteBody :=
  match q.conflict with
  | none =>
    let columns := q.target.insertColumns
    return .insert ⟨false, q.target, columns, rows.map (rowValues columns), none⟩
  | some conflict =>
    conflict.compose σ (.root (.ofTarget q.target q.subQueries)) q.target rows

/-- One statement that writes all the rows. -/
def compose (d : Dialect) (options : QueryOptions) (q : InsertQuery) (rows : List (List Cell)) :
    Except Error Sql.Write := do
  if q.target.insertColumns.isEmpty then
    throw (.validation (.noInsertableColumns q.target.name))
  let σ := Setting.of d options
  let body ← q.composeBody σ rows
  if q.returning then
    σ.require d.returning .returning
    return ⟨body, some q.target.generatedColumns⟩
  else return ⟨body, none⟩

end InsertQuery

end SqlCompose
