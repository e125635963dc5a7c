import SqlCompose.Compose.Insert
import SqlCompose.Compose.Mutation
import SqlCompose.Log
import SqlCompose.Sql.Printer
import SqlCompose.Statement

/-! Building queries: a description, a dialect and default options give a statement, or the reason
why there is none. A statement that is built reports one event; a refused one reports none. -/

namespace SqlCompose

/-- What building gives, with the events that it reports. -/
structure Built (α : Type) where
  output : α
  events : List LogEvent

/-- The rows of an insert, and how they are sent. -/
inductive Rows where
  | single (row : List Value)
  /-- All rows in one statement. -/
  | multiple (rows : List (List Value))
  /-- One statement that runs once for each row. -/
  | batch (rows : List (List Value))

inductive Query where
  | select (query : Select)
  | update (query : UpdateQuery)
  | delete (query : DeleteQuery)
  | insert (draft : InsertDraft) (rows : Rows)

inductive Output where
  | statement (statement : Statement)
  | batch (batch : BatchStatement)

/-- A statement with the event that tells of it. -/
def Statement.report (kind : String) (options : QueryOptions) (s : Statement) : Built Statement :=
  ⟨s, [.built kind s.dialect.name s.sql s.values.length options.maxSqlLength]⟩

def Sql.Command.statement (d : Dialect) (c : Sql.Command) : Statement := ⟨d, c.pieces⟩

namespace Select

def compile (d : Dialect) (options : QueryOptions) (s : Select) : Except Error Statement := do
  let tree ← s.compose (.of d options) (.root (.ofSelect s))
  return (Sql.Command.select tree).statement d

def build (d : Dialect) (defaults : QueryOptions) (s : Select) :
    Except Error (Built Statement) := do
  let options := s.options.getD defaults
  return (← s.compile d options).report "select" options

end Select

namespace UpdateQuery

def build (d : Dialect) (defaults : QueryOptions) (q : UpdateQuery) :
    Except Error (Built Statement) := do
  let options := q.options.getD defaults
  let tree ← q.compose d options
  return ((Sql.Command.update tree).statement d).report "update" options

end UpdateQuery

namespace DeleteQuery

def build (d : Dialect) (defaults : QueryOptions) (q : DeleteQuery) :
    Except Error (Built Statement) := do
  let options := q.options.getD defaults
  let tree ← q.compose d options
  return ((Sql.Command.delete tree).statement d).report "delete" options

end DeleteQuery

namespace InsertQuery

/-- The statement for rows that are bound already. -/
def compile (d : Dialect) (options : QueryOptions) (q : InsertQuery) (rows : List (List Cell)) :
    Except Error Statement := do
  let tree ← q.compose d options rows
  return (Sql.Command.write tree).statement d

def buildSingle (d : Dialect) (defaults : QueryOptions) (q : InsertQuery) (row : List Value) :
    Except Error (Built Statement) := do
  let options := q.options.getD defaults
  let cells ← q.target.bindRow row
  return (← q.compile d options [cells]).report q.verb options

/-- Without rows the statement is empty, and nothing is reported. -/
def buildMultiple (d : Dialect) (defaults : QueryOptions) (q : InsertQuery)
    (rows : List (List Value)) : Except Error (Built Statement) := do
  let options := q.options.getD defaults
  if rows.isEmpty then return ⟨.empty d, []⟩
  if rows.length > 1 && !d.multiRowInsert then throw (.unsupported d.name .multiRowInsert)
  let cells ← rows.mapM q.target.bindRow
  return (← q.compile d options cells).report q.verb options

/-- The statement of one row of a batch. -/
def compileRow (d : Dialect) (options : QueryOptions) (q : InsertQuery) (row : List Value) :
    Except Error Statement := do
  let cells ← q.target.bindRow row
  q.compile d options [cells]

/-- The SQL is that of the first row. Without rows it is that of a row without values. -/
def batchSql (d : Dialect) (options : QueryOptions) (q : InsertQuery) :
    List Statement → Except Error String
  | first :: _ => return first.sql
  | [] => return (← q.compileRow d options q.target.nullRow).sql

def buildBatch (d : Dialect) (defaults : QueryOptions) (q : InsertQuery)
    (rows : List (List Value)) : Except Error (Built BatchStatement) := do
  let options := q.options.getD defaults
  if q.target.definition.hasIdentity && !d.batchGeneratedKeys then
    throw (.unsupported d.name (.batchGeneratedKeys q.verb q.target.name))
  let statements ← rows.mapM (q.compileRow d options)
  let sql ← q.batchSql d options statements
  let batch := BatchStatement.of sql (statements.map (·.values)) options.batchSize
  return ⟨batch, [.built ("batch_" ++ q.verb) d.name sql rows.length options.maxSqlLength]⟩

end InsertQuery

namespace Query

/-- Builds the query, with `defaults` where it has no options of its own. -/
def build (d : Dialect) (defaults : QueryOptions) : Query → Except Error (Built Output)
  | .select query => do
    let b ← query.build d defaults
    return ⟨.statement b.output, b.events⟩
  | .update query => do
    let b ← query.build d defaults
    return ⟨.statement b.output, b.events⟩
  | .delete query => do
    let b ← query.build d defaults
    return ⟨.statement b.output, b.events⟩
  | .insert draft rows => do
    let query ← draft.finish
    match rows with
    | .single row =>
      let b ← query.buildSingle d defaults row
      return ⟨.statement b.output, b.events⟩
    | .multiple rows =>
      let b ← query.buildMultiple d defaults rows
      return ⟨.statement b.output, b.events⟩
    | .batch rows =>
      let b ← query.buildBatch d defaults rows
      return ⟨.batch b.output, b.events⟩

/-- The sub-queries of the outermost level. -/
def subQueries : Query → List SubQuery
  | .select query => query.subQueries
  | .update query => query.subQueries
  | .delete query => query.subQueries
  | .insert draft _ => draft.query.subQueries

end Query

end SqlCompose
