import SqlCompose.Count
import SqlCompose.Statement
import SqlCompose.Value.Wire

/-! Running statements on a database server. The server is a state machine: it takes the text of a
statement once, and then runs it with parameters. A batch is sent in groups. The members of a group
are handed over to be run together, and a group with a failed member is the last. -/

namespace SqlCompose

/-- What a server answers when it refuses. -/
structure ServerError where
  code : String
  message : String
  constraint : Option String
deriving DecidableEq, Repr

namespace ServerError

/-- Violated constraints are told apart by their codes. -/
def error (e : ServerError) : Error :=
  let detail := e.constraint.getD "unknown" ++ ": " ++ e.message
  if e.code = "23505" then .uniqueViolation detail
  else if e.code = "23503" then .foreignKeyViolation detail
  else .query e.message

end ServerError

structure ResultColumn where
  name : String
  type : SqlType
deriving DecidableEq, Repr

structure ResultRow where
  columns : List ResultColumn
  values : List Value

namespace ResultRow

def sameIgnoringCase (a b : String) : Bool :=
  a.toList.map Char.toLower == b.toList.map Char.toLower

/-- The place of a column: the first of exactly that name, or else the first that differs from it
in ASCII case only. -/
def position? (r : ResultRow) (name : String) : Option Nat :=
  match r.columns.findIdx? (·.name == name) with
  | some i => some i
  | none => r.columns.findIdx? (sameIgnoringCase ·.name name)

/-- The value of a column that must have the type. NULL is read only where it is allowed. -/
def read (r : ResultRow) (name : String) (type : SqlType) (nullable : Bool) :
    Except Error Value := do
  let some i := r.position? name | throw (.decode name "no such column")
  let some column := r.columns[i]? | throw (.decode name "no such column")
  let some value := r.values[i]? | throw (.decode name "no value")
  if column.type ≠ type then throw (.decode name ("the column is " ++ column.type.name))
  if value.isNull && !nullable then throw (.decode name "the value is NULL")
  return value

end ResultRow

/-- The answer to one execution: rows, and then the number of affected rows or an error. -/
structure Reply where
  data : List ResultRow
  ending : Except ServerError UInt64

/-- A member of a group, to be started in some state. It fails at once, or it is sent and its outcome
is known later. -/
abbrev Task (σ : Type) := σ → Except Error (Except Error UInt64) × σ

/-- How the members of a group are run together: which of them are started, and what their outcomes
make of the group. -/
structure Joiner where
  run : {σ : Type} → List (Task σ) → σ → Except Error (List UInt64) × σ
  /-- The states are handed on and not looked at: members that do the same in states of which `π`
  keeps a part are joined in the same way. -/
  uniform : ∀ {ι σ τ : Type} (π : τ → σ) (members : List ι) (f : ι → Task τ) (g : ι → Task σ),
    (∀ i s, g i (π s) = ((f i s).1, π (f i s).2)) → ∀ s,
      run (members.map g) (π s) =
        ((run (members.map f) s).1, π (run (members.map f) s).2)

namespace Joiner

/-- Starts the members in their order, up to the first that fails at once. -/
def start {σ : Type} : List (Task σ) → σ → Except Error (List (Except Error UInt64)) × σ
  | [], s => (.ok [], s)
  | task :: tasks, s =>
    match task s with
    | (.error e, s) => (.error e, s)
    | (.ok outcome, s) =>
      let (outcomes, s) := start tasks s
      (outcomes.map (outcome :: ·), s)

theorem start_uniform {ι σ τ : Type} (π : τ → σ) (members : List ι) (f : ι → Task τ)
    (g : ι → Task σ) (h : ∀ i s, g i (π s) = ((f i s).1, π (f i s).2)) (s : τ) :
    start (members.map g) (π s) =
      ((start (members.map f) s).1, π (start (members.map f) s).2) := by
  induction members generalizing s with
  | nil => rfl
  | cons i members ih =>
    simp only [List.map_cons, start, h]
    match f i s with
    | (.error e, s₁) => rfl
    | (.ok outcome, s₁) => simp only [ih]

/-- Gives up at the first member that fails at once. When all are started, the first failure in
their order is the one of the group. -/
def prompt : Joiner where
  run tasks s :=
    let (outcomes, s) := start tasks s
    (outcomes.bind (·.mapM id), s)
  uniform π members f g h s := by simp only [start_uniform π members f g h s]

end Joiner

/-- A connection: the server at its other end, and how statements of one group are run on it. -/
structure Server (σ : Type) where
  prepare : σ → String → Except ServerError Unit × σ
  run : σ → List WireForm → Reply × σ
  join : Joiner

/-- What running something gives, what it reports, and in what state it leaves the server. -/
structure Run (σ α : Type) where
  result : Except Error α
  events : List LogEvent
  state : σ

namespace Bound

/-- The binary form for the type that the parameter is tagged with. -/
def wire (b : Bound) : Except Error WireForm :=
  match b.value.wire? b.type.wireType with
  | some form => .ok form
  | none => .error (.query "the value does not have the type of the parameter")

end Bound

namespace Server

variable {σ : Type}

/-- Runs the prepared statement once. Parameters without a binary form are not sent. -/
def runOnce (server : Server σ) (s : σ) (parameters : List Bound) : Except Error Reply × σ :=
  match parameters.mapM Bound.wire with
  | .error e => (.error e, s)
  | .ok forms =>
    let (reply, s) := server.run s forms
    (.ok reply, s)

/-- How many rows were affected. -/
def affected (reply : Except Error Reply) : Except Error UInt64 := do
  match (← reply).ending with
  | .ok count => return count
  | .error e => throw e.error

/-- Takes the text and runs it once, passing the reply on. -/
def prepareAndRun (server : Server σ) (s : σ) (statement : Statement) :
    Except Error Reply × σ :=
  match server.prepare s statement.sql with
  | (.error e, s) => (.error e.error, s)
  | (.ok (), s) => server.runOnce s statement.values

/-- Runs a statement. An empty one affects no row and is not sent. -/
def execute (server : Server σ) (s : σ) (statement : Statement) : Run σ UInt64 :=
  if statement.isEmpty then ⟨.ok 0, [], s⟩
  else
    let event := LogEvent.executing "execute" statement.sql statement.values.length
    let (reply, s) := server.prepareAndRun s statement
    ⟨affected reply, [event], s⟩

/-- The member of a group that runs the prepared statement with a row. -/
def task (server : Server σ) (row : List Bound) : Task σ := fun s =>
  let (reply, s) := server.runOnce s row
  (reply.map (affected ∘ .ok), s)

/-- Runs one group after the other until one has a failed member, whose error is the result. -/
def runGroups (server : Server σ) (s : σ) :
    List (List (List Bound)) → Except Error (List AffectedCount) × σ
  | [] => (.ok [], s)
  | group :: groups =>
    match server.join.run (group.map server.task) s with
    | (.error e, s) => (.error e, s)
    | (.ok counts, s) =>
      let (rest, s) := server.runGroups s groups
      (rest.map (counts.map AffectedCount.rows ++ ·), s)

/-- Runs a batch and counts for each row, in the order of the rows. -/
def executeBatch (server : Server σ) (s : σ) (batch : BatchStatement) :
    Run σ (List AffectedCount) :=
  let event := LogEvent.executing "execute_batch" batch.sql batch.rows.length
  if batch.rows.isEmpty then ⟨.ok [], [event], s⟩
  else
    match server.prepare s batch.sql with
    | (.error e, s) => ⟨.error e.error, [event], s⟩
    | (.ok (), s) =>
      let (counts, s) := server.runGroups s batch.chunks
      ⟨counts, [event], s⟩

/-- Runs a query and decodes its rows. A row that cannot be decoded does not end the sequence; an
error of the server does. -/
def executeQuery {α : Type} (server : Server σ) (s : σ) (statement : Statement)
    (decode : ResultRow → Except Error α) : Run σ (List (Except Error α)) :=
  if statement.isEmpty then ⟨.ok [], [], s⟩
  else
    let event := LogEvent.executing "execute_query" statement.sql statement.values.length
    let (reply, s) := server.prepareAndRun s statement
    let items := reply.map fun reply =>
      reply.data.map decode ++
        match reply.ending with
        | .ok _ => []
        | .error e => [.error e.error]
    ⟨items, [event], s⟩

end Server

/-- A server whose answers are laid down, and which remembers what it was sent. -/
structure Script where
  refusal : Option ServerError
  replies : List Reply
  prepared : List String
  sent : List (List WireForm)

namespace Script

/-- When the answers run out, no row is affected. -/
def server : Server Script where
  prepare s sql :=
    (match s.refusal with
      | some e => .error e
      | none => .ok (),
      { s with prepared := s.prepared ++ [sql] })
  run s forms :=
    match s.replies with
    | [] => (⟨[], .ok 0⟩, { s with sent := s.sent ++ [forms] })
    | reply :: rest => (reply, { s with replies := rest, sent := s.sent ++ [forms] })
  join := .prompt

end Script

end SqlCompose
