import SqlCompose.Compose.Row
import SqlCompose.Compose.Select
import SqlCompose.Query.Insert

/-! Composing upserts. Databases disagree on how to say that an insert updates, or leaves alone, a
row that exists already. From one description three families of statements are made. -/

namespace SqlCompose

namespace OnConflict

/-- The column must belong to the table that is written to. -/
def checkOwned (target : Table) (c : Column) : Except Error Unit :=
  if c.table = target then .ok ()
  else .error (.validation (.foreignUpsertColumn target.name c.name))

/-- The chosen keys, or else the primary key. -/
def keyColumns (target : Table) (o : OnConflict) : Except Error (List Column) :=
  if o.keys.isEmpty then .ok target.keyColumns
  else do
    o.keys.forM (checkOwned target)
    return o.keys

/-- What a row that exists already is given. Without explicit assignments that is the incoming
value of every inserted column that is no key. -/
def assignments (target : Table) (o : OnConflict) : Except Error (List Assignment) :=
  match o.policy with
  | .ignore => .ok []
  | .update .allColumns => do
    let keys ← o.keyColumns target
    return (target.insertColumns.filter (· ∉ keys)).map Assignment.setIncoming
  | .update (.assignments items) => do
    items.forM fun a => do
      checkOwned target a.column
      match a.value with
      | .incoming source => checkOwned target source
      | .operand _ => return ()
    return items

end OnConflict

namespace Assignment

/-- One `set` item of an upsert. -/
def composeUpsert (σ : Setting) (p : Position) (a : Assignment) : Except Error Sql.SetItem :=
  match a.value with
  | .operand operand => return ⟨a.column, .expr (← operand.compose σ p)⟩
  | .incoming source => return ⟨a.column, .incoming source⟩

end Assignment

namespace OnConflict

/-- An update needs keys to meet the existing row. -/
def checkKeys (target : Table) (keys : List Column) (o : OnConflict) : Except Error Unit :=
  match o.policy with
  | .ignore => .ok ()
  | .update _ =>
    if keys.isEmpty then .error (.validation (.noConflictKeys target.name)) else .ok ()

/-- `insert ... on conflict` -/
def composeOnConflict (σ : Setting) (p : Position) (target : Table) (rows : List (List Cell))
    (o : OnConflict) : Except Error Sql.WriteBody := do
  let keys ← o.keyColumns target
  let assignments ← o.assignments target
  o.checkKeys target keys
  let items ← assignments.mapM (·.composeUpsert σ p)
  let columns := target.insertColumns
  let rows := rows.map (rowValues columns)
  return .insert ⟨false, target, columns, rows, some (.onConflict keys items)⟩

/-- `insert ... on duplicate key update`, or `insert ignore` when nothing is updated. -/
def composeOnDuplicateKey (σ : Setting) (p : Position) (target : Table) (rows : List (List Cell))
    (o : OnConflict) : Except Error Sql.WriteBody := do
  let assignments ← o.assignments target
  let items ← assignments.mapM (·.composeUpsert σ p)
  let columns := target.insertColumns
  let rows := rows.map (rowValues columns)
  return if items.isEmpty then .insert ⟨true, target, columns, rows, none⟩
    else .insert ⟨false, target, columns, rows, some (.onDuplicateKey items)⟩

/-- `merge`. The incoming rows carry the inserted columns and the keys, so that a row without a
value for an identity key meets no existing row. -/
def composeMerge (σ : Setting) (p : Position) (terminated : Bool) (target : Table)
    (rows : List (List Cell)) (o : OnConflict) : Except Error Sql.WriteBody := do
  let keys ← o.keyColumns target
  if keys.isEmpty then throw (.validation (.noConflictKeys target.name))
  let assignments ← o.assignments target
  let columns := target.insertColumns
  let source := target.columns.filter fun c => c ∈ columns || c ∈ keys
  let keyNames ← keys.mapM (·.qualify p.visible false)
  let items ← assignments.mapM (·.composeUpsert σ p)
  return .merge {
    table := target
    source
    rows := rows.map (rowValues source)
    keys := keyNames
    items
    columns
    terminated }

/-- The upsert as the dialect writes it. -/
def compose (σ : Setting) (p : Position) (target : Table) (rows : List (List Cell))
    (o : OnConflict) : Except Error Sql.WriteBody :=
  match σ.dialect.conflict with
  | .onConflict => o.composeOnConflict σ p target rows
  | .onDuplicateKey => o.composeOnDuplicateKey σ p target rows
  | .merge terminated => o.composeMerge σ p terminated target rows
  | .absent => .error (.unsupported σ.dialect.name .upsert)

end OnConflict

end SqlCompose
