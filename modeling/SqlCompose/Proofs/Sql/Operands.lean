import SqlCompose.Build
import SqlCompose.Proofs.Sql.Collecting

/-! What the trees of a statement write at one level: its operands, each with the alias before a
column, and the tables of its from list with the aliases that they declare. Nested selects count
as operands of the level around them. -/

namespace SqlCompose.Sql

@[simp] def ExprPair.operands (p : ExprPair) : List Expr := [p.first, p.second]

namespace Condition

mutual

@[simp] def operands : Condition → List Expr
  | .constant _ => []
  | .compare _ l r => [l, r]
  | .isNull _ e => [e]
  | .like _ e pattern _ => [e, pattern]
  | .between _ e low high => [e, low, high]
  | .inList _ e values => e :: values
  | .inSubQuery _ e query => [e, .subQuery query]
  | .rowInList _ row values => row.operands ++ values.flatMap ExprPair.operands
  | .rowInSubQuery _ row query => row.operands ++ [.subQuery query]
  | .exists _ query => [.subQuery query]
  | .chain _ parts => listOperands parts
  | .parenthesized inner => inner.operands
  | .not inner => inner.operands

@[simp] def listOperands : List Condition → List Expr
  | [] => []
  | c :: cs => c.operands ++ listOperands cs

end

@[simp] theorem listOperands_eq_flatMap (cs : List Condition) :
    listOperands cs = cs.flatMap operands := by
  induction cs with
  | nil => rfl
  | cons c cs ih => simp [listOperands, ih]

theorem collects_operands : Collects operands where
  constant _ := rfl
  chain _ cs := listOperands_eq_flatMap cs
  parenthesized _ := rfl
  not _ := rfl

end Condition

@[simp] def SelectItem.operands : SelectItem → List Expr
  | .column n => [.column n]
  | .countAll => []
  | .aggregate _ n => [.column n]
  | .subQuery query => [.subQuery query]

namespace Select

def operands (q : Select) : List Expr :=
  q.items.flatMap SelectItem.operands ++ q.joins.flatMap (·.on.operands) ++
    q.filter.toList.flatMap Condition.operands ++ q.orderBy.map (.column ·.name)

/-- The tables of the from list with the aliases that it declares. -/
def level (q : Select) : Level :=
  (q.source :: q.joins.map (·.table)).map fun i => (i.table, i.name)

end Select

def SetItem.operands (i : SetItem) : List Expr :=
  match i.source with
  | .expr e => [e]
  | .incoming _ => []

def Update.operands (u : Update) : List Expr :=
  u.items.flatMap SetItem.operands ++ u.filter.toList.flatMap Condition.operands

def Delete.operands (d : Delete) : List Expr := d.filter.toList.flatMap Condition.operands

def Insert.operands (i : Insert) : List Expr :=
  match i.conflict with
  | some (.onConflict _ items) => items.flatMap SetItem.operands
  | some (.onDuplicateKey items) => items.flatMap SetItem.operands
  | none => []

def Merge.operands (m : Merge) : List Expr :=
  m.keys.map .column ++ m.items.flatMap SetItem.operands

def WriteBody.operands : WriteBody → List Expr
  | .insert i => i.operands
  | .merge m => m.operands

def WriteBody.table : WriteBody → Table
  | .insert i => i.table
  | .merge m => m.table

namespace Command

def operands : Command → List Expr
  | .select s => s.operands
  | .update u => u.operands
  | .delete d => d.operands
  | .write w => w.body.operands

/-- A table that is written to goes by its own name. -/
def level : Command → Level
  | .select s => s.level
  | .update u => [(u.table, u.table.definition.name)]
  | .delete d => [(d.table, d.table.definition.name)]
  | .write w => [(w.body.table, w.body.table.definition.name)]

end Command

end SqlCompose.Sql
