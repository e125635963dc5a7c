import SqlCompose.Compose.Like
import SqlCompose.Scope.Tree
import SqlCompose.Sql.Tree

/-! Composing selects and conditions: columns get the alias of the nearest level that introduces
their table, and constructs that the dialect lacks are replaced or refused. Checks are made in the
order of the text, so that of several faults the first in the text is reported. -/

namespace SqlCompose

namespace Column

/-- The column under the alias that the levels give to its table. -/
def qualify (c : Column) (levels : List Level) (outer : Bool) : Except Error Sql.ColumnName :=
  match Level.resolve? levels c.table with
  | some qualifier => .ok ⟨c, qualifier, outer⟩
  | none => .error (.unknownTable c.table.name c.name)

end Column

namespace Table

/-- The table with its alias at this very level. -/
def item (t : Table) (level : Level) : Except Error Sql.TableItem :=
  match level.lookup t with
  | some name => .ok ⟨t, name⟩
  | none => .error (.unknownTable t.name "*")

end Table

namespace Sql.Condition

/-- A single condition stands for itself, several are joined between parentheses, and none is the
constant that changes nothing. -/
def group (op : Connective) : List Condition → Condition
  | [] => .constant (op = .and)
  | [c] => c
  | cs => .parenthesized (.chain op cs)

/-- Without conditions the negation is false. -/
def negation : List Condition → Condition
  | [] => .constant false
  | cs => .not (.parenthesized (.chain .and cs))

/-- The conditions joined by `and`, if there are any. -/
def conjunction? : List Condition → Option Condition
  | [] => none
  | cs => some (.chain .and cs)

/-- Membership of a pair written out with comparisons. -/
def expandedRows (negated : Bool) (rows : List Condition) : Condition :=
  let any := parenthesized (.chain .or rows)
  if negated then .not any else any

/-- The first component equals one value and the second the other. -/
def bothEqual (a x b y : Expr) : Condition :=
  .parenthesized (.chain .and [.compare .equal a x, .compare .equal b y])

end Sql.Condition

namespace Setting

def paging (σ : Setting) (ordered : Bool) (offset limit : Option UInt64) : Sql.Paging :=
  match σ.dialect.paging with
  | .limitOffset unlimited =>
    let limit : Option Int := match limit, offset with
      | some n, _ => some n.toNat
      | none, some _ => unlimited
      | none, none => none
    .limitOffset limit offset
  | .offsetFetch =>
    match offset, limit with
    | none, none => .limitOffset none none
    | _, _ => .offsetFetch ordered (offset.getD 0) limit

def lock (σ : Setting) (mode : LockWait) : Except Error LockWait :=
  match σ.dialect.locking with
  | .supported => .ok mode
  | .refusedBy dialect => .error (.unsupported dialect .rowLock)

/-- Fails when the dialect lacks a construct. -/
def require (σ : Setting) (has : Bool) (feature : Feature) : Except Error Unit :=
  if has then .ok () else .error (.unsupported σ.dialect.name feature)

end Setting

namespace SortItem

def compose (σ : Setting) (p : Position) (i : SortItem) : Except Error Sql.OrderItem := do
  let name ← i.column.qualify p.visible false
  if i.nulls.isSome then σ.require σ.dialect.nullsOrdering .nullsOrdering
  return ⟨name, i.descending, i.nulls⟩

end SortItem

namespace Aggregate

def compose (p : Position) : Aggregate → Except Error Sql.SelectItem
  | .countAll => return .countAll
  | .count c => return .aggregate .count (← c.qualify p.visible false)
  | .max c => return .aggregate .max (← c.qualify p.visible false)
  | .min c => return .aggregate .min (← c.qualify p.visible false)

end Aggregate

namespace Select

/-- The first table of the level that stands there already. -/
def firstRepeated? (seen : List Table) : List Table → Option Table
  | [] => none
  | t :: ts => if t ∈ seen then some t else firstRepeated? (seen ++ [t]) ts

/-- A table reference may be introduced once at a level. -/
def checkTables (tables : List Table) : Except Error Unit :=
  match firstRepeated? [] tables with
  | some t => .error (.validation (.repeatedTable t.name))
  | none => .ok ()

def checkWidth (width : Option Nat) (found : Nat) : Except Error Unit :=
  match width with
  | some w => if found = w then .ok () else .error (.validation (.subQueryWidth w found))
  | none => .ok ()

end Select

mutual

def Operand.compose (σ : Setting) (p : Position) : Operand → Except Error Sql.Expr
  | .column c => return .column (← c.qualify p.visible false)
  | .outer c => return .column (← c.qualify p.outer true)
  | .parameter bound => return .parameter bound
  | .subQuery query => return .subQuery (← query.compose σ p (some 1))
  | .pattern parts => return .parameter (.text (σ.patternText parts))

def Operand.composeAll (σ : Setting) (p : Position) : List Operand → Except Error (List Sql.Expr)
  | [] => return []
  | o :: os => do
    let e ← o.compose σ p
    let es ← Operand.composeAll σ p os
    return e :: es

def OperandPair.compose (σ : Setting) (p : Position) : OperandPair → Except Error Sql.ExprPair
  | ⟨first, second⟩ => do
    let a ← first.compose σ p
    let b ← second.compose σ p
    return ⟨a, b⟩

def OperandPair.composeAll (σ : Setting) (p : Position) :
    List OperandPair → Except Error (List Sql.ExprPair)
  | [] => return []
  | o :: os => do
    let e ← o.compose σ p
    let es ← OperandPair.composeAll σ p os
    return e :: es

/-- A comparison with each pair, in the order of the text. -/
def OperandPair.expandAll (σ : Setting) (p : Position) (first second : Except Error Sql.Expr) :
    List OperandPair → Except Error (List Sql.Condition)
  | [] => return []
  | ⟨x, y⟩ :: os => do
    let a ← first
    let x ← x.compose σ p
    let b ← second
    let y ← y.compose σ p
    let cs ← OperandPair.expandAll σ p first second os
    return .bothEqual a x b y :: cs

def Criterion.compose (σ : Setting) (p : Position) : Criterion → Except Error Sql.Condition
  | .compare op left right => do
    let l ← left.compose σ p
    let r ← right.compose σ p
    return .compare op l r
  | .isNull negated o => return .isNull negated (← o.compose σ p)
  | .like negated o pattern option => do
    let e ← o.compose σ p
    match pattern.patternParts? option with
    | some parts =>
      return .like negated e (.parameter (.text (σ.patternText parts))) (σ.escapeClause parts)
    | none => return .like negated e (← pattern.compose σ p) none
  | .between negated o low high => do
    let e ← o.compose σ p
    let l ← low.compose σ p
    let h ← high.compose σ p
    return .between negated e l h
  | .inList negated o values =>
    if values.isEmpty then return .constant negated
    else do
      let e ← o.compose σ p
      let es ← Operand.composeAll σ p values
      return .inList negated e es
  | .inSubQuery negated o query => do
    let e ← o.compose σ p
    let s ← query.compose σ p (some 1)
    return .inSubQuery negated e s
  | .pairInList negated ⟨first, second⟩ values =>
    if values.isEmpty then return .constant negated
    else if σ.dialect.rowValueInList then do
      let a ← first.compose σ p
      let b ← second.compose σ p
      let es ← OperandPair.composeAll σ p values
      return .rowInList negated ⟨a, b⟩ es
    else do
      let cs ← OperandPair.expandAll σ p (first.compose σ p) (second.compose σ p) values
      return .expandedRows negated cs
  | .pairInSubQuery negated pair query => do
    σ.require σ.dialect.rowValueInSubQuery .rowValueInSubQuery
    let row ← pair.compose σ p
    let s ← query.compose σ p (some 2)
    return .rowInSubQuery negated row s
  | .exists negated query => return .exists negated (← query.compose σ p none)
  | .all children => return .group .and (← Criterion.composeAll σ p children)
  | .any children => return .group .or (← Criterion.composeAll σ p children)
  | .not children => return .negation (← Criterion.composeAll σ p children)

def Criterion.composeAll (σ : Setting) (p : Position) :
    List Criterion → Except Error (List Sql.Condition)
  | [] => return []
  | c :: cs => do
    let e ← c.compose σ p
    let es ← Criterion.composeAll σ p cs
    return e :: es

/-- A join condition; without criteria it holds always. -/
def Join.compose (σ : Setting) (p : Position) : Join → Except Error Sql.Join
  | ⟨kind, table, on⟩ => do
    let item ← table.item p.scope.level
    let cs ← Criterion.composeAll σ p on
    return ⟨kind, item, (Sql.Condition.conjunction? cs).getD (.constant true)⟩

def Join.composeAll (σ : Setting) (p : Position) : List Join → Except Error (List Sql.Join)
  | [] => return []
  | j :: js => do
    let e ← j.compose σ p
    let es ← Join.composeAll σ p js
    return e :: es

def SelectItem.compose (σ : Setting) (p : Position) : SelectItem → Except Error Sql.SelectItem
  | .column c => return .column (← c.qualify p.visible false)
  | .aggregate a => a.compose p
  | .subQuery query => return .subQuery (← query.compose σ p (some 1))

def SelectItem.composeAll (σ : Setting) (p : Position) :
    List SelectItem → Except Error (List Sql.SelectItem)
  | [] => return []
  | i :: is => do
    let e ← i.compose σ p
    let es ← SelectItem.composeAll σ p is
    return e :: es

def Projection.compose (σ : Setting) (p : Position) (target : Table) :
    Projection → Except Error (List Sql.SelectItem)
  | .allColumns => target.columns.mapM fun c => return .column (← c.qualify p.visible false)
  | .explicit items => SelectItem.composeAll σ p items

def Select.compose (σ : Setting) (p : Position) : Select → Except Error Sql.Select
  | { target, joins, filter, projection, distinct, orderBy, offset, limit, lock, .. } => do
    Select.checkTables (target :: joins.map (·.table))
    let items ← projection.compose σ p target
    let source ← target.item p.scope.level
    let joined ← Join.composeAll σ p joins
    let conditions ← Criterion.composeAll σ p filter
    let order ← orderBy.mapM (·.compose σ p)
    let locked ← lock.mapM σ.lock
    return {
      distinct, items, source
      joins := joined
      filter := Sql.Condition.conjunction? conditions
      orderBy := order
      paging := σ.paging (!orderBy.isEmpty) offset limit
      lock := locked }

/-- The select of a sub-query one level down. Where a width is asked for, the select list must
have it. -/
def SubQuery.compose (σ : Setting) (p : Position) (width : Option Nat) :
    SubQuery → Except Error Sql.Select
  | ⟨id, select⟩ => do
    Select.checkWidth width select.width
    match p.enter? id with
    | some below => select.compose σ below
    | none => throw (.validation .unregisteredSubQuery)

end

namespace Criterion

/-- A where clause, if there are criteria. -/
def composeWhere (σ : Setting) (p : Position) (criteria : List Criterion) :
    Except Error (Option Sql.Condition) :=
  return Sql.Condition.conjunction? (← composeAll σ p criteria)

end Criterion

end SqlCompose
