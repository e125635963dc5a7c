import SqlCompose.Sql.Piece
import SqlCompose.Sql.Tree

/-! The pieces of a statement tree. -/

namespace SqlCompose

namespace Piece

/-- The parts with a text between neighbours. -/
def separated (separator : String) (parts : List (List Piece)) : List Piece :=
  List.intercalate [.text separator] parts

/-- The pieces between parentheses. -/
def enclosed (ps : List Piece) : List Piece := .text "(" :: ps ++ [.text ")"]

end Piece

namespace Sql

open Piece (separated enclosed)

def comparisonText : Comparison → String
  | .equal => " = "
  | .notEqual => " <> "
  | .less => " < "
  | .lessOrEqual => " <= "
  | .greater => " > "
  | .greaterOrEqual => " >= "

/-- One of two texts, the second for the negation. -/
def choose (negated : Bool) (positive negative : String) : Piece :=
  .text (if negated then negative else positive)

def Connective.text : Connective → String
  | .and => " and "
  | .or => " or "

def AggregateFunction.text : AggregateFunction → String
  | .count => "count("
  | .max => "max("
  | .min => "min("

def ColumnName.pieces (n : ColumnName) : List Piece :=
  [.name n.qualifier, .text ".", .name n.column.ident]

/-- The table with its schema. -/
def tablePieces (t : Table) : List Piece :=
  match t.definition.schema with
  | some schema => [.name schema, .text ".", .name t.definition.name]
  | none => [.name t.definition.name]

/-- The alias is written where it differs from the name of the table. -/
def TableItem.pieces (i : TableItem) : List Piece :=
  tablePieces i.table ++
    if i.name = i.table.definition.name then [] else [.text " ", .name i.name]

def columnList (columns : List Column) : List Piece :=
  enclosed (separated ", " (columns.map fun c => [.name c.ident]))

def OrderItem.pieces (i : OrderItem) : List Piece :=
  i.name.pieces ++ [.text (if i.descending then " desc" else " asc")] ++
    match i.nulls with
    | some .first => [.text " nulls first"]
    | some .last => [.text " nulls last"]
    | none => []

def orderPieces (items : List OrderItem) : List Piece :=
  if items.isEmpty then []
  else .text " order by " :: separated ", " (items.map OrderItem.pieces)

def Paging.pieces : Paging → List Piece
  | .limitOffset limit offset =>
    (match limit with
      | some n => [.text (" limit " ++ toString n)]
      | none => []) ++
    (match offset with
      | some n => [.text (" offset " ++ toString n.toNat)]
      | none => [])
  | .offsetFetch ordered offset fetch =>
    (if ordered then [] else [.text " order by (select null)"]) ++
    [.text (" offset " ++ toString offset.toNat ++ " rows")] ++
    (match fetch with
      | some n => [.text (" fetch next " ++ toString n.toNat ++ " rows only")]
      | none => [])

def lockPieces : LockWait → List Piece
  | .wait => [.text " for update"]
  | .noWait => [.text " for update", .text " nowait"]
  | .skipLocked => [.text " for update", .text " skip locked"]

mutual

def Expr.pieces : Expr → List Piece
  | .column name => name.pieces
  | .parameter bound => [.parameter bound]
  | .subQuery query => enclosed query.pieces

def Expr.eachPieces : List Expr → List (List Piece)
  | [] => []
  | e :: es => e.pieces :: Expr.eachPieces es

/-- A row value. -/
def ExprPair.pieces : ExprPair → List Piece
  | ⟨first, second⟩ => enclosed (separated ", " [first.pieces, second.pieces])

def ExprPair.eachPieces : List ExprPair → List (List Piece)
  | [] => []
  | p :: ps => p.pieces :: ExprPair.eachPieces ps

def Condition.pieces : Condition → List Piece
  | .constant truth => [.text (if truth then "1 = 1" else "1 = 0")]
  | .compare op left right => left.pieces ++ .text (comparisonText op) :: right.pieces
  | .isNull negated operand => operand.pieces ++ [choose negated " is null" " is not null"]
  | .like negated operand pattern escape =>
    operand.pieces ++ choose negated " like " " not like " :: pattern.pieces ++
      match escape with
      | some sequence => [.text " escape ", .parameter (.text sequence)]
      | none => []
  | .between negated operand low high =>
    operand.pieces ++ choose negated " between " " not between " :: low.pieces ++
      .text " and " :: high.pieces
  | .inList negated operand values =>
    operand.pieces ++ choose negated " in " " not in " ::
      enclosed (separated ", " (Expr.eachPieces values))
  | .inSubQuery negated operand query =>
    operand.pieces ++ choose negated " in " " not in " :: enclosed query.pieces
  | .rowInList negated row values =>
    row.pieces ++ choose negated " in " " not in " ::
      enclosed (separated ", " (ExprPair.eachPieces values))
  | .rowInSubQuery negated row query =>
    row.pieces ++ choose negated " in " " not in " :: enclosed query.pieces
  | .exists negated query => choose negated "exists " "not exists " :: enclosed query.pieces
  | .chain op parts => separated op.text (Condition.eachPieces parts)
  | .parenthesized inner => enclosed inner.pieces
  | .not inner => .text "not " :: inner.pieces

def Condition.eachPieces : List Condition → List (List Piece)
  | [] => []
  | c :: cs => c.pieces :: Condition.eachPieces cs

/-- A where clause, if there is one. -/
def Condition.wherePieces : Option Condition → List Piece
  | none => []
  | some c => .text " where " :: c.pieces

def SelectItem.pieces : SelectItem → List Piece
  | .column name => name.pieces
  | .countAll => [.text "count(*)"]
  | .aggregate function name => .text function.text :: name.pieces ++ [.text ")"]
  | .subQuery query => enclosed query.pieces

def SelectItem.eachPieces : List SelectItem → List (List Piece)
  | [] => []
  | i :: is => i.pieces :: SelectItem.eachPieces is

def Join.pieces : Join → List Piece
  | ⟨kind, table, on⟩ =>
    .text (match kind with
      | .inner => " inner join "
      | .left => " left outer join ") :: table.pieces ++ .text " on " :: on.pieces

def Join.eachPieces : List Join → List (List Piece)
  | [] => []
  | j :: js => j.pieces :: Join.eachPieces js

def Select.pieces : Select → List Piece
  | { distinct, items, source, joins, filter, orderBy, paging, lock } =>
    .text "select " :: (if distinct then [.text "distinct "] else []) ++
      separated ", " (SelectItem.eachPieces items) ++
      .text " from " :: source.pieces ++ (Join.eachPieces joins).flatten ++
      Condition.wherePieces filter ++ orderPieces orderBy ++ paging.pieces ++
      (match lock with
        | some mode => lockPieces mode
        | none => [])

end

/-- A column of the incoming row. -/
def incomingPieces (style : IncomingStyle) (c : Column) : List Piece :=
  match style with
  | .qualified => [.text "excluded", .text ".", .name c.ident]
  | .valuesFunction => [.text "values(", .name c.ident, .text ")"]

def SetItem.pieces (style : IncomingStyle) (i : SetItem) : List Piece :=
  .name i.target.ident :: .text " = " ::
    match i.source with
    | .expr e => e.pieces
    | .incoming c => incomingPieces style c

def setPieces (style : IncomingStyle) (items : List SetItem) : List Piece :=
  separated ", " (items.map (·.pieces style))

def Update.pieces (u : Update) : List Piece :=
  .text "update " :: tablePieces u.table ++ .text " set " :: setPieces .qualified u.items ++
    Condition.wherePieces u.filter

def Delete.pieces (d : Delete) : List Piece :=
  .text "delete from " :: tablePieces d.table ++ Condition.wherePieces d.filter

/-- Rows of values, each between parentheses. -/
def rowPieces (rows : List (List Bound)) : List Piece :=
  separated ", " (rows.map fun row => enclosed (separated ", " (row.map fun b => [.parameter b])))

def ConflictClause.pieces : ConflictClause → List Piece
  | .onConflict keys items =>
    .text " on conflict" :: (if keys.isEmpty then [] else .text " " :: columnList keys) ++
      if items.isEmpty then [.text " do nothing"]
      else .text " do update set " :: setPieces .qualified items
  | .onDuplicateKey items => .text " on duplicate key update " :: setPieces .valuesFunction items

def Insert.pieces (i : Insert) : List Piece :=
  .text (if i.ignoring then "insert ignore into " else "insert into ") :: tablePieces i.table ++
    .text " " :: columnList i.columns ++ .text " values " :: rowPieces i.rows ++
    match i.conflict with
    | some clause => clause.pieces
    | none => []

/-- A key of the table meets the key of the incoming row. -/
def keyPieces (n : ColumnName) : List Piece :=
  n.pieces ++ .text " = " :: incomingPieces .qualified n.column

def Merge.pieces (m : Merge) : List Piece :=
  .text "merge into " :: tablePieces m.table ++ .text " using (values " :: rowPieces m.rows ++
    .text ") as excluded " :: columnList m.source ++
    .text " on (" :: separated " and " (m.keys.map keyPieces) ++ .text ")" ::
    (if m.items.isEmpty then []
      else .text " when matched then update set " :: setPieces .qualified m.items) ++
    .text " when not matched then insert " :: columnList m.columns ++ .text " values " ::
    enclosed (separated ", " (m.columns.map (incomingPieces .qualified))) ++
    if m.terminated then [.text ";"] else []

def WriteBody.pieces : WriteBody → List Piece
  | .insert i => i.pieces
  | .merge m => m.pieces

def Write.pieces (w : Write) : List Piece :=
  w.body.pieces ++
    match w.returning with
    | some columns => .text " returning " :: separated ", " (columns.map fun c => [.name c.ident])
    | none => []

def Command.pieces : Command → List Piece
  | .select s => s.pieces
  | .update u => u.pieces
  | .delete d => d.pieces
  | .write w => w.pieces

end Sql

end SqlCompose
