import SqlCompose.Proofs.Sql.Collecting
import SqlCompose.Proofs.Sql.Pieces

/-! The values that the trees of a statement bind, in the order of the text. Texts, names and
parentheses bind nothing. -/

namespace SqlCompose

namespace Piece

@[simp] theorem values_nil : values [] = [] := rfl

@[simp] theorem values_cons_text (t : String) (ps : List Piece) :
    values (.text t :: ps) = values ps := rfl

@[simp] theorem values_cons_name (i : Identifier) (ps : List Piece) :
    values (.name i :: ps) = values ps := rfl

@[simp] theorem values_cons_parameter (b : Bound) (ps : List Piece) :
    values (.parameter b :: ps) = b :: values ps := rfl

@[simp] theorem values_enclosed (ps : List Piece) : values (enclosed ps) = values ps := by
  rw [enclosed, List.cons_append, values_cons_text, values_append]
  exact List.append_nil _

theorem values_flatten (parts : List (List Piece)) :
    values parts.flatten = parts.flatMap values := by
  induction parts with
  | nil => rfl
  | cons ps rest ih => rw [List.flatten_cons, values_append, List.flatMap_cons, ih]

@[simp] theorem values_separated (s : String) (parts : List (List Piece)) :
    values (separated s parts) = parts.flatMap values := by
  induction parts with
  | nil => rfl
  | cons ps rest ih =>
    cases rest with
    | nil => simp
    | cons qs rest =>
      rw [separated_cons_cons, values_append, values_cons_text, ih]
      rfl

end Piece

namespace Sql

open Piece (values_append values_flatten)

def Expr.values (e : Expr) : List Bound := Piece.values e.pieces

def ExprPair.values (r : ExprPair) : List Bound := Piece.values r.pieces

def Condition.values (c : Condition) : List Bound := Piece.values c.pieces

def SelectItem.values (i : SelectItem) : List Bound := Piece.values i.pieces

def Join.values (j : Join) : List Bound := Piece.values j.pieces

def Select.values (s : Select) : List Bound := Piece.values s.pieces

def SetItem.values (i : SetItem) : List Bound := Piece.values (i.pieces .qualified)

section

/-! A list binds what its members bind. -/

@[simp] theorem Expr.flatMap_values_eachPieces (es : List Expr) :
    (eachPieces es).flatMap Piece.values = es.flatMap values := by
  rw [eachPieces_eq_map, List.flatMap_map]
  rfl

@[simp] theorem ExprPair.flatMap_values_eachPieces (rs : List ExprPair) :
    (eachPieces rs).flatMap Piece.values = rs.flatMap values := by
  rw [eachPieces_eq_map, List.flatMap_map]
  rfl

@[simp] theorem Condition.flatMap_values_eachPieces (cs : List Condition) :
    (eachPieces cs).flatMap Piece.values = cs.flatMap values := by
  rw [eachPieces_eq_map, List.flatMap_map]
  rfl

@[simp] theorem SelectItem.flatMap_values_eachPieces (is : List SelectItem) :
    (eachPieces is).flatMap Piece.values = is.flatMap values := by
  rw [eachPieces_eq_map, List.flatMap_map]
  rfl

@[simp] theorem Join.flatMap_values_eachPieces (js : List Join) :
    (eachPieces js).flatMap Piece.values = js.flatMap values := by
  rw [eachPieces_eq_map, List.flatMap_map]
  rfl

end

attribute [local simp] Expr.pieces ExprPair.pieces Condition.pieces SelectItem.pieces Join.pieces
  Select.pieces values_append

section

variable (negated : Bool)

@[simp] theorem values_choose (positive negative : String) (ps : List Piece) :
    Piece.values (choose negated positive negative :: ps) = Piece.values ps := rfl

@[simp] theorem ColumnName.values_pieces (n : ColumnName) : Piece.values n.pieces = [] := rfl

@[simp] theorem Expr.values_column (n : ColumnName) : (column n).values = [] := by
  simp [values]

@[simp] theorem Expr.values_parameter (b : Bound) : (parameter b).values = [b] := by
  simp [values]

@[simp] theorem Expr.values_subQuery (q : Select) : (subQuery q).values = q.values := by
  simp [values, Select.values]

@[simp] theorem ExprPair.values_mk (a b : Expr) :
    (ExprPair.mk a b).values = a.values ++ b.values := by
  simp [values, Expr.values]

namespace Condition

@[simp] theorem values_constant (truth : Bool) : (constant truth).values = [] := by
  cases truth <;> rfl

@[simp] theorem values_compare (op : Comparison) (l r : Expr) :
    (compare op l r).values = l.values ++ r.values := by
  simp [values, Expr.values]

@[simp] theorem values_isNull (e : Expr) : (isNull negated e).values = e.values := by
  simp [values, Expr.values]

@[simp] theorem values_like (e pattern : Expr) (escape : Option String) :
    (like negated e pattern escape).values =
      e.values ++ pattern.values ++ escape.toList.map .text := by
  cases escape <;> simp [values, Expr.values]

@[simp] theorem values_between (e low high : Expr) :
    (between negated e low high).values = e.values ++ low.values ++ high.values := by
  simp [values, Expr.values]

@[simp] theorem values_inList (e : Expr) (es : List Expr) :
    (inList negated e es).values = e.values ++ es.flatMap Expr.values := by
  simp [values, Expr.values]

@[simp] theorem values_inSubQuery (e : Expr) (q : Select) :
    (inSubQuery negated e q).values = e.values ++ q.values := by
  simp [values, Expr.values, Select.values]

@[simp] theorem values_rowInList (row : ExprPair) (rows : List ExprPair) :
    (rowInList negated row rows).values = row.values ++ rows.flatMap ExprPair.values := by
  simp [values, ExprPair.values]

@[simp] theorem values_rowInSubQuery (row : ExprPair) (q : Select) :
    (rowInSubQuery negated row q).values = row.values ++ q.values := by
  simp [values, ExprPair.values, Select.values]

@[simp] theorem values_exists (q : Select) : (Condition.exists negated q).values = q.values := by
  simp [values, Select.values]

@[simp] theorem values_chain (op : Connective) (cs : List Condition) :
    (chain op cs).values = cs.flatMap values := by
  simp [values]

@[simp] theorem values_parenthesized (c : Condition) : (parenthesized c).values = c.values := by
  simp [values]

@[simp] theorem values_not (c : Condition) : (not c).values = c.values := by
  simp [values]

theorem collects_values : Collects values := ⟨values_constant, values_chain, values_parenthesized,
  values_not⟩

@[simp] theorem values_group (op : Connective) (cs : List Condition) :
    (group op cs).values = cs.flatMap values := collects_values.group op cs

@[simp] theorem values_negation (cs : List Condition) :
    (negation cs).values = cs.flatMap values := collects_values.negation cs

@[simp] theorem values_bothEqual (a x b y : Expr) :
    (bothEqual a x b y).values = a.values ++ x.values ++ (b.values ++ y.values) := by
  simp [bothEqual]

@[simp] theorem values_expandedRows (cs : List Condition) :
    (expandedRows negated cs).values = cs.flatMap values := collects_values.expandedRows negated cs

@[simp] theorem values_conjunction_getD (truth : Bool) (cs : List Condition) :
    ((conjunction? cs).getD (.constant truth)).values = cs.flatMap values :=
  collects_values.conjunction_getD cs truth

@[simp] theorem values_wherePieces (cs : List Condition) :
    Piece.values (wherePieces (conjunction? cs)) = cs.flatMap values := by
  cases cs with
  | nil => rfl
  | cons c cs =>
    show Piece.values (.text " where " :: (chain .and (c :: cs)).pieces) = _
    exact values_chain .and (c :: cs)

end Condition

@[simp] theorem SelectItem.values_column (n : ColumnName) : (column n).values = [] := by
  simp [values]

@[simp] theorem SelectItem.values_countAll : countAll.values = [] := rfl

@[simp] theorem SelectItem.values_aggregate (f : AggregateFunction) (n : ColumnName) :
    (aggregate f n).values = [] := by
  simp [values]

@[simp] theorem SelectItem.values_subQuery (q : Select) : (subQuery q).values = q.values := by
  simp [values, Select.values]

end

section

/-! Tables, sort orders and paging are text and names only. -/

@[simp] theorem values_tablePieces (t : Table) : Piece.values (tablePieces t) = [] := by
  unfold tablePieces
  cases t.definition.schema <;> rfl

@[simp] theorem TableItem.values_pieces (i : TableItem) : Piece.values i.pieces = [] := by
  rw [pieces, values_append, values_tablePieces]
  split <;> rfl

@[simp] theorem OrderItem.values_pieces (i : OrderItem) : Piece.values i.pieces = [] := by
  unfold pieces
  cases i.nulls with
  | none => rfl
  | some order => cases order <;> rfl

@[simp] theorem values_orderPieces (items : List OrderItem) :
    Piece.values (orderPieces items) = [] := by
  unfold orderPieces
  split
  · rfl
  · simp [List.flatMap_map]

@[simp] theorem Paging.values_pieces (p : Paging) : Piece.values p.pieces = [] := by
  cases p with
  | limitOffset limit offset => cases limit <;> cases offset <;> rfl
  | offsetFetch ordered offset fetch => cases ordered <;> cases fetch <;> rfl

@[simp] theorem values_lockPieces (w : LockWait) : Piece.values (lockPieces w) = [] := by
  cases w <;> rfl

@[simp] theorem values_columnList (columns : List Column) :
    Piece.values (columnList columns) = [] := by
  simp [columnList, List.flatMap_map]

end

@[simp] theorem Join.values_mk (kind : JoinKind) (table : TableItem) (on : Condition) :
    (Join.mk kind table on).values = on.values := by
  simp [values, Condition.values]

/-- The select list binds its values first, then the joins in their order, then the where clause. -/
@[simp] theorem Select.values_mk (distinct : Bool) (items : List SelectItem) (source : TableItem)
    (joins : List Join) (conditions : List Condition) (order : List OrderItem) (paging : Paging)
    (lock : Option LockWait) :
    (Select.mk distinct items source joins (Condition.conjunction? conditions) order paging
        lock).values =
      items.flatMap SelectItem.values ++ joins.flatMap Join.values ++
        conditions.flatMap Condition.values := by
  have hdistinct : Piece.values (if distinct then [.text "distinct "] else []) = [] := by
    cases distinct <;> rfl
  cases lock <;>
    simp [values, values_flatten, hdistinct]

@[simp] theorem SetItem.values_expr (target : Column) (e : Expr) :
    (SetItem.mk target (.expr e)).values = e.values := by
  simp [values, Expr.values, pieces]

@[simp] theorem SetItem.values_incoming (target c : Column) :
    (SetItem.mk target (.incoming c)).values = [] := rfl

theorem Update.values_pieces (table : Table) (items : List SetItem) (conditions : List Condition) :
    Piece.values (Update.mk table items (Condition.conjunction? conditions)).pieces =
      items.flatMap SetItem.values ++ conditions.flatMap Condition.values := by
  simp [pieces, setPieces, List.flatMap_map]
  rfl

theorem Delete.values_pieces (table : Table) (conditions : List Condition) :
    Piece.values (Delete.mk table (Condition.conjunction? conditions)).pieces =
      conditions.flatMap Condition.values := by
  simp [pieces]

theorem values_rowPieces (rows : List (List Bound)) :
    Piece.values (rowPieces rows) = rows.flatten := by
  simp [rowPieces, List.flatMap_map, List.flatMap_id']

end Sql

end SqlCompose
