import SqlCompose.Sql.Piece

/-! Finished statements: SQL with placeholders and the values that belong to them. -/

namespace SqlCompose

/-- A sequence of pieces in the spelling of a dialect. -/
structure Statement where
  dialect : Dialect
  pieces : List Piece

namespace Statement

/-- The statement that does nothing. -/
def empty (d : Dialect) : Statement := ⟨d, []⟩

def sql (s : Statement) : String := Piece.sqlAfter s.dialect 0 s.pieces

/-- The values in the order of their placeholders. -/
def values (s : Statement) : List Bound := Piece.values s.pieces

/-- Without SQL there is nothing to run. -/
def isEmpty (s : Statement) : Bool := s.sql.isEmpty

/-- The SQL with every value written as a literal, for display only. -/
def inlined (s : Statement) : String := String.join (s.pieces.map (Piece.inlined s.dialect))

end Statement

/-- Consecutive groups of `size` members, the last of which may be smaller. -/
def chunks {α : Type} (size : Nat) : List α → List (List α)
  | [] => []
  | x :: xs => (x :: xs.take (size - 1)) :: chunks size (xs.drop (size - 1))
termination_by xs => xs.length
decreasing_by simp only [List.length_cons, List.length_drop]; omega

/-- One SQL text that is run once for each row of values. -/
structure BatchStatement where
  sql : String
  rows : List (List Bound)
  batchSize : Nat

namespace BatchStatement

/-- At least one row is sent at a time. -/
def of (sql : String) (rows : List (List Bound)) (batchSize : Nat) : BatchStatement :=
  ⟨sql, rows, max batchSize 1⟩

/-- The rows in groups that are sent together. -/
def chunks (b : BatchStatement) : List (List (List Bound)) := SqlCompose.chunks b.batchSize b.rows

end BatchStatement

end SqlCompose
