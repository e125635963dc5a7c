import SqlCompose.Dialect.Basic

/-! A statement as a sequence of pieces: text, names and bound values. Its SQL with placeholders,
the values in the order of the placeholders, and the SQL with literals in their place are three
readings of one sequence. -/

namespace SqlCompose

inductive Piece where
  | text (text : String)
  | name (name : Identifier)
  | parameter (bound : Bound)

namespace Piece

/-- The SQL of the pieces after `count` parameters. -/
def sqlAfter (d : Dialect) : Nat → List Piece → String
  | _, [] => ""
  | count, .text t :: ps => t ++ sqlAfter d count ps
  | count, .name i :: ps => i.sql d.quotes ++ sqlAfter d count ps
  | count, .parameter _ :: ps => d.placeholder.text (count + 1) ++ sqlAfter d (count + 1) ps

/-- The bound values, in the order of their placeholders. -/
def values : List Piece → List Bound
  | [] => []
  | .text _ :: ps => values ps
  | .name _ :: ps => values ps
  | .parameter b :: ps => b :: values ps

/-- The SQL of one piece with a literal in place of a value. -/
def inlined (d : Dialect) : Piece → String
  | .text t => t
  | .name i => i.sql d.quotes
  | .parameter b => d.literal b.value

theorem values_append (ps qs : List Piece) : values (ps ++ qs) = values ps ++ values qs := by
  induction ps with
  | nil => rfl
  | cons p ps ih => cases p <;> simp [values, ih]

theorem sqlAfter_append (d : Dialect) (count : Nat) (ps qs : List Piece) :
    sqlAfter d count (ps ++ qs) =
      sqlAfter d count ps ++ sqlAfter d (count + (values ps).length) qs := by
  induction ps generalizing count with
  | nil => simp [sqlAfter, values]
  | cons p ps ih =>
    cases p with
    | text t => simp [sqlAfter, values, ih, String.append_assoc]
    | name i => simp [sqlAfter, values, ih, String.append_assoc]
    | parameter b =>
      have h : count + 1 + (values ps).length = count + ((values ps).length + 1) := by omega
      simp [sqlAfter, values, ih, String.append_assoc, h]

end Piece

end SqlCompose
