import SqlCompose.Sql.Tree

/-! Conditions in three-valued logic. Comparing with NULL is unknown, and so is a connective whose
other side does not settle it. Membership is a disjunction of equalities, and two rows are equal when
all of their components are. -/

namespace SqlCompose

inductive Truth where
  | holds
  | fails
  | unknown
deriving DecidableEq, Repr

namespace Truth

def ofBool (b : Bool) : Truth := if b then .holds else .fails

def not : Truth → Truth
  | .holds => .fails
  | .fails => .holds
  | .unknown => .unknown

def and : Truth → Truth → Truth
  | .fails, _ => .fails
  | _, .fails => .fails
  | .holds, .holds => .holds
  | _, _ => .unknown

def or : Truth → Truth → Truth
  | .holds, _ => .holds
  | _, .holds => .holds
  | .fails, .fails => .fails
  | _, _ => .unknown

def all (ts : List Truth) : Truth := ts.foldr and .holds

def any (ts : List Truth) : Truth := ts.foldr or .fails

def negateIf (negated : Bool) (t : Truth) : Truth := if negated then t.not else t

end Truth

/-- What the expressions of a condition are worth in one row, and how values that are not NULL
compare. -/
structure Valuation (V : Type) where
  value : Sql.Expr → Option V
  compare : Comparison → V → V → Bool
  /-- Whether a text matches a pattern under an escape sequence. -/
  like : V → V → Option String → Bool
  /-- The rows that a sub-query yields. -/
  rows : Sql.Select → List (List (Option V))

namespace Valuation

variable {V : Type} (v : Valuation V)

def comparison (op : Comparison) : Option V → Option V → Truth
  | some a, some b => .ofBool (v.compare op a b)
  | _, _ => .unknown

def likeness (escape : Option String) : Option V → Option V → Truth
  | some a, some b => .ofBool (v.like a b escape)
  | _, _ => .unknown

def rowsEqual (r s : List (Option V)) : Truth := .all (List.zipWith (v.comparison .equal) r s)

def rowAmong (r : List (Option V)) (rows : List (List (Option V))) : Truth :=
  .any (rows.map (v.rowsEqual r))

def row (e : Sql.ExprPair) : List (Option V) := [v.value e.first, v.value e.second]

end Valuation

namespace Sql.Condition

variable {V : Type}

mutual

def truth (v : Valuation V) : Condition → Truth
  | .constant truth => .ofBool truth
  | .compare op l r => v.comparison op (v.value l) (v.value r)
  | .isNull negated e => .ofBool ((v.value e).isNone ^^ negated)
  | .like negated e pattern escape =>
    .negateIf negated (v.likeness escape (v.value e) (v.value pattern))
  | .between negated e low high =>
    .negateIf negated ((v.comparison .greaterOrEqual (v.value e) (v.value low)).and
      (v.comparison .lessOrEqual (v.value e) (v.value high)))
  | .inList negated e values =>
    .negateIf negated (v.rowAmong [v.value e] (values.map fun x => [v.value x]))
  | .inSubQuery negated e query => .negateIf negated (v.rowAmong [v.value e] (v.rows query))
  | .rowInList negated row values => .negateIf negated (v.rowAmong (v.row row) (values.map v.row))
  | .rowInSubQuery negated row query => .negateIf negated (v.rowAmong (v.row row) (v.rows query))
  | .exists negated query => .ofBool (!(v.rows query).isEmpty ^^ negated)
  | .chain .and parts => .all (truths v parts)
  | .chain .or parts => .any (truths v parts)
  | .parenthesized inner => inner.truth v
  | .not inner => (inner.truth v).not

def truths (v : Valuation V) : List Condition → List Truth
  | [] => []
  | c :: cs => c.truth v :: truths v cs

end

theorem truths_eq_map (v : Valuation V) (cs : List Condition) : truths v cs = cs.map (truth v) := by
  induction cs with
  | nil => rfl
  | cons c cs ih => simp [truths, ih]

end Sql.Condition

end SqlCompose
