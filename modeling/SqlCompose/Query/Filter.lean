import SqlCompose.Query.Basic

/-! Filters as programs. A call adds a criterion, a group of criteria, or nothing: a comparison
with an absent side is passed over, and so is a group that stays empty. -/

namespace SqlCompose

/-- A fragment of a LIKE pattern whose text may be absent. -/
structure Fragment where
  option : LikeOption
  text : Option String
deriving DecidableEq, Repr

/-- A pattern with an absent fragment is absent as a whole. -/
def Fragment.pattern? (fragments : List Fragment) : Option (List PatternPart) :=
  fragments.mapM fun f => f.text.map fun text => ⟨text, f.option⟩

/-- One call on a filter. Values are bound with the type of the column they meet. -/
inductive FilterCall where
  | compare (op : Comparison) (left right : Option Operand)
  | isNull (negated : Bool) (column : Column)
  | like (negated : Bool) (column : Column) (fragments : List Fragment)
  | between (negated : Bool) (column : Column) (low high : Value)
  | inList (negated : Bool) (column : Column) (values : List Value)
  | inSubQuery (negated : Bool) (column : Column) (query : SubQuery)
  | pairInList (negated : Bool) (first second : Column) (values : List (Value × Value))
  | pairInSubQuery (negated : Bool) (first second : Column) (query : SubQuery)
  | exists (negated : Bool) (query : SubQuery)
  | all (calls : List FilterCall)
  | any (calls : List FilterCall)
  | not (calls : List FilterCall)
  /-- The criteria of a reusable filter. -/
  | extend (criteria : List Criterion)
  | push (criterion : Criterion)

namespace Column

/-- A value bound with the type of the column. -/
def bind (c : Column) (v : Value) : Operand := .parameter ⟨v, c.type⟩

end Column

/-- A single fragment keeps its option beside the text; several become a pattern. -/
def Criterion.likePattern (negated : Bool) (column : Column) : List PatternPart → Criterion
  | [part] => .like negated (.column column) (.parameter (.text part.text)) part.option
  | parts => .like negated (.column column) (.pattern parts) .raw

namespace FilterCall

/-- A group of criteria, unless there are none. -/
def group (node : List Criterion → Criterion) (criteria : List Criterion) : List Criterion :=
  if criteria.isEmpty then [] else [node criteria]

mutual

/-- What one call adds. -/
def criteria : FilterCall → List Criterion
  | .compare op (some left) (some right) => [.compare op left right]
  | .compare _ _ _ => []
  | .isNull negated column => [.isNull negated (.column column)]
  | .like negated column fragments =>
    match Fragment.pattern? fragments with
    | some parts => [.likePattern negated column parts]
    | none => []
  | .between negated column low high =>
    [.between negated (.column column) (column.bind low) (column.bind high)]
  | .inList negated column values =>
    [.inList negated (.column column) (values.map column.bind)]
  | .inSubQuery negated column query => [.inSubQuery negated (.column column) query]
  | .pairInList negated first second values =>
    [.pairInList negated ⟨.column first, .column second⟩
      (values.map fun (a, b) => ⟨first.bind a, second.bind b⟩)]
  | .pairInSubQuery negated first second query =>
    [.pairInSubQuery negated ⟨.column first, .column second⟩ query]
  | .exists negated query => [.exists negated query]
  | .all calls => group .all (run calls)
  | .any calls => group .any (run calls)
  | .not calls => group .not (run calls)
  | .extend criteria => criteria
  | .push criterion => [criterion]

/-- What the calls add, in their order. -/
def run : List FilterCall → List Criterion
  | [] => []
  | call :: calls => call.criteria ++ run calls

end

end FilterCall

end SqlCompose
