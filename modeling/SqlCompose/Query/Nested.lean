import SqlCompose.Query.Basic

/-! The sub-queries that a query level embeds, in the order in which its text mentions them.
Sub-queries of sub-queries belong to the level below. -/

namespace SqlCompose

namespace Operand

def subQueries : Operand → List SubQuery
  | .subQuery query => [query]
  | _ => []

end Operand

namespace OperandPair

def subQueries (p : OperandPair) : List SubQuery := p.first.subQueries ++ p.second.subQueries

end OperandPair

namespace Criterion

mutual

def subQueries : Criterion → List SubQuery
  | .compare _ l r => l.subQueries ++ r.subQueries
  | .isNull _ o => o.subQueries
  | .like _ o p _ => o.subQueries ++ p.subQueries
  | .between _ o low high => o.subQueries ++ low.subQueries ++ high.subQueries
  | .inList _ o values => o.subQueries ++ values.flatMap Operand.subQueries
  | .inSubQuery _ o query => o.subQueries ++ [query]
  | .pairInList _ pair values => pair.subQueries ++ values.flatMap OperandPair.subQueries
  | .pairInSubQuery _ pair query => pair.subQueries ++ [query]
  | .exists _ query => [query]
  | .all children => listSubQueries children
  | .any children => listSubQueries children
  | .not children => listSubQueries children

def listSubQueries : List Criterion → List SubQuery
  | [] => []
  | c :: cs => c.subQueries ++ listSubQueries cs

end

theorem listSubQueries_eq_flatMap (cs : List Criterion) :
    listSubQueries cs = cs.flatMap subQueries := by
  induction cs with
  | nil => rfl
  | cons c cs ih => simp [listSubQueries, ih]

end Criterion

namespace SelectItem

def subQueries : SelectItem → List SubQuery
  | .subQuery query => [query]
  | _ => []

end SelectItem

namespace Projection

def subQueries : Projection → List SubQuery
  | .allColumns => []
  | .explicit items => items.flatMap SelectItem.subQueries

end Projection

namespace Select

def subQueries (s : Select) : List SubQuery :=
  s.projection.subQueries ++ s.criteria.flatMap Criterion.subQueries

end Select

end SqlCompose
