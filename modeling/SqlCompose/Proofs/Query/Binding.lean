import Mathlib.Data.List.Basic
import SqlCompose.Compose.Like

/-! The values that a query binds, read off its description in the order of its text. Neither the
tables nor the level at which a select stands have a part in them. -/

namespace SqlCompose

mutual

def Operand.binds (σ : Setting) : Operand → List Bound
  | .column _ => []
  | .outer _ => []
  | .parameter b => [b]
  | .subQuery query => query.binds σ
  | .pattern parts => [.text (σ.patternText parts)]

def Operand.listBinds (σ : Setting) : List Operand → List Bound
  | [] => []
  | o :: os => o.binds σ ++ Operand.listBinds σ os

def OperandPair.binds (σ : Setting) : OperandPair → List Bound
  | ⟨first, second⟩ => first.binds σ ++ second.binds σ

def OperandPair.listBinds (σ : Setting) : List OperandPair → List Bound
  | [] => []
  | o :: os => o.binds σ ++ OperandPair.listBinds σ os

/-- Written out with comparisons, what the two components bind is bound again for each pair. -/
def OperandPair.expandedBinds (σ : Setting) (first second : List Bound) :
    List OperandPair → List Bound
  | [] => []
  | ⟨x, y⟩ :: os =>
    first ++ x.binds σ ++ (second ++ y.binds σ) ++ OperandPair.expandedBinds σ first second os

/-- An empty list binds nothing, and neither does what is looked for in it. -/
def Criterion.binds (σ : Setting) : Criterion → List Bound
  | .compare _ l r => l.binds σ ++ r.binds σ
  | .isNull _ o => o.binds σ
  | .like _ o pattern option =>
    o.binds σ ++
      match pattern.patternParts? option with
      | some parts => .text (σ.patternText parts) :: (σ.escapeClause parts).toList.map .text
      | none => pattern.binds σ
  | .between _ o low high => o.binds σ ++ low.binds σ ++ high.binds σ
  | .inList _ o values =>
    if values.isEmpty then [] else o.binds σ ++ Operand.listBinds σ values
  | .inSubQuery _ o query => o.binds σ ++ query.binds σ
  | .pairInList _ ⟨first, second⟩ values =>
    if values.isEmpty then []
    else if σ.dialect.rowValueInList then
      first.binds σ ++ second.binds σ ++ OperandPair.listBinds σ values
    else OperandPair.expandedBinds σ (first.binds σ) (second.binds σ) values
  | .pairInSubQuery _ pair query => pair.binds σ ++ query.binds σ
  | .exists _ query => query.binds σ
  | .all children => Criterion.listBinds σ children
  | .any children => Criterion.listBinds σ children
  | .not children => Criterion.listBinds σ children

def Criterion.listBinds (σ : Setting) : List Criterion → List Bound
  | [] => []
  | c :: cs => c.binds σ ++ Criterion.listBinds σ cs

def Join.binds (σ : Setting) : Join → List Bound
  | ⟨_, _, on⟩ => Criterion.listBinds σ on

def Join.listBinds (σ : Setting) : List Join → List Bound
  | [] => []
  | j :: js => j.binds σ ++ Join.listBinds σ js

def SelectItem.binds (σ : Setting) : SelectItem → List Bound
  | .column _ => []
  | .aggregate _ => []
  | .subQuery query => query.binds σ

def SelectItem.listBinds (σ : Setting) : List SelectItem → List Bound
  | [] => []
  | i :: is => i.binds σ ++ SelectItem.listBinds σ is

def Projection.binds (σ : Setting) : Projection → List Bound
  | .allColumns => []
  | .explicit items => SelectItem.listBinds σ items

def Select.binds (σ : Setting) : Select → List Bound
  | { joins, filter, projection, .. } =>
    projection.binds σ ++ Join.listBinds σ joins ++ Criterion.listBinds σ filter

def SubQuery.binds (σ : Setting) : SubQuery → List Bound
  | ⟨_, select⟩ => select.binds σ

end

section

variable (σ : Setting)

theorem Operand.listBinds_eq_flatMap (os : List Operand) :
    listBinds σ os = os.flatMap (binds σ) := by
  induction os with
  | nil => rfl
  | cons o os ih => rw [listBinds, ih, List.flatMap_cons]

theorem OperandPair.listBinds_eq_flatMap (os : List OperandPair) :
    listBinds σ os = os.flatMap (binds σ) := by
  induction os with
  | nil => rfl
  | cons o os ih => rw [listBinds, ih, List.flatMap_cons]

theorem OperandPair.expandedBinds_eq_flatMap (first second : List Bound) (os : List OperandPair) :
    expandedBinds σ first second os =
      os.flatMap fun o => first ++ o.first.binds σ ++ (second ++ o.second.binds σ) := by
  induction os with
  | nil => rfl
  | cons o os ih =>
    obtain ⟨x, y⟩ := o
    rw [expandedBinds, ih, List.flatMap_cons]

theorem Criterion.listBinds_eq_flatMap (cs : List Criterion) :
    listBinds σ cs = cs.flatMap (binds σ) := by
  induction cs with
  | nil => rfl
  | cons c cs ih => rw [listBinds, ih, List.flatMap_cons]

theorem Join.listBinds_eq_flatMap (js : List Join) : listBinds σ js = js.flatMap (binds σ) := by
  induction js with
  | nil => rfl
  | cons j js ih => rw [listBinds, ih, List.flatMap_cons]

theorem SelectItem.listBinds_eq_flatMap (is : List SelectItem) :
    listBinds σ is = is.flatMap (binds σ) := by
  induction is with
  | nil => rfl
  | cons i is ih => rw [listBinds, ih, List.flatMap_cons]

/-- The options of a select play no part. -/
theorem Select.binds_eq (s : Select) : s.binds σ =
    s.projection.binds σ ++ Join.listBinds σ s.joins ++ Criterion.listBinds σ s.filter := by
  cases s with
  | mk target joins filter projection distinct orderBy offset limit lock options => rw [binds]

end

end SqlCompose
