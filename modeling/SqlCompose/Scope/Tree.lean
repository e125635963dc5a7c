import SqlCompose.Query.Insert
import SqlCompose.Scope.Alias

/-! Query levels and the aliases of the tables that they introduce. Aliases are given before
anything is written: first to the tables of a level in their order, then to its sub-queries one
after the other, each with all that it contains. A sub-query mentioned twice at one level gets one
level below it, and one that two levels mention gets a level under each. -/

namespace SqlCompose

/-- The tables that a level introduces, each with its alias. -/
abbrev Level := List (Table × Identifier)

/-- A level and, by the number of the sub-query, the levels directly below it. -/
inductive ScopeTree where
  | node (level : Level) (children : List (Nat × ScopeTree))

namespace ScopeTree

def level : ScopeTree → Level
  | .node level _ => level

def children : ScopeTree → List (Nat × ScopeTree)
  | .node _ children => children

def child? (t : ScopeTree) (id : Nat) : Option ScopeTree := t.children.lookup id

end ScopeTree

namespace Level

/-- Gives aliases to the tables that the level does not hold yet. -/
def introduce : List Table → Level → List String → Level × List String
  | [], level, used => (level, used)
  | t :: ts, level, used =>
    if (level.lookup t).isSome then introduce ts level used
    else
      let (name, used) := Alias.next t.definition.name used
      introduce ts (level ++ [(t, name)]) used

end Level

/-- The levels below one level so far, and the lower-case names in use. -/
structure Registry where
  children : List (Nat × ScopeTree)
  used : List String

mutual

def Operand.register (r : Registry) : Operand → Registry
  | .subQuery query => query.register r
  | .column _ => r
  | .outer _ => r
  | .parameter _ => r
  | .pattern _ => r

def Operand.registerAll (r : Registry) : List Operand → Registry
  | [] => r
  | o :: os => Operand.registerAll (o.register r) os

def OperandPair.register (r : Registry) : OperandPair → Registry
  | ⟨first, second⟩ => second.register (first.register r)

def OperandPair.registerAll (r : Registry) : List OperandPair → Registry
  | [] => r
  | p :: ps => OperandPair.registerAll (p.register r) ps

def Criterion.register (r : Registry) : Criterion → Registry
  | .compare _ left right => right.register (left.register r)
  | .isNull _ o => o.register r
  | .like _ o p _ => p.register (o.register r)
  | .between _ o low high => high.register (low.register (o.register r))
  | .inList _ o values => Operand.registerAll (o.register r) values
  | .inSubQuery _ o query => query.register (o.register r)
  | .pairInList _ pair values => OperandPair.registerAll (pair.register r) values
  | .pairInSubQuery _ pair query => query.register (pair.register r)
  | .exists _ query => query.register r
  | .all children => Criterion.registerAll r children
  | .any children => Criterion.registerAll r children
  | .not children => Criterion.registerAll r children

def Criterion.registerAll (r : Registry) : List Criterion → Registry
  | [] => r
  | c :: cs => Criterion.registerAll (c.register r) cs

def Join.register (r : Registry) : Join → Registry
  | ⟨_, _, on⟩ => Criterion.registerAll r on

def Join.registerAll (r : Registry) : List Join → Registry
  | [] => r
  | j :: js => Join.registerAll (j.register r) js

def SelectItem.register (r : Registry) : SelectItem → Registry
  | .column _ => r
  | .aggregate _ => r
  | .subQuery query => query.register r

def SelectItem.registerAll (r : Registry) : List SelectItem → Registry
  | [] => r
  | i :: is => SelectItem.registerAll (i.register r) is

def Projection.register (r : Registry) : Projection → Registry
  | .allColumns => r
  | .explicit items => SelectItem.registerAll r items

/-- The level of a select with all levels below it, and the names in use after it. -/
def Select.scope (used : List String) : Select → ScopeTree × List String
  | { target, joins, filter, projection, .. } =>
    let (level, used) := Level.introduce (target :: joins.map (·.table)) [] used
    let r := projection.register ⟨[], used⟩
    let r := Join.registerAll r joins
    let r := Criterion.registerAll r filter
    (.node level r.children, r.used)

/-- Adds the level of a sub-query, unless it is there already. -/
def SubQuery.register (r : Registry) : SubQuery → Registry
  | ⟨id, select⟩ =>
    if (r.children.lookup id).isSome then r
    else
      let (tree, used) := select.scope r.used
      ⟨r.children ++ [(id, tree)], used⟩

end

namespace ScopeTree

/-- The levels of a statement that is a select. -/
def ofSelect (s : Select) : ScopeTree := (s.scope []).1

/-- The levels of a statement that writes to a table and uses these sub-queries. -/
def ofTarget (target : Table) (queries : List SubQuery) : ScopeTree :=
  let (level, used) := Level.introduce [target] [] []
  .node level (queries.foldl SubQuery.register ⟨[], used⟩).children

end ScopeTree

/-- A level within a statement, with the enclosing levels from the inside out. -/
structure Position where
  scope : ScopeTree
  outer : List Level

namespace Position

def root (t : ScopeTree) : Position := ⟨t, []⟩

/-- The position's own level and the enclosing ones. -/
def visible (p : Position) : List Level := p.scope.level :: p.outer

/-- The level of a sub-query that is mentioned here. -/
def enter? (p : Position) (id : Nat) : Option Position :=
  (p.scope.child? id).map fun child => ⟨child, p.visible⟩

end Position

namespace Level

/-- The alias that the nearest of the levels gives to the table. -/
def resolve? (levels : List Level) (t : Table) : Option Identifier :=
  levels.findSome? fun level => level.lookup t

end Level

end SqlCompose
