import Mathlib.Data.List.Nodup
import SqlCompose.Build
import SqlCompose.Proofs.Query.Operands
import SqlCompose.Proofs.Scope.Registration

/-! Queries in which a number names one sub-query. Mentions of one number are mentions of one shared
sub-query, so that they need not be compared any further. -/

namespace SqlCompose

/-- Sub-queries with one number are one sub-query. -/
def SubQuery.Coherent (qs : List SubQuery) : Prop :=
  ∀ q ∈ qs, ∀ r ∈ qs, q.id = r.id → q.select = r.select

theorem SubQuery.Coherent.of_nodup {qs : List SubQuery} (h : (qs.map (·.id)).Nodup) :
    Coherent qs := fun _ hq _ hr hid =>
  congrArg SubQuery.select (List.inj_on_of_nodup_map h hq hr hid)

/-- At each level the mentions of one number are mentions of one sub-query. -/
abbrev Select.Coherent (s : Select) : Prop := s.Everywhere fun s => SubQuery.Coherent s.subQueries

namespace Query

/-- The tables of the outermost level. -/
def tables : Query → List Table
  | .select q => q.tables
  | .update q => [q.target]
  | .delete q => [q.target]
  | .insert draft _ => [draft.query.target]

/-- The operands of the outermost level. -/
def operands : Query → List Operand
  | .select q => q.operands
  | .update q => q.operands
  | .delete q => q.operands
  | .insert draft _ => draft.query.operands

/-- The levels of the query with their aliases. -/
def scope : Query → ScopeTree
  | .select q => .ofSelect q
  | .update q => .ofTarget q.target q.subQueries
  | .delete q => .ofTarget q.target q.subQueries
  | .insert draft _ => .ofTarget draft.query.target draft.query.subQueries

theorem scope_eq_grow (q : Query) : q.scope = (ScopeTree.grow q.tables q.subQueries []).1 := by
  cases q with
  | select q => exact ScopeTree.ofSelect_eq_grow q
  | update q => exact ScopeTree.ofTarget_eq_grow _ _
  | delete q => exact ScopeTree.ofTarget_eq_grow _ _
  | insert draft rows => exact ScopeTree.ofTarget_eq_grow _ _

/-- Mentions of one number at one level, the outermost or a nested one, are mentions of one
sub-query. -/
structure Coherent (q : Query) : Prop where
  here : SubQuery.Coherent q.subQueries
  inside : ∀ r ∈ q.subQueries, r.select.Coherent

theorem mem_subQueries_of_operand {q : Query} {r : SubQuery} (h : .subQuery r ∈ q.operands) :
    r ∈ q.subQueries := by
  have he : q.subQueries = q.operands.flatMap Operand.subQueries := by
    cases q with
    | select q => exact q.subQueries_eq
    | update q => exact q.subQueries_eq
    | delete q => exact q.subQueries_eq
    | insert draft rows => exact draft.query.subQueries_eq
  rw [he]
  exact Operand.mem_flatMap_subQueries_iff.mpr h

end Query

namespace Family

/-- Persons, each with the number of a parent. -/
def person (n : Nat) : Table :=
  ⟨n, .plain "person", none,
    [⟨.plain "id", .int, false, true, false⟩, ⟨.plain "parent", .int, true, false, false⟩,
      ⟨.plain "name", .text, false, false, false⟩]⟩

def number (n : Nat) : Column := ⟨person n, (0 : Fin 3)⟩

def parent (n : Nat) : Column := ⟨person n, (1 : Fin 3)⟩

def name (n : Nat) : Column := ⟨person n, (2 : Fin 3)⟩

/-- The children of person 0 of an enclosing level. -/
def children : SubQuery :=
  ⟨7, (Select.of (person 2)).filterBy [.compare .equal (.column (parent 2)) (.outer (number 0))]⟩

/-- The siblings of person 0 that stand by while person 0 has children. -/
def siblings : SubQuery :=
  ⟨8, (Select.of (person 3)).filterBy
    [.compare .equal (.column (parent 3)) (.column (parent 0)), .exists false children]⟩

/-- Persons and their parents, with the children asked for at two levels. -/
def households : Query :=
  .select (((Select.of (person 0)).join .inner (person 1)
    [.compare .equal (.column (number 1)) (.column (parent 0))]).filterBy
    [.exists false children, .exists true siblings])

theorem households_coherent : households.Coherent := by
  have hchildren : children.select.Coherent :=
    .intro (.of_nodup List.nodup_nil) fun q hq => absurd hq List.not_mem_nil
  have hsiblings : siblings.select.Coherent := by
    refine .intro (.of_nodup (List.nodup_singleton 7)) fun q hq => ?_
    rw [show q = children from List.mem_singleton.mp hq]
    exact hchildren
  refine ⟨.of_nodup (show [7, 8].Nodup by decide), fun q hq => ?_⟩
  have hq : q = children ∨ q = siblings := by
    simpa using show q ∈ [children, siblings] from hq
  rcases hq with rfl | rfl
  · exact hchildren
  · exact hsiblings

end Family

end SqlCompose
