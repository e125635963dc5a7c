import SqlCompose.Proofs.Query.Coherence
import SqlCompose.Proofs.Query.Written

/-! The operands that a query needs to find, at each level, and the tables that can be seen from where
they stand. What is looked for in an empty list is not needed, since nothing is found there. -/

namespace SqlCompose

namespace Criterion

mutual

/-- The operands of the criterion but for those beside an empty list. -/
def written : Criterion → List Operand
  | .compare _ l r => [l, r]
  | .isNull _ o => [o]
  | .like _ o p _ => [o, p]
  | .between _ o low high => [o, low, high]
  | .inList _ o values => if values.isEmpty then [] else o :: values
  | .inSubQuery _ o query => [o, .subQuery query]
  | .pairInList _ pair values =>
    if values.isEmpty then [] else pair.operands ++ values.flatMap OperandPair.operands
  | .pairInSubQuery _ pair query => pair.operands ++ [.subQuery query]
  | .exists _ query => [.subQuery query]
  | .all children => listWritten children
  | .any children => listWritten children
  | .not children => listWritten children

def listWritten : List Criterion → List Operand
  | [] => []
  | c :: cs => c.written ++ listWritten cs

end

theorem listWritten_eq_flatMap (cs : List Criterion) : listWritten cs = cs.flatMap written := by
  induction cs with
  | nil => rfl
  | cons c cs ih => rw [listWritten, ih, List.flatMap_cons]

theorem written_all (cs : List Criterion) : (all cs).written = cs.flatMap written :=
  listWritten_eq_flatMap cs

theorem written_any (cs : List Criterion) : (any cs).written = cs.flatMap written :=
  listWritten_eq_flatMap cs

theorem written_not (cs : List Criterion) : (Criterion.not cs).written = cs.flatMap written :=
  listWritten_eq_flatMap cs

theorem flatMap_written_subset {cs : List Criterion} (h : ∀ c ∈ cs, c.written ⊆ c.operands) :
    cs.flatMap written ⊆ cs.flatMap operands := by
  intro o ho
  obtain ⟨c, hc, ho⟩ := List.mem_flatMap.mp ho
  exact List.mem_flatMap.mpr ⟨c, hc, h c hc ho⟩

theorem written_subset (c : Criterion) : c.written ⊆ c.operands := by
  induction c with
  | inList negated o values =>
    rw [written]
    by_cases hnil : values.isEmpty = true
    · rw [if_pos hnil]
      exact List.nil_subset _
    · rw [if_neg hnil]
      exact List.Subset.refl _
  | pairInList negated pair values =>
    rw [written]
    by_cases hnil : values.isEmpty = true
    · rw [if_pos hnil]
      exact List.nil_subset _
    · rw [if_neg hnil]
      exact List.Subset.refl _
  | all cs ih => rw [written_all, operands_all]; exact flatMap_written_subset ih
  | any cs ih => rw [written_any, operands_any]; exact flatMap_written_subset ih
  | not cs ih => rw [written_not, operands_not]; exact flatMap_written_subset ih
  | _ => exact List.Subset.refl _

theorem subQuery_mem_written {c : Criterion} {q : SubQuery} (h : q ∈ c.ownSubQueries) :
    .subQuery q ∈ c.written := by
  have hoperands : ∀ {c : Criterion}, q ∈ c.subQueries → .subQuery q ∈ c.operands := fun {c} h =>
    Operand.mem_flatMap_subQueries_iff.mp (c.subQueries_eq ▸ h)
  cases c with
  | inList negated o values =>
    cases values with
    | nil => exact absurd h List.not_mem_nil
    | cons v vs => exact hoperands (c := inList negated o (v :: vs)) h
  | pairInList negated pair values =>
    cases values with
    | nil => exact absurd h List.not_mem_nil
    | cons v vs => exact hoperands (c := pairInList negated pair (v :: vs)) h
  | all cs => exact absurd h List.not_mem_nil
  | any cs => exact absurd h List.not_mem_nil
  | not cs => exact absurd h List.not_mem_nil
  | _ => exact hoperands h

end Criterion

/-- The column that is assigned to counts as well. -/
def Assignment.references (a : Assignment) : List Operand :=
  .column a.column :: match a.value with
    | .operand o => [o]
    | .incoming c => [.column c]

theorem Assignment.mem_operands_of_references {a : Assignment} {r : SubQuery}
    (h : .subQuery r ∈ a.references) : .subQuery r ∈ a.operands := by
  obtain ⟨column, value⟩ := a
  cases value with
  | operand o => simpa [references, operands] using h
  | incoming c => simp [references] at h

namespace Select

/-- Like the operands of the level, but for those beside an empty list. -/
def written (s : Select) : List Operand :=
  s.projection.operands s.target ++ s.criteria.flatMap Criterion.written ++
    s.orderBy.map fun i => .column i.column

theorem written_subset (s : Select) : s.written ⊆ s.operands := by
  have hcriteria : s.criteria.flatMap Criterion.written ⊆ s.criteria.flatMap Criterion.operands :=
    Criterion.flatMap_written_subset fun c _ => c.written_subset
  intro o ho
  simp only [written, operands, List.mem_append] at ho ⊢
  exact ho.imp_left (Or.imp_right fun h => hcriteria h)

theorem mem_written_filterBy {s : Select} {cs : List Criterion} {o : Operand} :
    o ∈ (s.filterBy cs).written ↔ o ∈ s.written ∨ o ∈ cs.flatMap Criterion.written := by
  simp only [written, filterBy, criteria, List.flatMap_append, List.mem_append]
  tauto

end Select

/-- The operand stands among these operands or, at any depth, among those of a sub-query among them.
Beside the operands are the tables of their level and of those around it, from the inside out, and
first the ones that the operand itself sees. -/
inductive Operand.Stands (x : Operand) (seen : List (List Table)) :
    List (List Table) → List Operand → Prop where
  | here {os : List Operand} (h : x ∈ os) : x.Stands seen seen os
  | inside {levels : List (List Table)} {os : List Operand} {r : SubQuery} (hr : .subQuery r ∈ os)
      (h : x.Stands seen (r.select.tables :: levels) r.select.written) : x.Stands seen levels os

/-- The operand is a column of a table that no level introduces. An outer column is not looked up at
the first of the levels. -/
def Operand.Unseen (levels : List (List Table)) : Operand → Prop
  | .column c => ∀ tables ∈ levels, c.table ∉ tables
  | .outer c => ∀ tables ∈ levels.tail, c.table ∉ tables
  | _ => False

namespace Query

/-- What the outermost level of a select, update or delete needs to find. -/
def written : Query → List Operand
  | .select s => s.written
  | .update q => q.assignments.flatMap Assignment.references ++ q.filter.flatMap Criterion.written
  | .delete q => q.filter.flatMap Criterion.written
  | .insert _ _ => []

theorem mem_subQueries_of_written {q : Query} {r : SubQuery} (h : .subQuery r ∈ q.written) :
    r ∈ q.subQueries := by
  refine mem_subQueries_of_operand ?_
  cases q with
  | select s => exact s.written_subset h
  | update q =>
    rcases List.mem_append.mp h with h | h
    · obtain ⟨a, ha, h⟩ := List.mem_flatMap.mp h
      exact List.mem_append_left _ (List.mem_flatMap.mpr ⟨a, ha, Assignment.mem_operands_of_references h⟩)
    · exact List.mem_append_right _
        (Criterion.flatMap_written_subset (fun c _ => c.written_subset) h)
  | delete q => exact Criterion.flatMap_written_subset (fun c _ => c.written_subset) h
  | insert draft rows => cases h

end Query

end SqlCompose
