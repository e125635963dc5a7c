import SqlCompose.Proofs.Conditions.PairLists
import SqlCompose.Proofs.Query.Nesting
import SqlCompose.Query.Filter

/-! Criteria that calls on a filter give. A prebuilt criterion may be anything. All other calls look
for pairs of columns only, and only among pairs of values. -/

namespace SqlCompose

/-- No call pushes a prebuilt criterion, also not where a reusable filter was made. -/
inductive FilterCall.Pushless : FilterCall → Prop where
  | compare (op : Comparison) (left right : Option Operand) : Pushless (.compare op left right)
  | isNull (negated : Bool) (column : Column) : Pushless (.isNull negated column)
  | like (negated : Bool) (column : Column) (fragments : List Fragment) :
      Pushless (.like negated column fragments)
  | between (negated : Bool) (column : Column) (low high : Value) :
      Pushless (.between negated column low high)
  | inList (negated : Bool) (column : Column) (values : List Value) :
      Pushless (.inList negated column values)
  | inSubQuery (negated : Bool) (column : Column) (query : SubQuery) :
      Pushless (.inSubQuery negated column query)
  | pairInList (negated : Bool) (first second : Column) (values : List (Value × Value)) :
      Pushless (.pairInList negated first second values)
  | pairInSubQuery (negated : Bool) (first second : Column) (query : SubQuery) :
      Pushless (.pairInSubQuery negated first second query)
  | exists (negated : Bool) (query : SubQuery) : Pushless (.exists negated query)
  | all {calls : List FilterCall} (h : ∀ c ∈ calls, c.Pushless) : Pushless (.all calls)
  | any {calls : List FilterCall} (h : ∀ c ∈ calls, c.Pushless) : Pushless (.any calls)
  | not {calls : List FilterCall} (h : ∀ c ∈ calls, c.Pushless) : Pushless (.not calls)
  | extend {calls : List FilterCall} (h : ∀ c ∈ calls, c.Pushless) :
      Pushless (.extend (FilterCall.run calls))

/-- The criteria that calls without prebuilt criteria give. -/
def Criterion.Called (cs : List Criterion) : Prop :=
  ∃ calls, (∀ c ∈ calls, FilterCall.Pushless c) ∧ FilterCall.run calls = cs

def Select.Called (s : Select) : Prop :=
  Criterion.Called s.filter ∧ ∀ j ∈ s.joins, Criterion.Called j.on

namespace Criterion

/-- What is looked for in a list of pairs is a pair of columns, and the list is one of values. -/
inductive PairsColumns : Criterion → Prop where
  | compare (op : Comparison) (left right : Operand) : PairsColumns (.compare op left right)
  | isNull (negated : Bool) (o : Operand) : PairsColumns (.isNull negated o)
  | like (negated : Bool) (o pattern : Operand) (option : LikeOption) :
      PairsColumns (.like negated o pattern option)
  | between (negated : Bool) (o low high : Operand) : PairsColumns (.between negated o low high)
  | inList (negated : Bool) (o : Operand) (values : List Operand) :
      PairsColumns (.inList negated o values)
  | inSubQuery (negated : Bool) (o : Operand) (query : SubQuery) :
      PairsColumns (.inSubQuery negated o query)
  | pairInList (negated : Bool) {pair : OperandPair} (h : pair.IsColumns) (xs : List (Bound × Bound)) :
      PairsColumns (.pairInList negated pair (xs.map .parameters))
  | pairInSubQuery (negated : Bool) (pair : OperandPair) (query : SubQuery) :
      PairsColumns (.pairInSubQuery negated pair query)
  | exists (negated : Bool) (query : SubQuery) : PairsColumns (.exists negated query)
  | all {cs : List Criterion} (h : ∀ c ∈ cs, c.PairsColumns) : PairsColumns (.all cs)
  | any {cs : List Criterion} (h : ∀ c ∈ cs, c.PairsColumns) : PairsColumns (.any cs)
  | not {cs : List Criterion} (h : ∀ c ∈ cs, c.PairsColumns) : PairsColumns (.not cs)

end Criterion

namespace FilterCall

theorem run_eq_flatMap (calls : List FilterCall) : run calls = calls.flatMap criteria := by
  induction calls with
  | nil => rfl
  | cons call calls ih => rw [run, ih, List.flatMap_cons]

theorem forall_mem_run {P : Criterion → Prop} {calls : List FilterCall}
    (h : ∀ call ∈ calls, ∀ c ∈ call.criteria, P c) : ∀ c ∈ run calls, P c := by
  intro c hc
  rw [run_eq_flatMap] at hc
  obtain ⟨call, hcall, hc⟩ := List.mem_flatMap.mp hc
  exact h call hcall c hc

theorem forall_mem_group {P : Criterion → Prop} {node : List Criterion → Criterion}
    {criteria : List Criterion} (h : P (node criteria)) : ∀ c ∈ group node criteria, P c := by
  intro c hc
  unfold group at hc
  by_cases hempty : criteria.isEmpty = true
  · simp [hempty] at hc
  · simp only [hempty, Bool.false_eq_true, if_false, List.mem_singleton] at hc
    exact hc ▸ h

theorem Pushless.pairsColumns {call : FilterCall} (h : call.Pushless) :
    ∀ c ∈ call.criteria, c.PairsColumns := by
  induction h with
  | compare op left right =>
    cases left with
    | none => simp [criteria]
    | some l =>
      cases right with
      | none => simp [criteria]
      | some r => exact List.forall_mem_singleton.mpr (.compare op l r)
  | isNull negated column => exact List.forall_mem_singleton.mpr (.isNull negated _)
  | like negated column fragments =>
    rw [criteria]
    cases hparts : Fragment.pattern? fragments with
    | none => simp
    | some parts =>
      refine List.forall_mem_singleton.mpr ?_
      cases parts with
      | nil => exact .like negated _ _ _
      | cons part rest => cases rest <;> exact .like negated _ _ _
  | between negated column low high => exact List.forall_mem_singleton.mpr (.between negated _ _ _)
  | inList negated column values => exact List.forall_mem_singleton.mpr (.inList negated _ _)
  | inSubQuery negated column query =>
    exact List.forall_mem_singleton.mpr (.inSubQuery negated _ query)
  | pairInList negated first second values =>
    -- the call pairs each value with the type of its column, which makes parameters of both
    have hcriteria : (FilterCall.pairInList negated first second values).criteria =
        [.pairInList negated ⟨.column first, .column second⟩
          ((values.map fun x => (⟨x.1, first.type⟩, ⟨x.2, second.type⟩)).map .parameters)] := by
      rw [List.map_map]
      rfl
    have hpair : OperandPair.IsColumns ⟨.column first, .column second⟩ := ⟨trivial, trivial⟩
    rw [hcriteria]
    exact List.forall_mem_singleton.mpr (.pairInList negated hpair _)
  | pairInSubQuery negated first second query =>
    exact List.forall_mem_singleton.mpr (.pairInSubQuery negated _ query)
  | «exists» negated query => exact List.forall_mem_singleton.mpr (.exists negated query)
  | all _ ih => exact forall_mem_group (.all (forall_mem_run ih))
  | any _ ih => exact forall_mem_group (.any (forall_mem_run ih))
  | not _ ih => exact forall_mem_group (.not (forall_mem_run ih))
  | extend _ ih => exact forall_mem_run ih

end FilterCall

theorem Criterion.Called.pairsColumns {cs : List Criterion} (h : Called cs) :
    ∀ c ∈ cs, c.PairsColumns := by
  obtain ⟨calls, hcalls, rfl⟩ := h
  exact FilterCall.forall_mem_run fun call hcall => (hcalls call hcall).pairsColumns

end SqlCompose
