import SqlCompose.Proofs.Portability.Filters

/-! Filter programs without the calls that come to nothing because of what they are given. Erasing
them changes no criterion, and what is left adds one wherever it is not an empty reusable filter. -/

namespace SqlCompose

namespace FilterCall

/-- A comparison or a LIKE with an absent side. -/
def isAbsent : FilterCall → Bool
  | .compare _ left right => left.isNone || right.isNone
  | .like _ _ fragments => fragments.any (·.text.isNone)
  | _ => false

def isGroup : FilterCall → Bool
  | .all _ => true
  | .any _ => true
  | .not _ => true
  | _ => false

/-- A group of calls, unless there are none. -/
def keep (node : List FilterCall → FilterCall) (calls : List FilterCall) : List FilterCall :=
  if calls.isEmpty then [] else [node calls]

mutual

/-- The call without what is absent in it, unless nothing is left. -/
def erase : FilterCall → List FilterCall
  | .all calls => keep .all (eraseAll calls)
  | .any calls => keep .any (eraseAll calls)
  | .not calls => keep .not (eraseAll calls)
  | call => if call.isAbsent then [] else [call]

def eraseAll : List FilterCall → List FilterCall
  | [] => []
  | call :: calls => call.erase ++ eraseAll calls

end

mutual

/-- The calls that are no groups, at any depth. -/
def leaves : FilterCall → List FilterCall
  | .all calls => leavesAll calls
  | .any calls => leavesAll calls
  | .not calls => leavesAll calls
  | call => [call]

def leavesAll : List FilterCall → List FilterCall
  | [] => []
  | call :: calls => call.leaves ++ leavesAll calls

end

theorem eraseAll_eq_flatMap (calls : List FilterCall) : eraseAll calls = calls.flatMap erase := by
  induction calls with
  | nil => rfl
  | cons call calls ih => rw [eraseAll, ih, List.flatMap_cons]

theorem leavesAll_eq_flatMap (calls : List FilterCall) : leavesAll calls = calls.flatMap leaves := by
  induction calls with
  | nil => rfl
  | cons call calls ih => rw [leavesAll, ih, List.flatMap_cons]

@[elab_as_elim]
theorem groupInduction {motive : FilterCall → Prop}
    (leaf : ∀ call, call.isGroup = false → motive call)
    (all : ∀ calls, (∀ c ∈ calls, motive c) → motive (.all calls))
    (any : ∀ calls, (∀ c ∈ calls, motive c) → motive (.any calls))
    (not : ∀ calls, (∀ c ∈ calls, motive c) → motive (.not calls)) : ∀ call, motive call
  | .all calls => all calls fun c _ => groupInduction leaf all any not c
  | .any calls => any calls fun c _ => groupInduction leaf all any not c
  | .not calls => not calls fun c _ => groupInduction leaf all any not c
  | .compare op left right => leaf (.compare op left right) rfl
  | .isNull negated column => leaf (.isNull negated column) rfl
  | .like negated column fragments => leaf (.like negated column fragments) rfl
  | .between negated column low high => leaf (.between negated column low high) rfl
  | .inList negated column values => leaf (.inList negated column values) rfl
  | .inSubQuery negated column query => leaf (.inSubQuery negated column query) rfl
  | .pairInList negated first second values => leaf (.pairInList negated first second values) rfl
  | .pairInSubQuery negated first second query =>
    leaf (.pairInSubQuery negated first second query) rfl
  | .exists negated query => leaf (.exists negated query) rfl
  | .extend criteria => leaf (.extend criteria) rfl
  | .push criterion => leaf (.push criterion) rfl
termination_by call => sizeOf call
decreasing_by
  all_goals
    have hc := List.sizeOf_lt_of_mem ‹_ ∈ _›
    simp only [FilterCall.all.sizeOf_spec, FilterCall.any.sizeOf_spec, FilterCall.not.sizeOf_spec]
    omega

theorem erase_leaf {call : FilterCall} (h : call.isGroup = false) :
    call.erase = if call.isAbsent then [] else [call] := by
  cases call with
  | all calls => cases h
  | any calls => cases h
  | not calls => cases h
  | _ => rfl

theorem leaves_leaf {call : FilterCall} (h : call.isGroup = false) : call.leaves = [call] := by
  cases call with
  | all calls => cases h
  | any calls => cases h
  | not calls => cases h
  | _ => rfl

theorem isNone_pattern? (fragments : List Fragment) :
    (Fragment.pattern? fragments).isNone = fragments.any (·.text.isNone) := by
  induction fragments with
  | nil => rfl
  | cons f fragments ih =>
    rw [List.any_cons, ← ih, Fragment.pattern?, List.mapM_cons, ← Fragment.pattern?]
    cases f.text with
    | none => rfl
    | some text => cases Fragment.pattern? fragments <;> rfl

theorem criteria_of_absent {call : FilterCall} (h : call.isAbsent = true) : call.criteria = [] := by
  cases call with
  | compare op left right =>
    cases left with
    | none => rfl
    | some l =>
      cases right with
      | none => rfl
      | some r => simp [isAbsent] at h
  | like negated column fragments =>
    have hnone : Fragment.pattern? fragments = none := by
      rw [← Option.isNone_iff_eq_none, isNone_pattern?]
      exact h
    rw [criteria, hnone]
  | _ => simp [isAbsent] at h

theorem run_singleton (call : FilterCall) : run [call] = call.criteria := by
  rw [run, run, List.append_nil]

theorem run_keep {node : List FilterCall → FilterCall} {join : List Criterion → Criterion}
    (hnode : ∀ calls, (node calls).criteria = group join (run calls)) (calls : List FilterCall) :
    run (keep node calls) = group join (run calls) := by
  cases calls with
  | nil => rfl
  | cons call calls => rw [keep, if_neg (by simp), run_singleton, hnode]

theorem run_eraseAll_of {calls : List FilterCall} (h : ∀ c ∈ calls, run c.erase = c.criteria) :
    run (eraseAll calls) = run calls := by
  rw [eraseAll_eq_flatMap, run_eq_flatMap, run_eq_flatMap, List.flatMap_assoc]
  exact List.flatMap_congr fun c hc => run_eq_flatMap c.erase ▸ h c hc

theorem run_erase (call : FilterCall) : run call.erase = call.criteria := by
  induction call using groupInduction with
  | leaf call h =>
    rw [erase_leaf h]
    by_cases habsent : call.isAbsent = true
    · rw [if_pos habsent, criteria_of_absent habsent, run]
    · rw [if_neg habsent, run_singleton]
  | all calls ih => rw [erase, run_keep (fun _ => rfl), run_eraseAll_of ih, criteria]
  | any calls ih => rw [erase, run_keep (fun _ => rfl), run_eraseAll_of ih, criteria]
  | not calls ih => rw [erase, run_keep (fun _ => rfl), run_eraseAll_of ih, criteria]

theorem run_eraseAll (calls : List FilterCall) : run (eraseAll calls) = run calls :=
  run_eraseAll_of fun c _ => run_erase c

/-- Nothing is absent in the call, and it is no group without calls. -/
inductive Whole : FilterCall → Prop where
  | leaf {call : FilterCall} (hgroup : call.isGroup = false) (habsent : call.isAbsent = false) :
      Whole call
  | all {calls : List FilterCall} (hne : calls ≠ []) (h : ∀ c ∈ calls, c.Whole) : Whole (.all calls)
  | any {calls : List FilterCall} (hne : calls ≠ []) (h : ∀ c ∈ calls, c.Whole) : Whole (.any calls)
  | not {calls : List FilterCall} (hne : calls ≠ []) (h : ∀ c ∈ calls, c.Whole) : Whole (.not calls)

theorem whole_keep {node : List FilterCall → FilterCall} {calls : List FilterCall}
    (h : calls ≠ [] → (node calls).Whole) : ∀ c ∈ keep node calls, c.Whole := by
  cases calls with
  | nil => exact fun c hc => by cases hc
  | cons call calls =>
    rw [keep, if_neg (by simp)]
    exact List.forall_mem_singleton.mpr (h (List.cons_ne_nil call calls))

theorem whole_eraseAll_of {calls : List FilterCall} (h : ∀ c ∈ calls, ∀ e ∈ c.erase, e.Whole) :
    ∀ e ∈ eraseAll calls, e.Whole := by
  intro e he
  rw [eraseAll_eq_flatMap] at he
  obtain ⟨c, hc, he⟩ := List.mem_flatMap.mp he
  exact h c hc e he

theorem whole_erase (call : FilterCall) : ∀ e ∈ call.erase, e.Whole := by
  induction call using groupInduction with
  | leaf call h =>
    rw [erase_leaf h]
    by_cases habsent : call.isAbsent = true
    · simp [habsent]
    · rw [if_neg habsent]
      exact List.forall_mem_singleton.mpr (.leaf h (Bool.not_eq_true _ ▸ habsent))
  | all calls ih => exact whole_keep fun hne => .all hne (whole_eraseAll_of ih)
  | any calls ih => exact whole_keep fun hne => .any hne (whole_eraseAll_of ih)
  | not calls ih => exact whole_keep fun hne => .not hne (whole_eraseAll_of ih)

theorem whole_eraseAll (calls : List FilterCall) : ∀ e ∈ eraseAll calls, e.Whole :=
  whole_eraseAll_of fun c _ => whole_erase c

/-- Only a reusable filter can be whole and add nothing. -/
theorem criteria_eq_nil_iff_of_leaf {call : FilterCall} (hgroup : call.isGroup = false)
    (habsent : call.isAbsent = false) : call.criteria = [] ↔ call = .extend [] := by
  cases call with
  | compare op left right =>
    cases left with
    | none => simp [isAbsent] at habsent
    | some l =>
      cases right with
      | none => simp [isAbsent] at habsent
      | some r => simp [criteria]
  | like negated column fragments =>
    have hsome : (Fragment.pattern? fragments).isNone = false := by
      rw [isNone_pattern?]
      exact habsent
    cases hparts : Fragment.pattern? fragments with
    | none => simp [hparts] at hsome
    | some parts => simp [criteria, hparts]
  | all calls => cases hgroup
  | any calls => cases hgroup
  | not calls => cases hgroup
  | _ => simp [criteria]

theorem group_eq_nil_iff {node : List Criterion → Criterion} {cs : List Criterion} :
    group node cs = [] ↔ cs = [] := by
  cases cs <;> simp [group]

theorem run_eq_nil_iff_of {calls : List FilterCall}
    (h : ∀ c ∈ calls, (c.criteria = [] ↔ ∀ leaf ∈ c.leaves, leaf = .extend [])) :
    run calls = [] ↔ ∀ leaf ∈ leavesAll calls, leaf = .extend [] := by
  rw [run_eq_flatMap, leavesAll_eq_flatMap, List.flatMap_eq_nil_iff, List.forall_mem_flatMap]
  exact forall₂_congr h

theorem Whole.criteria_eq_nil_iff {call : FilterCall} (h : call.Whole) :
    call.criteria = [] ↔ ∀ leaf ∈ call.leaves, leaf = .extend [] := by
  induction h with
  | leaf hgroup habsent =>
    rw [criteria_eq_nil_iff_of_leaf hgroup habsent, leaves_leaf hgroup, List.forall_mem_singleton]
  | all hne h ih => rw [criteria, group_eq_nil_iff, run_eq_nil_iff_of ih, leaves]
  | any hne h ih => rw [criteria, group_eq_nil_iff, run_eq_nil_iff_of ih, leaves]
  | not hne h ih => rw [criteria, group_eq_nil_iff, run_eq_nil_iff_of ih, leaves]

/-- A program adds nothing when all that erasing leaves are empty reusable filters. -/
theorem run_eq_nil_iff (calls : List FilterCall) :
    run calls = [] ↔ ∀ leaf ∈ leavesAll (eraseAll calls), leaf = .extend [] := by
  rw [← run_eraseAll calls]
  exact run_eq_nil_iff_of fun c hc => (whole_eraseAll calls c hc).criteria_eq_nil_iff

end FilterCall

end SqlCompose
