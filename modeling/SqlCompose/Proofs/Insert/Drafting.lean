import Mathlib.Data.List.DropRight
import SqlCompose.Dialect.Catalog
import SqlCompose.Proofs.Query.Coherence
import SqlCompose.Proofs.Renaming.Building

/-! What calls make of an insert. A call is in place or out of place by the policy in force, the one
that was chosen last. The first call out of place refuses the insert for good. Without one the
insert is what its calls ask for: the keys of all calls, the policy in force, and the assignments
made since it was chosen. -/

namespace SqlCompose

namespace InsertCall

def policy? : InsertCall → Option ConflictPolicy
  | .onDuplicateKeyUpdate => some (.update .allColumns)
  | .onDuplicateKeyIgnore => some .ignore
  | _ => none

def key? : InsertCall → Option Column
  | .conflictKey column => some column
  | _ => none

def items? : InsertCall → Option (List Assignment)
  | .set items => some items
  | _ => none

def options? : InsertCall → Option QueryOptions
  | .options own => some own
  | _ => none

def asksReturning : InsertCall → Bool
  | .returning => true
  | _ => false

/-- The policy in force after the calls, as it was chosen. -/
def inForce? (calls : List InsertCall) : Option ConflictPolicy := (calls.filterMap policy?).getLast?

/-- The calls after the last choice of a policy. -/
def sinceChoice (calls : List InsertCall) : List InsertCall :=
  calls.rtakeWhile (·.policy?.isNone)

/-- A call that makes no sense after the calls before it, and the fault that it is. -/
inductive OutOfPlace (before : List InsertCall) : InsertCall → Misuse → Prop where
  | conflictKey (column : Column) (h : inForce? before = none) :
      OutOfPlace before (.conflictKey column) .conflictKeyWithoutPolicy
  | set (items : List Assignment) (h : inForce? before = none ∨ inForce? before = some .ignore) :
      OutOfPlace before (.set items) .setWithoutUpdatePolicy

def AllInPlace (calls : List InsertCall) : Prop :=
  ∀ before call after, calls = before ++ call :: after → ∀ fault, ¬OutOfPlace before call fault

/-- The fault of the first call out of place, whatever calls follow. -/
def FirstOutOfPlace (calls : List InsertCall) (fault : Misuse) : Prop :=
  ∃ before call after, calls = before ++ call :: after ∧ AllInPlace before ∧
    OutOfPlace before call fault

end InsertCall

/-- The assignments of calls one after the other. Without a call all columns are updated. -/
def UpdateSet.of : List (List Assignment) → UpdateSet
  | [] => .allColumns
  | sets => .assignments sets.flatten

namespace InsertQuery

open InsertCall

/-- What the calls say about a row that exists already. -/
def onConflict? (calls : List InsertCall) : Option OnConflict :=
  (inForce? calls).map fun
    | .ignore => ⟨calls.filterMap key?, .ignore⟩
    | .update _ => ⟨calls.filterMap key?, .update (.of ((sinceChoice calls).filterMap items?))⟩

def drafted (target : Table) (calls : List InsertCall) : InsertQuery :=
  ⟨target, onConflict? calls, calls.any asksReturning, (calls.filterMap options?).getLast?⟩

end InsertQuery

namespace InsertCall

variable {calls : List InsertCall} {call : InsertCall}

theorem inForce?_append_of_none (h : call.policy? = none) :
    inForce? (calls ++ [call]) = inForce? calls := by
  simp [inForce?, List.filterMap_append, h]

theorem inForce?_append_of_some {policy : ConflictPolicy} (h : call.policy? = some policy) :
    inForce? (calls ++ [call]) = some policy := by
  simp [inForce?, List.filterMap_append, h]

theorem sinceChoice_append_of_none (h : call.policy? = none) :
    sinceChoice (calls ++ [call]) = sinceChoice calls ++ [call] :=
  List.rtakeWhile_concat_pos _ _ _ (by simp [h])

theorem sinceChoice_append_of_some {policy : ConflictPolicy} (h : call.policy? = some policy) :
    sinceChoice (calls ++ [call]) = [] :=
  List.rtakeWhile_concat_neg _ _ _ (by simp [h])

theorem AllInPlace.nil : AllInPlace [] := by
  intro before call after h
  simp at h

theorem AllInPlace.of_append {more : List InsertCall} (h : AllInPlace (calls ++ more)) :
    AllInPlace calls := by
  intro before call after he fault
  exact h before call (after ++ more) (by rw [he, List.append_assoc, List.cons_append]) fault

theorem AllInPlace.last (h : AllInPlace (calls ++ [call])) (fault : Misuse) :
    ¬OutOfPlace calls call fault := h calls call [] rfl fault

theorem AllInPlace.append (h : AllInPlace calls) (hcall : ∀ fault, ¬OutOfPlace calls call fault) :
    AllInPlace (calls ++ [call]) := by
  intro before c after he fault
  -- the call in question is the new one, or it stands before it
  rcases List.eq_nil_or_concat after with rfl | ⟨rest, last, rfl⟩
  · obtain ⟨rfl, hc⟩ := List.append_inj' he rfl
    obtain rfl : call = c := by simpa using hc
    exact hcall fault
  · have hsplit : calls ++ [call] = (before ++ c :: rest) ++ [last] := by simpa using he
    obtain ⟨rfl, _⟩ := List.append_inj' hsplit rfl
    exact h before c rest rfl fault

theorem allInPlace_or_first (calls : List InsertCall) :
    AllInPlace calls ∨ ∃ fault, FirstOutOfPlace calls fault := by
  induction calls using List.reverseRecOn with
  | nil => exact .inl .nil
  | append_singleton calls call ih =>
    rcases ih with hall | ⟨fault, before, first, after, rfl, hbefore, hfirst⟩
    · by_cases hcall : ∃ fault, OutOfPlace calls call fault
      · obtain ⟨fault, hfault⟩ := hcall
        exact .inr ⟨fault, calls, call, [], rfl, hall, hfault⟩
      · exact .inl (hall.append fun fault hfault => hcall ⟨fault, hfault⟩)
    · -- whatever is called next, the first call out of place stays the first
      have he : before ++ first :: after ++ [call] = before ++ first :: (after ++ [call]) := by simp
      exact .inr ⟨fault, before, first, after ++ [call], he, hbefore, hfirst⟩

/-- A key is in place only after a policy. -/
theorem AllInPlace.keys_eq_nil (h : AllInPlace calls) (hforce : inForce? calls = none) :
    calls.filterMap key? = [] := by
  induction calls using List.reverseRecOn with
  | nil => rfl
  | append_singleton calls call ih =>
    cases hpolicy : call.policy? with
    | some policy => simp [inForce?_append_of_some hpolicy] at hforce
    | none =>
      have hbefore : inForce? calls = none := by rwa [inForce?_append_of_none hpolicy] at hforce
      rw [List.filterMap_append, ih h.of_append hbefore]
      cases call with
      | conflictKey column => exact absurd (.conflictKey column hbefore) (h.last _)
      | _ => rfl

end InsertCall

theorem UpdateSet.of_append (sets : List (List Assignment)) (items : List Assignment) :
    UpdateSet.of (sets ++ [items]) =
      match UpdateSet.of sets with
      | .allColumns => .assignments items
      | .assignments known => .assignments (known ++ items) := by
  cases sets with
  | nil => simp [of]
  | cons set sets => simp [of]

namespace InsertQuery

open InsertCall

variable {calls : List InsertCall} {call : InsertCall}

/-- A choice starts anew but for the keys. -/
theorem onConflict?_append_choice (calls : List InsertCall) (call : InsertCall)
    {policy : ConflictPolicy} (h : call.policy? = some policy) :
    onConflict? (calls ++ [call]) = some ⟨calls.filterMap key?, policy⟩ := by
  cases call with
  | onDuplicateKeyUpdate =>
    obtain rfl : _ = policy := Option.some.inj h
    simp [onConflict?, inForce?_append_of_some h, sinceChoice_append_of_some h,
      List.filterMap_append, key?, UpdateSet.of]
  | onDuplicateKeyIgnore =>
    obtain rfl : _ = policy := Option.some.inj h
    simp [onConflict?, inForce?_append_of_some h, List.filterMap_append, key?]
  | _ => cases h

theorem onConflict?_append_of_quiet (calls : List InsertCall) (call : InsertCall)
    (hpolicy : call.policy? = none) (hkey : call.key? = none) (hitems : call.items? = none) :
    onConflict? (calls ++ [call]) = onConflict? calls := by
  simp [onConflict?, inForce?_append_of_none hpolicy, sinceChoice_append_of_none hpolicy,
    List.filterMap_append, hkey, hitems]

theorem onConflict?_append_key (calls : List InsertCall) (column : Column) :
    onConflict? (calls ++ [.conflictKey column]) =
      (onConflict? calls).map fun o => ⟨o.keys ++ [column], o.policy⟩ := by
  have hpolicy : (conflictKey column).policy? = none := rfl
  have hitems : (conflictKey column).items? = none := rfl
  rw [onConflict?, inForce?_append_of_none hpolicy, sinceChoice_append_of_none hpolicy, onConflict?,
    Option.map_map]
  congr 1
  funext policy
  cases policy <;> simp [List.filterMap_append, key?, hitems]

/-- A call of assignments in place goes on with those since the choice. -/
theorem onConflict?_append_set {set : UpdateSet} (h : inForce? calls = some (.update set))
    (items : List Assignment) :
    onConflict? (calls ++ [.set items]) =
      some ⟨calls.filterMap key?,
        .update (.of ((sinceChoice calls).filterMap items? ++ [items]))⟩ := by
  have hpolicy : (InsertCall.set items).policy? = none := rfl
  simp [onConflict?, inForce?_append_of_none hpolicy, sinceChoice_append_of_none hpolicy, h,
    List.filterMap_append, key?, items?]

end InsertQuery

namespace InsertDraft

open InsertCall InsertQuery

variable {target : Table} {calls : List InsertCall} {call : InsertCall} {fault : Misuse}

theorem run_append (target : Table) (calls more : List InsertCall) :
    run target (calls ++ more) = more.foldl step (run target calls) := List.foldl_append

theorem step_fault {draft : InsertDraft} (h : draft.fault = some fault) (call : InsertCall) :
    (draft.step call).fault = some fault := by
  have hblame : ∀ f, (draft.blame f).fault = some fault := fun f => by simp [blame, h]
  cases call with
  | conflictKey column =>
    simp only [step]
    cases draft.query.conflict with
    | some conflict => exact h
    | none => exact hblame _
  | set items =>
    simp only [step]
    split
    · exact h
    · exact h
    · exact hblame _
  | _ => exact h

theorem foldl_step_fault {draft : InsertDraft} (h : draft.fault = some fault)
    (calls : List InsertCall) : (calls.foldl step draft).fault = some fault := by
  induction calls generalizing draft with
  | nil => exact h
  | cons call calls ih => exact ih (step_fault h call)

/-- Keys are kept when a policy is chosen. Before the first choice there are none to keep. -/
theorem choose_drafted (h : AllInPlace calls) (policy : ConflictPolicy) :
    choose ⟨drafted target calls, none⟩ policy =
      ⟨{ drafted target calls with conflict := some ⟨calls.filterMap key?, policy⟩ }, none⟩ := by
  cases hforce : inForce? calls with
  | none =>
    have hkeys := h.keys_eq_nil hforce
    simp [choose, drafted, onConflict?, hforce, hkeys]
  | some known => cases known <;> simp [choose, drafted, onConflict?, hforce]

/-- A call in place adds to the insert what it asks for. -/
theorem step_drafted (h : AllInPlace (calls ++ [call])) :
    step ⟨drafted target calls, none⟩ call = ⟨drafted target (calls ++ [call]), none⟩ := by
  have hcalls := h.of_append
  cases call with
  | onDuplicateKeyUpdate =>
    have hconflict := onConflict?_append_choice calls .onDuplicateKeyUpdate rfl
    rw [step, choose_drafted hcalls]
    simp [drafted, hconflict, asksReturning, options?]
  | onDuplicateKeyIgnore =>
    have hconflict := onConflict?_append_choice calls .onDuplicateKeyIgnore rfl
    rw [step, choose_drafted hcalls]
    simp [drafted, hconflict, asksReturning, options?]
  | conflictKey column =>
    have hconflict := onConflict?_append_key calls column
    cases hknown : onConflict? calls with
    | none =>
      have hforce : inForce? calls = none := by simpa [onConflict?] using hknown
      exact absurd (.conflictKey column hforce) (h.last _)
    | some o => simp [step, drafted, hconflict, hknown, asksReturning, options?]
  | set items =>
    cases hforce : inForce? calls with
    | none => exact absurd (.set items (.inl hforce)) (h.last _)
    | some policy =>
      cases policy with
      | ignore => exact absurd (.set items (.inr hforce)) (h.last _)
      | update set =>
        -- the new assignments join those since the choice, of which there may be none
        have hconflict := onConflict?_append_set hforce items
        rw [UpdateSet.of_append] at hconflict
        have hknown : onConflict? calls = some ⟨calls.filterMap key?,
            .update (.of ((sinceChoice calls).filterMap items?))⟩ := by
          rw [onConflict?, hforce, Option.map_some]
        cases hset : UpdateSet.of ((sinceChoice calls).filterMap items?) <;>
          simp [step, drafted, hconflict, hknown, hset, asksReturning, options?]
  | returning =>
    have hconflict := onConflict?_append_of_quiet calls .returning rfl rfl rfl
    simp [step, drafted, hconflict, asksReturning, options?]
  | options own =>
    have hconflict := onConflict?_append_of_quiet calls (.options own) rfl rfl rfl
    simp [step, drafted, hconflict, asksReturning, options?]

theorem step_outOfPlace (h : OutOfPlace calls call fault) :
    (step ⟨drafted target calls, none⟩ call).fault = some fault := by
  cases h with
  | conflictKey column h => simp [step, drafted, onConflict?, h, blame]
  | set items h =>
    rcases h with h | h
    · simp [step, drafted, onConflict?, h, blame]
    · simp [step, drafted, onConflict?, h, blame]

theorem run_of_allInPlace (h : AllInPlace calls) :
    run target calls = ⟨drafted target calls, none⟩ := by
  -- what a call adds depends on all calls before it, so the last call is taken off
  induction calls using List.reverseRecOn with
  | nil => rfl
  | append_singleton calls call ih =>
    rw [run_append, ih h.of_append]
    exact step_drafted h

theorem run_fault_of_first (h : FirstOutOfPlace calls fault) :
    (run target calls).fault = some fault := by
  obtain ⟨before, call, after, rfl, hbefore, hcall⟩ := h
  rw [run_append, run_of_allInPlace hbefore, List.foldl_cons]
  exact foldl_step_fault (step_outOfPlace hcall) after

theorem run_fault_eq_none_iff (target : Table) {calls : List InsertCall} :
    (run target calls).fault = none ↔ AllInPlace calls := by
  constructor
  · intro h
    rcases allInPlace_or_first calls with hall | ⟨fault, hfirst⟩
    · exact hall
    · simp [run_fault_of_first hfirst] at h
  · intro h
    rw [run_of_allInPlace h]

end InsertDraft

theorem InsertCall.exists_first_iff {calls : List InsertCall} :
    (∃ fault, FirstOutOfPlace calls fault) ↔
      ∃ before call after fault, calls = before ++ call :: after ∧
        OutOfPlace before call fault := by
  constructor
  · rintro ⟨fault, before, call, after, he, _, hcall⟩
    exact ⟨before, call, after, fault, he, hcall⟩
  · rintro ⟨before, call, after, fault, he, hcall⟩
    rcases allInPlace_or_first calls with hall | hfirst
    · exact absurd hcall (hall before call after he fault)
    · exact hfirst

namespace Query

open InsertCall

variable {d : Dialect} {defaults : QueryOptions}

theorem build_eq_error_of_fault {draft : InsertDraft} {fault : Misuse}
    (h : draft.fault = some fault) (rows : Rows) :
    (insert draft rows).build d defaults = .error (.validation (.misuse fault)) := by
  have hfinish : draft.finish = .error (.validation (.misuse fault)) := by rw [InsertDraft.finish, h]
  rw [build, hfinish]
  rfl

/-- Calls that make an insert. If one of them is out of place, the first such call says what the
insert is refused with, whatever is called afterwards and however the rows are sent. Otherwise the
insert is what the calls ask for, and nothing that it may still be refused with is a fault of
calls. -/
theorem build_run (target : Table) (calls : List InsertCall) (rows : Rows) (d : Dialect)
    (defaults : QueryOptions) :
    (∀ fault, FirstOutOfPlace calls fault →
      (insert (.run target calls) rows).build d defaults = .error (.validation (.misuse fault))) ∧
    ((∃ fault, FirstOutOfPlace calls fault) ↔
      ∃ before call after fault, calls = before ++ call :: after ∧
        OutOfPlace before call fault) ∧
    (AllInPlace calls → InsertDraft.run target calls = ⟨.drafted target calls, none⟩ ∧
      ∀ e, (insert (.run target calls) rows).build d defaults = .error e → ¬e.Drafting) := by
  refine ⟨fun fault hfirst => ?_, exists_first_iff, fun hall => ?_⟩
  · exact build_eq_error_of_fault (InsertDraft.run_fault_of_first hfirst) rows
  · have hrun : InsertDraft.run target calls = ⟨.drafted target calls, none⟩ :=
      InsertDraft.run_of_allInPlace hall
    refine ⟨hrun, fun e he => ?_⟩
    rw [hrun] at he
    exact (InsertQuery.build_recomposed (.drafted target calls) Renaming.refl rows).not_drafting he

/-- Keys outlive a change of the policy and assignments do not. A call out of place is told of even
though a later call would have put it right. -/
theorem build_run_arrivals :
    InsertDraft.run (Family.person 0) [.onDuplicateKeyUpdate, .conflictKey (Family.number 0),
        .set [.setNull (Family.parent 0)], .onDuplicateKeyIgnore, .onDuplicateKeyUpdate,
        .set [.setIncoming (Family.name 0)], .conflictKey (Family.name 0),
        .set [.setIncoming (Family.parent 0)]] =
      ⟨⟨Family.person 0, some ⟨[Family.number 0, Family.name 0],
        .update (.assignments [.setIncoming (Family.name 0), .setIncoming (Family.parent 0)])⟩,
        false, none⟩, none⟩ ∧
    (insert (.run (Family.person 0) [.returning, .set [], .conflictKey (Family.number 0),
        .onDuplicateKeyUpdate]) (.multiple [])).build .postgres default =
      .error (.validation (.misuse .setWithoutUpdatePolicy)) := by
  have hplace : AllInPlace [.onDuplicateKeyUpdate, .conflictKey (Family.number 0),
      .set [.setNull (Family.parent 0)], .onDuplicateKeyIgnore, .onDuplicateKeyUpdate,
      .set [.setIncoming (Family.name 0)], .conflictKey (Family.name 0),
      .set [.setIncoming (Family.parent 0)]] :=
    (InsertDraft.run_fault_eq_none_iff (Family.person 0)).mp rfl
  have hfirst : FirstOutOfPlace [.returning, .set [], .conflictKey (Family.number 0),
      .onDuplicateKeyUpdate] .setWithoutUpdatePolicy := by
    refine ⟨[.returning], .set [], _, rfl, ?_, .set [] (.inl rfl)⟩
    exact AllInPlace.nil.append fun fault h => nomatch h
  constructor
  · exact ((build_run (Family.person 0) _ (.multiple []) .postgres default).2.2 hplace).1
  · exact (build_run (Family.person 0) _ (.multiple []) .postgres default).1 _ hfirst

end Query

end SqlCompose
