import SqlCompose.Proofs.Compose.Lockstep
import SqlCompose.Proofs.Query.Coherence
import SqlCompose.Proofs.Scope.Parents

/-! Building never asks for the level of a sub-query that has none. Two mentions of a number share one
level, so that they have to be mentions of one sub-query. -/

namespace SqlCompose

namespace Placed

variable {α β : Type}

theorem mapM {f : α → Except Error β} {xs : List α} (h : ∀ x ∈ xs, Placed (f x)) :
    Placed (xs.mapM f) := Lockstep.placed.mapM (g := f) h

theorem check {c : Prop} [Decidable c] {e : Error} {f : PUnit → Except Error α}
    {x : Except Error α} (he : e ≠ .validation .unregisteredSubQuery) (h : Placed x) :
    Placed (if c then throw e >>= f else x) := Lockstep.placed.check (g := f) (y := x) he h

end Placed

/-- The sub-queries are composed without missing a level, whatever width is asked of them. -/
abbrev SubQuery.AllPlaced (σ : Setting) (p : Position) (qs : List SubQuery) : Prop :=
  AllLockstep .placed σ σ.dialect.conflict p p qs

open SubQuery (AllPlaced)

theorem SubQuery.allPlaced_grow {σ : Setting} {qs : List SubQuery} (hco : Coherent qs)
    (h : ∀ q ∈ qs, ∀ used outer, Placed (q.select.compose σ ⟨(q.select.scope used).1, outer⟩))
    (tables : List Table) (used : List String) (outer : List Level) :
    AllPlaced σ ⟨(ScopeTree.grow tables qs used).1, outer⟩ qs := by
  refine ⟨⟨rfl, rfl⟩, fun q hq width => ?_⟩
  obtain ⟨child, hchild⟩ := ScopeTree.exists_child_grow hq tables used
  obtain ⟨r, hr, hid, after, rfl⟩ := ScopeTree.child_grow hchild
  have hselect : r.select = q.select := hco r hr q hq hid
  rw [hselect] at hchild
  set p : Position := ⟨(ScopeTree.grow tables qs used).1, outer⟩
  have hbelow : p.enter? q.id = some ⟨(q.select.scope after).1, p.visible⟩ :=
    Position.enter?_eq_some_iff.mpr ⟨_, hchild, rfl⟩
  refine compose_lockstep width (fun hnone => ?_) fun below hsome => ?_
  · simp [hbelow] at hnone
  · obtain rfl := Option.some.inj (hbelow.symm.trans hsome)
    exact ⟨_, hbelow, h q hq _ _⟩

theorem Select.compose_scope_placed {s : Select} (h : s.Coherent) (σ : Setting)
    (used : List String) (outer : List Level) :
    Placed (s.compose σ ⟨(s.scope used).1, outer⟩) := by
  induction s generalizing used outer with
  | step s ih =>
    have hinside : ∀ q ∈ s.subQueries, ∀ used outer,
        Placed (q.select.compose σ ⟨(q.select.scope used).1, outer⟩) :=
      fun q hq => ih q hq (h.inside q hq)
    rw [scope_eq_grow]
    exact compose_lockstep (SubQuery.allPlaced_grow h.here hinside _ _ _)

theorem Query.allPlaced {q : Query} (h : q.Coherent) (σ : Setting) :
    AllPlaced σ (.root q.scope) q.subQueries := by
  rw [scope_eq_grow]
  exact SubQuery.allPlaced_grow h.here
    (fun r hr => Select.compose_scope_placed (h.inside r hr) σ) _ _ _

section

variable {σ : Setting} {p : Position}

namespace OnConflict

variable {target : Table} {rows : List (List Cell)} {o : OnConflict}

/-- Whatever the family, the sub-queries are those of the assignments. -/
theorem compose_placed
    (h : ∀ as, o.assignments target = .ok as → ∀ a ∈ as, AllPlaced σ p a.subQueries) :
    Placed (o.compose σ p target rows) := by
  have hkeys := (keyColumns_failsOnly target o).placed
  have has := (assignments_failsOnly target o).placed
  have hitems : ∀ as, o.assignments target = .ok as → Placed (as.mapM (·.composeUpsert σ p)) :=
    fun as heq => .mapM fun a ha => Assignment.composeUpsert_lockstep (h as heq a ha)
  unfold compose
  cases σ.dialect.conflict with
  | onConflict =>
    exact hkeys.bind fun keys _ => has.bind fun as heq =>
      (checkKeys_failsOnly target keys o).placed.bind fun _ _ => (hitems as heq).bind fun _ _ => .ok _
  | onDuplicateKey =>
    exact has.bind fun as heq => (hitems as heq).bind fun _ _ => .ok _
  | merge terminated =>
    refine hkeys.bind fun keys _ => .check (by simp) <| has.bind fun as heq => ?_
    have hnames : Placed (keys.mapM (·.qualify p.visible false)) :=
      .mapM fun c _ => (c.qualify_failsOnly _ _).placed
    exact hnames.bind fun _ _ => (hitems as heq).bind fun _ _ => .ok _
  | absent => exact .error (by simp)

end OnConflict

end

section

variable {d : Dialect} {options defaults : QueryOptions}

theorem UpdateQuery.compose_placed {q : UpdateQuery} (h : (Query.update q).Coherent) :
    Placed (q.compose d options) := by
  have hall : AllPlaced (.of d options) (.root (.ofTarget q.target q.subQueries)) q.subQueries :=
    Query.allPlaced h (.of d options)
  have hitems := hall.mono (List.subset_append_left _ _)
  have hfilter : Placed (Criterion.composeWhere _ _ q.filter) :=
    Criterion.composeWhere_lockstep (hall.mono (List.subset_append_right _ _))
  refine .check (by simp) <| .check (by simp) ?_
  refine Placed.bind (.mapM fun a ha => ?_) fun _ _ => hfilter.bind fun _ _ => .ok _
  exact Assignment.composeUpdate_lockstep q.target (hitems.mono (subset_flatMap_of_mem ha))

theorem DeleteQuery.compose_placed {q : DeleteQuery} (h : (Query.delete q).Coherent) :
    Placed (q.compose d options) := by
  have hall : AllPlaced (.of d options) (.root (.ofTarget q.target q.subQueries)) q.subQueries :=
    Query.allPlaced h (.of d options)
  have hfilter : Placed (Criterion.composeWhere _ _ q.filter) :=
    Criterion.composeWhere_lockstep hall
  exact .check (by simp) <| hfilter.bind fun _ _ => .ok _

namespace InsertQuery

variable {q : InsertQuery}

/-- All statements that an insert is sent as can be composed. -/
def AllPlaced (d : Dialect) (options : QueryOptions) (q : InsertQuery) : Prop :=
  ∀ cells, Placed (q.compose d options cells)

theorem compose_placed
    (hall : SubQuery.AllPlaced (.of d options) (.root (.ofTarget q.target q.subQueries))
      q.subQueries) : AllPlaced d options q := by
  intro cells
  have hbody : Placed (q.composeBody (.of d options) cells) := by
    unfold composeBody
    cases hq : q.conflict with
    | none => exact .ok _
    | some o =>
      exact OnConflict.compose_placed fun as has a ha =>
        hall.mono (subQueries_of_assignment hq has ha)
  refine .check (by simp) <| hbody.bind fun body _ => ?_
  by_cases hr : q.returning = true
  · rw [if_pos hr]
    exact (Setting.require_placed _ _ _).bind fun _ _ => .ok _
  · rw [if_neg hr]
    exact .ok _

theorem AllPlaced.failsOnly (h : AllPlaced d options q) (cells : List (List Cell)) :
    FailsOnly (· ≠ .validation .unregisteredSubQuery) (q.compose d options cells) :=
  placed_iff.mp (h cells)

theorem AllPlaced.buildSingle (h : AllPlaced d (q.options.getD defaults) q) (row : List Value) :
    Placed (q.buildSingle d defaults row) :=
  placed_iff.mpr (buildSingle_failsOnly (fun _ => Error.Flaw.ne_unregistered) h.failsOnly row)

theorem AllPlaced.buildMultiple (h : AllPlaced d (q.options.getD defaults) q)
    (rows : List (List Value)) : Placed (q.buildMultiple d defaults rows) := by
  refine placed_iff.mpr (buildMultiple_failsOnly (fun _ => Error.Flaw.ne_unregistered) h.failsOnly ?_)
  simp

theorem AllPlaced.buildBatch (h : AllPlaced d (q.options.getD defaults) q)
    (rows : List (List Value)) : Placed (q.buildBatch d defaults rows) := by
  refine placed_iff.mpr
    (buildBatch_failsOnly (fun _ => Error.Flaw.ne_unregistered) h.failsOnly ?_ rows)
  simp

end InsertQuery

end

namespace Query

theorem build_placed {q : Query} (h : q.Coherent) (d : Dialect) (defaults : QueryOptions) :
    Placed (q.build d defaults) := by
  cases q with
  | select q =>
    have hq : Placed (q.compose (.of d (q.options.getD defaults)) (.root (.ofSelect q))) :=
      Select.compose_lockstep (allPlaced h _)
    exact ((hq.bind fun _ _ => .ok _).bind fun _ _ => .ok _).bind fun _ _ => .ok _
  | update q =>
    exact ((UpdateQuery.compose_placed h).bind fun _ _ => .ok _).bind fun _ _ => .ok _
  | delete q =>
    exact ((DeleteQuery.compose_placed h).bind fun _ _ => .ok _).bind fun _ _ => .ok _
  | insert draft rows =>
    have hall : ∀ options, draft.query.AllPlaced d options := fun options =>
      InsertQuery.compose_placed (allPlaced h (.of d options))
    have hfinish : Placed draft.finish := by
      unfold InsertDraft.finish
      cases draft.fault with
      | none => exact .ok _
      | some fault => exact .error (by simp)
    refine hfinish.bind fun query hquery => ?_
    obtain ⟨_, rfl⟩ := InsertDraft.finish_eq_ok_iff.mp hquery
    cases rows with
    | single row => exact ((hall _).buildSingle row).bind fun _ _ => .ok _
    | multiple rows => exact ((hall _).buildMultiple rows).bind fun _ _ => .ok _
    | batch rows => exact ((hall _).buildBatch rows).bind fun _ _ => .ok _

end Query

end SqlCompose
