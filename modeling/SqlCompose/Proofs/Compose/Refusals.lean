import SqlCompose.Proofs.Compose.Lockstep
import SqlCompose.Proofs.Query.Constructs

/-! Why composing refuses a query: a table that no level in sight introduces, something that is
invalid in itself, or a construct that the dialect lacks and the query contains. A where clause is
never found missing inside. -/

namespace SqlCompose

/-- The reasons to refuse something that contains these constructs. -/
inductive Error.Refuses (d : Dialect) (K : Construct → Prop) : Error → Prop where
  | unknownTable (table column : String) : Refuses d K (.unknownTable table column)
  | validation (fault : Fault) : Refuses d K (.validation fault)
  | unsupported {k : Construct} {feature : Feature} (hk : K k) (hd : d.supports k = false)
      (hfeature : feature.construct? = some k) (name : String) :
      Refuses d K (.unsupported name feature)

/-- Whatever the computation fails with is such a reason. -/
def Refused {α : Type} (d : Dialect) (K : Construct → Prop) (x : Except Error α) : Prop :=
  ∀ e, x = .error e → e.Refuses d K

namespace Refused

variable {α β : Type} {d : Dialect} {K L : Construct → Prop}

theorem ok (a : α) : Refused d K (.ok a) := FailsOnly.ok a

theorem error {e : Error} (h : e.Refuses d K) : Refused d K (.error e : Except Error α) :=
  FailsOnly.error h

theorem mono {x : Except Error α} (h : Refused d K x) (hsub : ∀ k, K k → L k) : Refused d L x := by
  intro e he
  cases h e he with
  | unknownTable table column => exact .unknownTable table column
  | validation fault => exact .validation fault
  | unsupported hk hd hfeature name => exact .unsupported (hsub _ hk) hd hfeature name

theorem bind {x : Except Error α} {f : α → Except Error β} (hx : Refused d K x)
    (hf : ∀ a, x = .ok a → Refused d K (f a)) : Refused d K (x >>= f) := FailsOnly.bind hx hf

theorem map {x : Except Error α} (h : Refused d K x) (f : α → β) : Refused d K (f <$> x) :=
  FailsOnly.map h f

theorem mapM {f : α → Except Error β} {xs : List α} (h : ∀ x ∈ xs, Refused d K (f x)) :
    Refused d K (xs.mapM f) := FailsOnly.mapM h

theorem check {c : Prop} [Decidable c] {e : Error} {f : PUnit → Except Error α}
    {x : Except Error α} (he : c → e.Refuses d K) (h : ¬ c → Refused d K x) :
    Refused d K (if c then throw e >>= f else x) := FailsOnly.check he h

theorem ne_missingWhere {x : Except Error α} (h : Refused d K x) (u : Unfiltered) :
    x ≠ .error (.missingWhere u) := fun he => by cases h _ he

end Refused

theorem Error.Flaw.refuses {e : Error} (h : e.Flaw) (d : Dialect) (K : Construct → Prop) :
    e.Refuses d K := by
  cases h with
  | unknownTable table column => exact .unknownTable table column
  | validation _ _ => exact .validation _

theorem FailsOnly.refused {α : Type} {d : Dialect} {K : Construct → Prop} {x : Except Error α}
    (h : FailsOnly Error.Flaw x) : Refused d K x := h.imp fun _ he => he.refuses d K

section

variable {σ : Setting} {p : Position} {K : Construct → Prop}

theorem Setting.require_refused {k : Construct} {feature : Feature} (hk : K k)
    (hfeature : feature.construct? = some k) :
    Refused σ.dialect K (σ.require (σ.dialect.supports k) feature) := by
  unfold require
  by_cases h : σ.dialect.supports k = true
  · rw [if_pos h]
    exact .ok ()
  · rw [if_neg h]
    exact .error (.unsupported hk (Bool.not_eq_true _ ▸ h) hfeature _)

theorem Setting.lock_refused (hk : K .lock) (mode : LockWait) :
    Refused σ.dialect K (σ.lock mode) := by
  unfold lock
  cases h : σ.dialect.locking with
  | supported => exact .ok mode
  | refusedBy name => exact .error (.unsupported hk (by simp [Dialect.supports, h]) rfl name)

theorem SortItem.compose_refused {i : SortItem} (hk : ∀ k ∈ i.constructs, K k) :
    Refused σ.dialect K (i.compose σ p) := by
  unfold compose
  refine (i.column.qualify_failsOnly _ _).refused.bind fun name _ => ?_
  by_cases h : i.nulls.isSome = true
  · have hnulls : K .nullsOrdering := hk _ (by simp [constructs, h])
    simp only [h, if_true]
    exact (Setting.require_refused hnulls rfl).bind fun _ _ => .ok _
  · simp only [h, if_false, Bool.false_eq_true]
    exact .ok _

theorem Aggregate.compose_refused {d : Dialect} (a : Aggregate) : Refused d K (a.compose p) := by
  cases a with
  | countAll => exact .ok _
  | count c => exact (c.qualify_failsOnly _ _).refused.map _
  | max c => exact (c.qualify_failsOnly _ _).refused.map _
  | min c => exact (c.qualify_failsOnly _ _).refused.map _

/-- The sub-queries are refused for such reasons only, whatever width is asked of them. -/
def SubQuery.AllRefused (σ : Setting) (p : Position) (K : Construct → Prop) (qs : List SubQuery) :
    Prop :=
  ∀ q ∈ qs, ∀ width, Refused σ.dialect K (q.compose σ p width)

open SubQuery (AllRefused)

theorem SubQuery.AllRefused.mono {qs rs : List SubQuery} (h : AllRefused σ p K rs)
    (hsub : qs ⊆ rs) : AllRefused σ p K qs := fun q hq => h q (hsub hq)

theorem Operand.compose_refused {o : Operand} (h : AllRefused σ p K o.subQueries) :
    Refused σ.dialect K (o.compose σ p) := by
  cases o with
  | column c =>
    rw [compose]
    exact (c.qualify_failsOnly _ _).refused.map _
  | outer c =>
    rw [compose]
    exact (c.qualify_failsOnly _ _).refused.map _
  | parameter b =>
    rw [compose]
    exact .ok _
  | subQuery q =>
    rw [compose]
    exact (h q List.mem_cons_self (some 1)).map _
  | pattern parts =>
    rw [compose]
    exact .ok _

theorem Operand.composeAll_refused {os : List Operand}
    (h : AllRefused σ p K (os.flatMap subQueries)) :
    Refused σ.dialect K (composeAll σ p os) := by
  rw [composeAll_eq_mapM]
  exact .mapM fun o ho => compose_refused (h.mono (subset_flatMap_of_mem ho))

theorem OperandPair.compose_refused {o : OperandPair} (h : AllRefused σ p K o.subQueries) :
    Refused σ.dialect K (o.compose σ p) := by
  obtain ⟨first, second⟩ := o
  have hfirst := Operand.compose_refused (h.mono (List.subset_append_left _ _))
  have hsecond := Operand.compose_refused (h.mono (List.subset_append_right _ _))
  rw [compose]
  exact hfirst.bind fun _ _ => hsecond.bind fun _ _ => .ok _

theorem OperandPair.composeAll_refused {os : List OperandPair}
    (h : AllRefused σ p K (os.flatMap subQueries)) :
    Refused σ.dialect K (composeAll σ p os) := by
  rw [composeAll_eq_mapM]
  exact .mapM fun o ho => compose_refused (h.mono (subset_flatMap_of_mem ho))

theorem OperandPair.expandAll_refused {first second : Except Error Sql.Expr}
    (hfirst : Refused σ.dialect K first) (hsecond : Refused σ.dialect K second)
    {os : List OperandPair} (h : AllRefused σ p K (os.flatMap subQueries)) :
    Refused σ.dialect K (expandAll σ p first second os) := by
  rw [expandAll_eq_mapM]
  refine .mapM fun o ho => ?_
  have ho := h.mono (subset_flatMap_of_mem ho)
  have hx := Operand.compose_refused (ho.mono (List.subset_append_left _ _))
  have hy := Operand.compose_refused (ho.mono (List.subset_append_right _ _))
  exact hfirst.bind fun _ _ => hx.bind fun _ _ => hsecond.bind fun _ _ => hy.bind fun _ _ => .ok _

namespace Criterion

theorem composeAll_refused_of {cs : List Criterion}
    (hmembers : ∀ c ∈ cs, (∀ k ∈ c.constructs, K k) → AllRefused σ p K c.subQueries →
      Refused σ.dialect K (c.compose σ p))
    (hk : ∀ k ∈ cs.flatMap constructs, K k) (h : AllRefused σ p K (cs.flatMap subQueries)) :
    Refused σ.dialect K (composeAll σ p cs) := by
  rw [composeAll_eq_mapM]
  refine .mapM fun c hc => hmembers c hc (fun k hkc => ?_) (h.mono (subset_flatMap_of_mem hc))
  exact hk k (subset_flatMap_of_mem hc hkc)

theorem compose_pairInList_refused {negated : Bool} {pair : OperandPair}
    {values : List OperandPair} (hpair : AllRefused σ p K pair.subQueries)
    (hvalues : AllRefused σ p K (values.flatMap OperandPair.subQueries)) :
    Refused σ.dialect K ((pairInList negated pair values).compose σ p) := by
  obtain ⟨first, second⟩ := pair
  have hfirst := Operand.compose_refused (hpair.mono (List.subset_append_left _ _))
  have hsecond := Operand.compose_refused (hpair.mono (List.subset_append_right _ _))
  rw [compose]
  by_cases hnil : values.isEmpty = true
  · rw [if_pos hnil]
    exact .ok _
  rw [if_neg hnil]
  by_cases hrow : σ.dialect.rowValueInList = true
  · rw [if_pos hrow]
    exact hfirst.bind fun _ _ => hsecond.bind fun _ _ =>
      (OperandPair.composeAll_refused hvalues).bind fun _ _ => .ok _
  · rw [if_neg hrow]
    exact (OperandPair.expandAll_refused hfirst hsecond hvalues).map _

theorem compose_refused {c : Criterion} (hk : ∀ k ∈ c.constructs, K k)
    (h : AllRefused σ p K c.subQueries) : Refused σ.dialect K (c.compose σ p) := by
  induction c with
  | compare op left right =>
    have hleft := Operand.compose_refused (h.mono (List.subset_append_left _ _))
    have hright := Operand.compose_refused (h.mono (List.subset_append_right _ _))
    rw [compose]
    exact hleft.bind fun _ _ => hright.bind fun _ _ => .ok _
  | isNull negated o =>
    rw [compose]
    exact (Operand.compose_refused h).map _
  | like negated o pattern option =>
    have hfirst := Operand.compose_refused (h.mono (List.subset_append_left _ _))
    have hpattern := Operand.compose_refused (h.mono (List.subset_append_right _ _))
    rw [compose]
    refine hfirst.bind fun _ _ => ?_
    cases pattern.patternParts? option with
    | some parts => exact .ok _
    | none => exact hpattern.map _
  | between negated o low high =>
    have hbounds := h.mono (List.subset_append_left _ _)
    have hfirst := Operand.compose_refused (hbounds.mono (List.subset_append_left _ _))
    have hlow := Operand.compose_refused (hbounds.mono (List.subset_append_right _ _))
    have hhigh := Operand.compose_refused (h.mono (List.subset_append_right _ _))
    rw [compose]
    exact hfirst.bind fun _ _ => hlow.bind fun _ _ => hhigh.bind fun _ _ => .ok _
  | inList negated o values =>
    have hfirst := Operand.compose_refused (h.mono (List.subset_append_left _ _))
    have hvalues := Operand.composeAll_refused (h.mono (List.subset_append_right _ _))
    rw [compose]
    by_cases hnil : values.isEmpty = true
    · rw [if_pos hnil]
      exact .ok _
    · rw [if_neg hnil]
      exact hfirst.bind fun _ _ => hvalues.bind fun _ _ => .ok _
  | inSubQuery negated o query =>
    have hfirst := Operand.compose_refused (h.mono (List.subset_append_left _ _))
    have hquery := h query (List.mem_append_right _ List.mem_cons_self) (some 1)
    rw [compose]
    exact hfirst.bind fun _ _ => hquery.bind fun _ _ => .ok _
  | pairInList negated pair values =>
    exact compose_pairInList_refused (h.mono (List.subset_append_left _ _))
      (h.mono (List.subset_append_right _ _))
  | pairInSubQuery negated pair query =>
    have hrow : K .rowInSubQuery := hk _ (by simp [constructs])
    have hpair := OperandPair.compose_refused (h.mono (List.subset_append_left _ _))
    have hquery := h query (List.mem_append_right _ List.mem_cons_self) (some 2)
    rw [compose]
    exact (Setting.require_refused hrow rfl).bind fun _ _ => hpair.bind fun _ _ =>
      hquery.bind fun _ _ => .ok _
  | exists_ negated query =>
    rw [compose]
    exact (h query List.mem_cons_self none).map _
  | all cs ih =>
    rw [subQueries_all] at h
    rw [constructs_all] at hk
    rw [compose]
    exact (composeAll_refused_of ih hk h).map _
  | any cs ih =>
    rw [subQueries_any] at h
    rw [constructs_any] at hk
    rw [compose]
    exact (composeAll_refused_of ih hk h).map _
  | not cs ih =>
    rw [subQueries_not] at h
    rw [constructs_not] at hk
    rw [compose]
    exact (composeAll_refused_of ih hk h).map _

theorem composeAll_refused {cs : List Criterion} (hk : ∀ k ∈ cs.flatMap constructs, K k)
    (h : AllRefused σ p K (cs.flatMap subQueries)) : Refused σ.dialect K (composeAll σ p cs) :=
  composeAll_refused_of (fun _ _ => compose_refused) hk h

theorem composeWhere_refused {cs : List Criterion} (hk : ∀ k ∈ cs.flatMap constructs, K k)
    (h : AllRefused σ p K (cs.flatMap subQueries)) : Refused σ.dialect K (composeWhere σ p cs) :=
  (composeAll_refused hk h).map _

end Criterion

theorem SelectItem.compose_refused {i : SelectItem} (h : AllRefused σ p K i.subQueries) :
    Refused σ.dialect K (i.compose σ p) := by
  cases i with
  | column c =>
    rw [compose]
    exact (c.qualify_failsOnly _ _).refused.map _
  | aggregate a =>
    rw [compose]
    exact a.compose_refused
  | subQuery q =>
    rw [compose]
    exact (h q List.mem_cons_self (some 1)).map _

theorem Projection.compose_refused {j : Projection} (target : Table)
    (h : AllRefused σ p K j.subQueries) : Refused σ.dialect K (j.compose σ p target) := by
  cases j with
  | allColumns =>
    rw [compose]
    exact .mapM fun c _ => (c.qualify_failsOnly _ _).refused.map _
  | explicit items =>
    rw [compose, SelectItem.composeAll_eq_mapM]
    exact .mapM fun i hi => SelectItem.compose_refused (h.mono (subset_flatMap_of_mem hi))

theorem Join.composeAll_refused {js : List Join}
    (hk : ∀ k ∈ (js.flatMap (·.on)).flatMap Criterion.constructs, K k)
    (h : AllRefused σ p K ((js.flatMap (·.on)).flatMap Criterion.subQueries)) :
    Refused σ.dialect K (composeAll σ p js) := by
  rw [List.flatMap_assoc] at hk h
  rw [composeAll_eq_mapM]
  refine .mapM fun j hj => ?_
  have hcriteria := h.mono (subset_flatMap_of_mem hj)
  have hon := Criterion.composeAll_refused
    (fun k hkj => hk k (List.mem_flatMap.mpr ⟨j, hj, hkj⟩)) hcriteria
  obtain ⟨kind, table, on⟩ := j
  rw [compose]
  exact (table.item_failsOnly _).refused.bind fun _ _ => hon.bind fun _ _ => .ok _

theorem Select.compose_refused_of {s : Select} (hk : ∀ k ∈ s.constructs, K k)
    (h : AllRefused σ p K s.subQueries) : Refused σ.dialect K (s.compose σ p) := by
  cases s with
  | mk target joins filter projection distinct orderBy offset limit lock options =>
    have hprojection := Projection.compose_refused target (h.mono (List.subset_append_left _ _))
    have hcriteria := h.mono (List.subset_append_right _ _)
    simp only [criteria, List.flatMap_append] at hcriteria
    simp only [constructs, criteria, List.flatMap_append, List.forall_mem_append] at hk
    obtain ⟨⟨⟨hkjoins, hkfilter⟩, hkorder⟩, hklock⟩ := hk
    have hjoins := Join.composeAll_refused hkjoins (hcriteria.mono (List.subset_append_left _ _))
    have hfilter := Criterion.composeAll_refused hkfilter
      (hcriteria.mono (List.subset_append_right _ _))
    have horder : Refused σ.dialect K (orderBy.mapM (·.compose σ p)) := .mapM fun i hi =>
      SortItem.compose_refused fun k hki => hkorder k (subset_flatMap_of_mem hi hki)
    have hlock : Refused σ.dialect K (lock.mapM σ.lock) := by
      cases lock with
      | none => exact .ok _
      | some mode =>
        exact (Setting.lock_refused (hklock _ List.mem_cons_self) mode).bind fun _ _ => .ok _
    rw [compose]
    exact (checkTables_failsOnly _).refused.bind fun _ _ => hprojection.bind fun _ _ =>
      (target.item_failsOnly _).refused.bind fun _ _ => hjoins.bind fun _ _ => hfilter.bind fun _ _ =>
        horder.bind fun _ _ => hlock.bind fun _ _ => .ok _

theorem SubQuery.compose_refused {q : SubQuery} (width : Option Nat)
    (h : ∀ below, Refused σ.dialect K (q.select.compose σ below)) :
    Refused σ.dialect K (q.compose σ p width) := by
  obtain ⟨id, select⟩ := q
  rw [compose]
  refine (Select.checkWidth_failsOnly _ _).refused.bind fun _ _ => ?_
  cases p.enter? id with
  | some below => exact h below
  | none => exact .error (.validation _)

end

theorem Select.compose_refused (s : Select) (σ : Setting) (p : Position) :
    Refused σ.dialect s.Contains (s.compose σ p) := by
  induction s generalizing p with
  | step s ih =>
    refine compose_refused_of (fun k hk => .here hk) fun q hq width => ?_
    exact SubQuery.compose_refused width fun below => (ih q hq below).mono fun _ h => .inside hq h

theorem SubQuery.allRefused {σ : Setting} {K : Construct → Prop} {qs : List SubQuery}
    (h : ∀ q ∈ qs, ∀ k, q.select.Contains k → K k) (p : Position) : AllRefused σ p K qs :=
  fun q hq width => compose_refused width fun below =>
    (q.select.compose_refused σ below).mono (h q hq)

section

variable {σ : Setting} {p : Position} {K : Construct → Prop}

theorem Assignment.composeUpdate_refused {a : Assignment} (target : Table)
    (h : SubQuery.AllRefused σ p K a.subQueries) :
    Refused σ.dialect K (a.composeUpdate σ p target) := by
  obtain ⟨column, value⟩ := a
  refine .check (fun _ => .validation _) fun _ => ?_
  cases value with
  | operand o =>
    have ho : Refused σ.dialect K (o.compose σ p) := Operand.compose_refused h
    exact ho.bind fun _ _ => .ok _
  | incoming source => exact .error (.validation _)

theorem Assignment.composeUpsert_refused {a : Assignment}
    (h : SubQuery.AllRefused σ p K a.subQueries) : Refused σ.dialect K (a.composeUpsert σ p) := by
  obtain ⟨column, value⟩ := a
  cases value with
  | operand o =>
    have ho : Refused σ.dialect K (o.compose σ p) := Operand.compose_refused h
    exact ho.bind fun _ _ => .ok _
  | incoming source => exact .ok _

namespace OnConflict

variable {d : Dialect} {target : Table} {rows : List (List Cell)} {o : OnConflict}

/-- A dialect without upserts refuses before it reads the assignments. -/
theorem compose_refused (hk : K .upsert)
    (h : ∀ as, o.assignments target = .ok as → ∀ a ∈ as, SubQuery.AllRefused σ p K a.subQueries) :
    Refused σ.dialect K (o.compose σ p target rows) := by
  have hkeys : Refused σ.dialect K (o.keyColumns target) := (keyColumns_failsOnly target o).refused
  have has : Refused σ.dialect K (o.assignments target) := (assignments_failsOnly target o).refused
  have hitems : ∀ as, o.assignments target = .ok as →
      Refused σ.dialect K (as.mapM (·.composeUpsert σ p)) :=
    fun as heq => .mapM fun a ha => Assignment.composeUpsert_refused (h as heq a ha)
  unfold compose
  cases hd : σ.dialect.conflict with
  | onConflict =>
    exact hkeys.bind fun keys _ => has.bind fun as heq =>
      (checkKeys_failsOnly target keys o).refused.bind fun _ _ => (hitems as heq).bind fun _ _ => .ok _
  | onDuplicateKey => exact has.bind fun as heq => (hitems as heq).bind fun _ _ => .ok _
  | merge terminated =>
    refine hkeys.bind fun keys _ => .check (fun _ => .validation _) fun _ =>
      has.bind fun as heq => ?_
    have hnames : Refused σ.dialect K (keys.mapM (·.qualify p.visible false)) :=
      .mapM fun c _ => (c.qualify_failsOnly _ _).refused
    exact hnames.bind fun _ _ => (hitems as heq).bind fun _ _ => .ok _
  | absent => exact .error (.unsupported hk (by simp [Dialect.supports, hd]) rfl _)

end OnConflict

end

end SqlCompose
