import SqlCompose.Proofs.Compose.Commands
import SqlCompose.Proofs.Compose.Flaws

/-! Composing a level in two settings and at two positions. The settings differ only in how upserts are
written, which no level reads, and the positions give the same aliases, so that the two runs go on step
by step in the same way. -/

namespace SqlCompose

/-- The computation finds the level of every sub-query that it comes to. -/
def Placed {α : Type} (x : Except Error α) : Prop :=
  x ≠ .error (.validation .unregisteredSubQuery)

namespace Placed

variable {α β : Type}

theorem ok (a : α) : Placed (.ok a) := by simp [Placed]

theorem error {e : Error} (h : e ≠ .validation .unregisteredSubQuery) :
    Placed (.error e : Except Error α) := by simpa [Placed] using h

theorem bind {x : Except Error α} {f : α → Except Error β} (hx : Placed x)
    (hf : ∀ a, x = .ok a → Placed (f a)) : Placed (x >>= f) := by
  cases x with
  | error e => exact error fun he => hx (he ▸ rfl)
  | ok a => exact hf a rfl

end Placed

theorem placed_iff {α : Type} {x : Except Error α} :
    Placed x ↔ FailsOnly (· ≠ .validation .unregisteredSubQuery) x :=
  ⟨fun h _ he hlevel => h (hlevel ▸ he), fun h he => h _ he rfl⟩

theorem Error.Flaw.ne_unregistered {e : Error} (h : e.Flaw) :
    e ≠ .validation .unregisteredSubQuery := by
  cases h with
  | unknownTable table column => simp
  | validation hlevel _ => simpa using hlevel

theorem FailsOnly.placed {α : Type} {x : Except Error α} (h : FailsOnly Error.Flaw x) : Placed x :=
  placed_iff.mpr (h.imp fun _ => Error.Flaw.ne_unregistered)

/-- A relation between two runs that holds as long as their steps are related. A missing level is
the one failure that it need not hold of. -/
structure Lockstep where
  Rel : {α : Type} → Except Error α → Except Error α → Prop
  same : ∀ {α : Type} {x : Except Error α}, Placed x → Rel x x
  bind : ∀ {α β : Type} {x y : Except Error α} {f g : α → Except Error β}, Rel x y →
    (∀ a, x = .ok a → Rel (f a) (g a)) → Rel (x >>= f) (y >>= g)

namespace Lockstep

/-- The first run finds every level. -/
abbrev placed : Lockstep where
  Rel x _ := Placed x
  same h := h
  bind := Placed.bind

/-- What the first run gives, the second gives too. -/
abbrev kept : Lockstep where
  Rel x y := ∀ a, x = .ok a → y = .ok a
  same _ _ h := h
  bind {_ _ x y f g} hx hf b hb := by
    obtain ⟨a, ha, hfa⟩ := bind_eq_ok_iff.mp hb
    exact bind_eq_ok_iff.mpr ⟨a, hx a ha, hf a ha b hfa⟩

variable {α β : Type} (L : Lockstep)

theorem ok (a : α) : L.Rel (.ok a) (.ok a) := L.same (.ok a)

theorem map {x y : Except Error α} (h : L.Rel x y) (f : α → β) : L.Rel (f <$> x) (f <$> y) := by
  have hmap : ∀ z : Except Error α, f <$> z = z >>= fun a => .ok (f a) := fun z => by
    cases z <;> rfl
  rw [hmap, hmap]
  exact L.bind h fun a _ => L.ok (f a)

theorem mapM {f g : α → Except Error β} {xs : List α} (h : ∀ x ∈ xs, L.Rel (f x) (g x)) :
    L.Rel (xs.mapM f) (xs.mapM g) := by
  induction xs with
  | nil => exact L.ok []
  | cons x xs ih =>
    rw [List.mapM_cons, List.mapM_cons]
    have hrest := ih fun y hy => h y (List.mem_cons_of_mem _ hy)
    exact L.bind (h x List.mem_cons_self) fun _ _ => L.bind hrest fun _ _ => L.ok _

theorem check {c : Prop} [Decidable c] {e : Error} {f g : PUnit → Except Error α}
    {x y : Except Error α} (he : e ≠ .validation .unregisteredSubQuery) (h : L.Rel x y) :
    L.Rel (if c then throw e >>= f else x) (if c then throw e >>= g else y) := by
  by_cases hc : c
  · rw [if_pos hc, if_pos hc]
    exact L.same (.error he)
  · rw [if_neg hc, if_neg hc]
    exact h

end Lockstep

theorem Setting.require_placed (σ : Setting) (has : Bool) (feature : Feature) :
    Placed (σ.require has feature) := by
  cases has with
  | true => exact .ok _
  | false => exact .error (by simp)

theorem Setting.lock_placed (σ : Setting) (mode : LockWait) : Placed (σ.lock mode) := by
  unfold lock
  cases σ.dialect.locking with
  | supported => exact .ok _
  | refusedBy name => exact .error (by simp)

abbrev Dialect.withConflict (d : Dialect) (s : ConflictSyntax) : Dialect := { d with conflict := s }

abbrev Setting.withConflict (σ : Setting) (s : ConflictSyntax) : Setting :=
  ⟨σ.dialect.withConflict s, σ.escape⟩

/-- The positions give the same aliases, whatever stands below them. -/
structure Position.Alike (p p' : Position) : Prop where
  level : p'.scope.level = p.scope.level
  outer : p'.outer = p.outer

theorem Position.Alike.visible {p p' : Position} (h : p.Alike p') : p'.visible = p.visible := by
  rw [Position.visible, Position.visible, h.level, h.outer]

section

variable {L : Lockstep} {σ : Setting} {s : ConflictSyntax} {p p' : Position}

theorem SortItem.compose_lockstep (hp : p.Alike p') (i : SortItem) :
    L.Rel (i.compose σ p) (i.compose (σ.withConflict s) p') := by
  unfold compose
  rw [hp.visible]
  refine L.bind (L.same (i.column.qualify_failsOnly _ _).placed) fun name _ => ?_
  by_cases h : i.nulls.isSome = true
  · simp only [h, if_true]
    exact L.bind (L.same (σ.require_placed _ _)) fun _ _ => L.ok _
  · simp only [h, if_false, Bool.false_eq_true]
    exact L.ok _

theorem Aggregate.compose_lockstep (hp : p.Alike p') (a : Aggregate) :
    L.Rel (a.compose p) (a.compose p') := by
  unfold compose
  rw [hp.visible]
  cases a with
  | countAll => exact L.ok _
  | count c => exact L.map (L.same (c.qualify_failsOnly _ _).placed) _
  | max c => exact L.map (L.same (c.qualify_failsOnly _ _).placed) _
  | min c => exact L.map (L.same (c.qualify_failsOnly _ _).placed) _

/-- Both positions give the same aliases, and there the runs over the sub-queries are related, whatever
width is asked of them. -/
structure SubQuery.AllLockstep (L : Lockstep) (σ : Setting) (s : ConflictSyntax) (p p' : Position)
    (qs : List SubQuery) : Prop where
  alike : p.Alike p'
  related : ∀ q ∈ qs, ∀ width,
    L.Rel (q.compose σ p width) (q.compose (σ.withConflict s) p' width)

theorem SubQuery.AllLockstep.mono {qs rs : List SubQuery} (h : AllLockstep L σ s p p' rs)
    (hsub : qs ⊆ rs) : AllLockstep L σ s p p' qs :=
  ⟨h.alike, fun q hq => h.related q (hsub hq)⟩

open SubQuery (AllLockstep)

theorem Operand.compose_lockstep {o : Operand} (h : AllLockstep L σ s p p' o.subQueries) :
    L.Rel (o.compose σ p) (o.compose (σ.withConflict s) p') := by
  cases o with
  | column c =>
    rw [compose, compose, h.alike.visible]
    exact L.map (L.same (c.qualify_failsOnly _ _).placed) _
  | outer c =>
    rw [compose, compose, h.alike.outer]
    exact L.map (L.same (c.qualify_failsOnly _ _).placed) _
  | parameter b =>
    rw [compose, compose]
    exact L.ok _
  | subQuery q =>
    rw [compose, compose]
    exact L.map (h.related q List.mem_cons_self (some 1)) _
  | pattern parts =>
    rw [compose, compose]
    exact L.ok _

theorem Operand.composeAll_lockstep {os : List Operand}
    (h : AllLockstep L σ s p p' (os.flatMap subQueries)) :
    L.Rel (composeAll σ p os) (composeAll (σ.withConflict s) p' os) := by
  rw [composeAll_eq_mapM, composeAll_eq_mapM]
  exact L.mapM fun o ho => compose_lockstep (h.mono (subset_flatMap_of_mem ho))

theorem OperandPair.compose_lockstep {o : OperandPair} (h : AllLockstep L σ s p p' o.subQueries) :
    L.Rel (o.compose σ p) (o.compose (σ.withConflict s) p') := by
  obtain ⟨first, second⟩ := o
  have hfirst := Operand.compose_lockstep (h.mono (List.subset_append_left _ _))
  have hsecond := Operand.compose_lockstep (h.mono (List.subset_append_right _ _))
  rw [compose, compose]
  exact L.bind hfirst fun _ _ => L.bind hsecond fun _ _ => L.ok _

theorem OperandPair.composeAll_lockstep {os : List OperandPair}
    (h : AllLockstep L σ s p p' (os.flatMap subQueries)) :
    L.Rel (composeAll σ p os) (composeAll (σ.withConflict s) p' os) := by
  rw [composeAll_eq_mapM, composeAll_eq_mapM]
  exact L.mapM fun o ho => compose_lockstep (h.mono (subset_flatMap_of_mem ho))

theorem OperandPair.expandAll_lockstep {first second first' second' : Except Error Sql.Expr}
    (hfirst : L.Rel first first') (hsecond : L.Rel second second') {os : List OperandPair}
    (h : AllLockstep L σ s p p' (os.flatMap subQueries)) :
    L.Rel (expandAll σ p first second os) (expandAll (σ.withConflict s) p' first' second' os) := by
  rw [expandAll_eq_mapM, expandAll_eq_mapM]
  refine L.mapM fun o ho => ?_
  have ho := h.mono (subset_flatMap_of_mem ho)
  have hx := Operand.compose_lockstep (ho.mono (List.subset_append_left _ _))
  have hy := Operand.compose_lockstep (ho.mono (List.subset_append_right _ _))
  exact L.bind hfirst fun _ _ => L.bind hx fun _ _ => L.bind hsecond fun _ _ =>
    L.bind hy fun _ _ => L.ok _

namespace Criterion

theorem composeAll_lockstep_of {cs : List Criterion}
    (h : ∀ c ∈ cs, L.Rel (c.compose σ p) (c.compose (σ.withConflict s) p')) :
    L.Rel (composeAll σ p cs) (composeAll (σ.withConflict s) p' cs) := by
  rw [composeAll_eq_mapM, composeAll_eq_mapM]
  exact L.mapM h

theorem compose_pairInList_lockstep {negated : Bool} {pair : OperandPair}
    {values : List OperandPair} (hpair : AllLockstep L σ s p p' pair.subQueries)
    (hvalues : AllLockstep L σ s p p' (values.flatMap OperandPair.subQueries)) :
    L.Rel ((pairInList negated pair values).compose σ p)
      ((pairInList negated pair values).compose (σ.withConflict s) p') := by
  obtain ⟨first, second⟩ := pair
  have hfirst := Operand.compose_lockstep (hpair.mono (List.subset_append_left _ _))
  have hsecond := Operand.compose_lockstep (hpair.mono (List.subset_append_right _ _))
  rw [compose, compose]
  by_cases hnil : values.isEmpty = true
  · rw [if_pos hnil, if_pos hnil]
    exact L.ok _
  rw [if_neg hnil, if_neg hnil]
  by_cases hrow : σ.dialect.rowValueInList = true
  · rw [if_pos hrow, if_pos hrow]
    exact L.bind hfirst fun _ _ => L.bind hsecond fun _ _ =>
      L.bind (OperandPair.composeAll_lockstep hvalues) fun _ _ => L.ok _
  · rw [if_neg hrow, if_neg hrow]
    exact L.map (OperandPair.expandAll_lockstep hfirst hsecond hvalues) _

theorem compose_lockstep {c : Criterion} (h : AllLockstep L σ s p p' c.subQueries) :
    L.Rel (c.compose σ p) (c.compose (σ.withConflict s) p') := by
  induction c with
  | compare op left right =>
    have hleft := Operand.compose_lockstep (h.mono (List.subset_append_left _ _))
    have hright := Operand.compose_lockstep (h.mono (List.subset_append_right _ _))
    rw [compose, compose]
    exact L.bind hleft fun _ _ => L.bind hright fun _ _ => L.ok _
  | isNull negated o =>
    rw [compose, compose]
    exact L.map (Operand.compose_lockstep h) _
  | like negated o pattern option =>
    have hfirst := Operand.compose_lockstep (h.mono (List.subset_append_left _ _))
    have hpattern := Operand.compose_lockstep (h.mono (List.subset_append_right _ _))
    rw [compose, compose]
    refine L.bind hfirst fun _ _ => ?_
    cases pattern.patternParts? option with
    | some parts => exact L.ok _
    | none => exact L.map hpattern _
  | between negated o low high =>
    have hbounds := h.mono (List.subset_append_left _ _)
    have hfirst := Operand.compose_lockstep (hbounds.mono (List.subset_append_left _ _))
    have hlow := Operand.compose_lockstep (hbounds.mono (List.subset_append_right _ _))
    have hhigh := Operand.compose_lockstep (h.mono (List.subset_append_right _ _))
    rw [compose, compose]
    exact L.bind hfirst fun _ _ => L.bind hlow fun _ _ => L.bind hhigh fun _ _ => L.ok _
  | inList negated o values =>
    have hfirst := Operand.compose_lockstep (h.mono (List.subset_append_left _ _))
    have hvalues := Operand.composeAll_lockstep (h.mono (List.subset_append_right _ _))
    rw [compose, compose]
    by_cases hnil : values.isEmpty = true
    · rw [if_pos hnil, if_pos hnil]
      exact L.ok _
    · rw [if_neg hnil, if_neg hnil]
      exact L.bind hfirst fun _ _ => L.bind hvalues fun _ _ => L.ok _
  | inSubQuery negated o query =>
    have hfirst := Operand.compose_lockstep (h.mono (List.subset_append_left _ _))
    have hquery := h.related query (List.mem_append_right _ List.mem_cons_self) (some 1)
    rw [compose, compose]
    exact L.bind hfirst fun _ _ => L.bind hquery fun _ _ => L.ok _
  | pairInList negated pair values =>
    exact compose_pairInList_lockstep (h.mono (List.subset_append_left _ _))
      (h.mono (List.subset_append_right _ _))
  | pairInSubQuery negated pair query =>
    have hpair := OperandPair.compose_lockstep (h.mono (List.subset_append_left _ _))
    have hquery := h.related query (List.mem_append_right _ List.mem_cons_self) (some 2)
    rw [compose, compose]
    exact L.bind (L.same (σ.require_placed _ _)) fun _ _ => L.bind hpair fun _ _ =>
      L.bind hquery fun _ _ => L.ok _
  | exists_ negated query =>
    rw [compose, compose]
    exact L.map (h.related query List.mem_cons_self none) _
  | all cs ih =>
    rw [subQueries_all] at h
    rw [compose, compose]
    have hmembers := composeAll_lockstep_of fun c hc => ih c hc (h.mono (subset_flatMap_of_mem hc))
    exact L.map hmembers _
  | any cs ih =>
    rw [subQueries_any] at h
    rw [compose, compose]
    have hmembers := composeAll_lockstep_of fun c hc => ih c hc (h.mono (subset_flatMap_of_mem hc))
    exact L.map hmembers _
  | not cs ih =>
    rw [subQueries_not] at h
    rw [compose, compose]
    have hmembers := composeAll_lockstep_of fun c hc => ih c hc (h.mono (subset_flatMap_of_mem hc))
    exact L.map hmembers _

theorem composeAll_lockstep {cs : List Criterion}
    (h : AllLockstep L σ s p p' (cs.flatMap subQueries)) :
    L.Rel (composeAll σ p cs) (composeAll (σ.withConflict s) p' cs) :=
  composeAll_lockstep_of fun _ hc => compose_lockstep (h.mono (subset_flatMap_of_mem hc))

theorem composeWhere_lockstep {cs : List Criterion}
    (h : AllLockstep L σ s p p' (cs.flatMap subQueries)) :
    L.Rel (composeWhere σ p cs) (composeWhere (σ.withConflict s) p' cs) :=
  L.map (composeAll_lockstep h) _

end Criterion

theorem SelectItem.compose_lockstep {i : SelectItem} (h : AllLockstep L σ s p p' i.subQueries) :
    L.Rel (i.compose σ p) (i.compose (σ.withConflict s) p') := by
  cases i with
  | column c =>
    rw [compose, compose, h.alike.visible]
    exact L.map (L.same (c.qualify_failsOnly _ _).placed) _
  | aggregate a =>
    rw [compose, compose]
    exact a.compose_lockstep h.alike
  | subQuery q =>
    rw [compose, compose]
    exact L.map (h.related q List.mem_cons_self (some 1)) _

theorem Projection.compose_lockstep {j : Projection} (target : Table)
    (h : AllLockstep L σ s p p' j.subQueries) :
    L.Rel (j.compose σ p target) (j.compose (σ.withConflict s) p' target) := by
  cases j with
  | allColumns =>
    rw [compose, compose, h.alike.visible]
    exact L.mapM fun c _ => L.map (L.same (c.qualify_failsOnly _ _).placed) _
  | explicit items =>
    rw [compose, compose, SelectItem.composeAll_eq_mapM, SelectItem.composeAll_eq_mapM]
    exact L.mapM fun i hi => SelectItem.compose_lockstep (h.mono (subset_flatMap_of_mem hi))

theorem Join.composeAll_lockstep {js : List Join}
    (h : AllLockstep L σ s p p' ((js.flatMap (·.on)).flatMap Criterion.subQueries)) :
    L.Rel (composeAll σ p js) (composeAll (σ.withConflict s) p' js) := by
  rw [List.flatMap_assoc] at h
  rw [composeAll_eq_mapM, composeAll_eq_mapM]
  refine L.mapM fun j hj => ?_
  have hcriteria := h.mono (subset_flatMap_of_mem hj)
  have hon := Criterion.composeAll_lockstep hcriteria
  obtain ⟨kind, table, on⟩ := j
  rw [compose, compose, h.alike.level]
  exact L.bind (L.same (table.item_failsOnly _).placed) fun _ _ => L.bind hon fun _ _ => L.ok _

theorem Select.compose_lockstep {q : Select} (h : AllLockstep L σ s p p' q.subQueries) :
    L.Rel (q.compose σ p) (q.compose (σ.withConflict s) p') := by
  cases q with
  | mk target joins filter projection distinct orderBy offset limit lock options =>
    have hprojection := Projection.compose_lockstep target (h.mono (List.subset_append_left _ _))
    have hcriteria := h.mono (List.subset_append_right _ _)
    simp only [criteria, List.flatMap_append] at hcriteria
    have hjoins := Join.composeAll_lockstep (hcriteria.mono (List.subset_append_left _ _))
    have hfilter := Criterion.composeAll_lockstep (hcriteria.mono (List.subset_append_right _ _))
    have horder : L.Rel (orderBy.mapM (·.compose σ p))
        (orderBy.mapM (·.compose (σ.withConflict s) p')) :=
      L.mapM fun i _ => i.compose_lockstep h.alike
    have hlock : Placed (lock.mapM σ.lock) := by
      cases lock with
      | none => exact .ok _
      | some mode => exact (σ.lock_placed mode).bind fun _ _ => .ok _
    rw [compose, compose, h.alike.level]
    exact L.bind (L.same (checkTables_failsOnly _).placed) fun _ _ => L.bind hprojection fun _ _ =>
      L.bind (L.same (target.item_failsOnly _).placed) fun _ _ => L.bind hjoins fun _ _ =>
        L.bind hfilter fun _ _ => L.bind horder fun _ _ =>
          L.bind (L.same hlock) fun _ _ => L.ok _

theorem Assignment.composeUpdate_lockstep {a : Assignment} (target : Table)
    (h : AllLockstep L σ s p p' a.subQueries) :
    L.Rel (a.composeUpdate σ p target) (a.composeUpdate (σ.withConflict s) p' target) := by
  obtain ⟨column, value⟩ := a
  refine L.check (by simp) ?_
  cases value with
  | operand o => exact L.bind (Operand.compose_lockstep h) fun _ _ => L.ok _
  | incoming source => exact L.same (.error (by simp))

theorem Assignment.composeUpsert_lockstep {a : Assignment} (h : AllLockstep L σ s p p' a.subQueries) :
    L.Rel (a.composeUpsert σ p) (a.composeUpsert (σ.withConflict s) p') := by
  obtain ⟨column, value⟩ := a
  cases value with
  | operand o => exact L.bind (Operand.compose_lockstep h) fun _ _ => L.ok _
  | incoming source => exact L.ok _

theorem SubQuery.compose_lockstep {q : SubQuery} (width : Option Nat)
    (hnone : p.enter? q.id = none → ∀ x : Except Error Sql.Select,
      L.Rel (throw (.validation .unregisteredSubQuery)) x)
    (h : ∀ below, p.enter? q.id = some below → ∃ below', p'.enter? q.id = some below' ∧
      L.Rel (q.select.compose σ below) (q.select.compose (σ.withConflict s) below')) :
    L.Rel (q.compose σ p width) (q.compose (σ.withConflict s) p' width) := by
  obtain ⟨id, select⟩ := q
  rw [compose, compose]
  refine L.bind (L.same (Select.checkWidth_failsOnly _ _).placed) fun _ _ => ?_
  cases hbelow : p.enter? id with
  | some below =>
    obtain ⟨below', hbelow', hrel⟩ := h below hbelow
    have hbelow' : p'.enter? id = some below' := hbelow'
    rw [hbelow']
    exact hrel
  | none => exact hnone hbelow _

end

theorem Select.compose_kept {q : Select} (σ : Setting) (s : ConflictSyntax) (p : Position) :
    Lockstep.kept.Rel (q.compose σ p) (q.compose (σ.withConflict s) p) := by
  induction q generalizing p with
  | step q ih =>
    refine compose_lockstep ⟨⟨rfl, rfl⟩, fun r hr width => SubQuery.compose_lockstep width ?_ ?_⟩
    · exact fun _ _ _ h => by cases h
    · exact fun below hbelow => ⟨below, hbelow, ih r hr below⟩

/-- No sub-query reads how upserts are written. -/
theorem SubQuery.allLockstep_kept (σ : Setting) (s : ConflictSyntax) (p : Position)
    (qs : List SubQuery) : AllLockstep .kept σ s p p qs :=
  ⟨⟨rfl, rfl⟩, fun _ _ width => compose_lockstep width (fun _ _ _ h => by cases h)
    fun below hbelow => ⟨below, hbelow, Select.compose_kept σ s below⟩⟩

end SqlCompose
