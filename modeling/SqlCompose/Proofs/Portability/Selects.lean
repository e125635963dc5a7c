import SqlCompose.Proofs.Portability.Filters
import SqlCompose.Proofs.Portability.Outcomes

/-! Selects under two dialects that write LIKE patterns alike. Unless one of them lacks a construct,
what a select is composed to binds the same values. -/

namespace SqlCompose

/-- Patterns are written alike: the same sequence escapes, and it escapes the same. -/
structure Setting.SameLike (σ σ' : Setting) : Prop where
  escape_eq : σ.escape = σ'.escape
  escaped_eq : ∀ text, Like.escape σ.escape σ.dialect.wildcards text =
    Like.escape σ'.escape σ'.dialect.wildcards text

/-- Wherever the select stands, it binds the same values in both settings. -/
def Select.Portable (σ σ' : Setting) (s : Select) : Prop :=
  ∀ p, UpToSupport (fun t t' => t.values = t'.values) (s.compose σ p) (s.compose σ' p)

section

variable {σ σ' : Setting} {p : Position}

namespace Setting.SameLike

variable (hlike : σ.SameLike σ')

include hlike

theorem escapeText_eq (text : String) : σ.escapeText text = σ'.escapeText text := by
  have hempty : σ.escape.isEmpty = σ'.escape.isEmpty := congrArg String.isEmpty hlike.escape_eq
  unfold escapeText
  rw [hempty, hlike.escaped_eq]

theorem patternText_eq (parts : List PatternPart) : σ.patternText parts = σ'.patternText parts := by
  have hpart : ∀ part, σ.partText part = σ'.partText part := by
    intro part
    unfold partText
    rw [hlike.escapeText_eq]
  unfold patternText
  rw [List.map_congr_left fun part _ => hpart part]

theorem escapeClause_eq (parts : List PatternPart) :
    σ.escapeClause parts = σ'.escapeClause parts := by
  unfold escapeClause
  rw [hlike.escape_eq]

end Setting.SameLike

theorem SubQuery.compose_portable {q : SubQuery} (h : q.select.Portable σ σ')
    (width : Option Nat) :
    UpToSupport (fun t t' => t.values = t'.values) (q.compose σ p width)
      (q.compose σ' p width) := by
  obtain ⟨id, select⟩ := q
  rw [compose, compose]
  refine .bind_left fun _ _ => ?_
  cases p.enter? id with
  | none => exact .error _
  | some below => exact h below

theorem Criterion.composeAll_portable_of {cs : List Criterion}
    (h : ∀ c ∈ cs,
      UpToSupport (fun e e' => e.values = e'.values) (c.compose σ p) (c.compose σ' p)) :
    UpToSupport (List.Forall₂ fun e e' => e.values = e'.values) (composeAll σ p cs)
      (composeAll σ' p cs) := by
  rw [composeAll_eq_mapM, composeAll_eq_mapM]
  exact .mapM (List.forall₂_same.mpr h)

theorem Criterion.composeNode_portable {node : List Sql.Condition → Sql.Condition}
    (hnode : ∀ es, (node es).values = es.flatMap Sql.Condition.values) {cs : List Criterion}
    (h : ∀ c ∈ cs,
      UpToSupport (fun e e' => e.values = e'.values) (c.compose σ p) (c.compose σ' p)) :
    UpToSupport (fun e e' => e.values = e'.values) (do return node (← composeAll σ p cs))
      (do return node (← composeAll σ' p cs)) := by
  refine (composeAll_portable_of h).bind fun es es' hes => .ok ?_
  rw [hnode, hnode, flatMap_eq_of_forall₂ hes]

theorem SelectItem.compose_portable {i : SelectItem}
    (h : ∀ q ∈ i.subQueries, q.select.Portable σ σ') :
    UpToSupport (fun e e' => e.values = e'.values) (i.compose σ p) (i.compose σ' p) := by
  cases i with
  | column c =>
    rw [compose, compose]
    exact .refl (fun i => Eq.refl i.values) _
  | aggregate a =>
    rw [compose, compose]
    exact .refl (fun i => Eq.refl i.values) _
  | subQuery q =>
    rw [compose, compose]
    refine (SubQuery.compose_portable (h q List.mem_cons_self) (some 1)).map fun t t' ht => ?_
    rw [Sql.SelectItem.values_subQuery, Sql.SelectItem.values_subQuery, ht]

theorem Projection.compose_portable {j : Projection} (target : Table)
    (h : ∀ q ∈ j.subQueries, q.select.Portable σ σ') :
    UpToSupport (List.Forall₂ fun e e' => e.values = e'.values) (j.compose σ p target)
      (j.compose σ' p target) := by
  cases j with
  | allColumns =>
    rw [compose, compose]
    exact .refl (fun _ => List.forall₂_same.mpr fun i _ => Eq.refl i.values) _
  | explicit items =>
    rw [compose, compose, SelectItem.composeAll_eq_mapM, SelectItem.composeAll_eq_mapM]
    refine .mapM (List.forall₂_same.mpr fun i hi => ?_)
    exact SelectItem.compose_portable fun q hq => h q (List.mem_flatMap.mpr ⟨i, hi, hq⟩)

theorem SortItem.compose_upToSupport (i : SortItem) :
    UpToSupport (fun _ _ => True) (i.compose σ p) (i.compose σ' p) := by
  unfold compose
  refine .bind_left fun name _ => ?_
  by_cases hnulls : i.nulls.isSome = true
  · simp only [hnulls, if_true]
    exact (Setting.require_upToSupport _ _ _).bind fun _ _ _ => .ok trivial
  · simp only [hnulls, if_false, Bool.false_eq_true]
    exact .ok trivial

theorem Select.lock_upToSupport (lock : Option LockWait) :
    UpToSupport (fun _ _ => True) (lock.mapM σ.lock) (lock.mapM σ'.lock) := by
  cases lock with
  | none => exact .ok trivial
  | some mode => exact (Setting.lock_upToSupport mode).map fun _ _ _ => trivial

variable (hlike : σ.SameLike σ')

include hlike

theorem Operand.compose_portable {o : Operand} (h : ∀ q ∈ o.subQueries, q.select.Portable σ σ') :
    UpToSupport (fun e e' => e.values = e'.values) (o.compose σ p) (o.compose σ' p) := by
  cases o with
  | column c =>
    rw [compose, compose]
    exact .refl (fun e => Eq.refl e.values) _
  | outer c =>
    rw [compose, compose]
    exact .refl (fun e => Eq.refl e.values) _
  | parameter b => exact .ok rfl
  | subQuery q =>
    rw [compose, compose]
    refine (SubQuery.compose_portable (h q List.mem_cons_self) (some 1)).map fun t t' ht => ?_
    rw [Sql.Expr.values_subQuery, Sql.Expr.values_subQuery, ht]
  | pattern parts =>
    rw [compose, compose, hlike.patternText_eq]
    exact .ok rfl

theorem Operand.composeAll_portable {os : List Operand}
    (h : ∀ q ∈ os.flatMap subQueries, q.select.Portable σ σ') :
    UpToSupport (List.Forall₂ fun e e' => e.values = e'.values) (composeAll σ p os)
      (composeAll σ' p os) := by
  rw [composeAll_eq_mapM, composeAll_eq_mapM]
  refine .mapM (List.forall₂_same.mpr fun o ho => ?_)
  exact compose_portable hlike fun q hq => h q (List.mem_flatMap.mpr ⟨o, ho, hq⟩)

theorem OperandPair.compose_portable {o : OperandPair}
    (h : ∀ q ∈ o.subQueries, q.select.Portable σ σ') :
    UpToSupport (fun r r' => r.values = r'.values) (o.compose σ p) (o.compose σ' p) := by
  obtain ⟨first, second⟩ := o
  have hfirst := fun q hq => h q (List.mem_append_left _ hq)
  have hsecond := fun q hq => h q (List.mem_append_right _ hq)
  rw [compose, compose]
  refine (Operand.compose_portable hlike hfirst).bind fun a a' ha => ?_
  refine (Operand.compose_portable hlike hsecond).bind fun b b' hb => .ok ?_
  rw [Sql.ExprPair.values_mk, Sql.ExprPair.values_mk, ha, hb]

namespace Criterion

/-- Row values or not, a list of pairs binds the same, so only what a dialect lacks makes a
difference. -/
theorem compose_portable {c : Criterion} (hc : c.PairsColumns)
    (h : ∀ q ∈ c.subQueries, q.select.Portable σ σ') :
    UpToSupport (fun e e' => e.values = e'.values) (c.compose σ p) (c.compose σ' p) := by
  induction hc with
  | compare op left right =>
    have hleft := fun q hq => h q (List.mem_append_left _ hq)
    have hright := fun q hq => h q (List.mem_append_right _ hq)
    rw [compose, compose]
    refine (Operand.compose_portable hlike hleft).bind fun l l' hl => ?_
    refine (Operand.compose_portable hlike hright).bind fun r r' hr => .ok ?_
    rw [Sql.Condition.values_compare, Sql.Condition.values_compare, hl, hr]
  | isNull negated o =>
    rw [compose, compose]
    refine (Operand.compose_portable hlike h).bind fun e e' he => .ok ?_
    rw [Sql.Condition.values_isNull, Sql.Condition.values_isNull, he]
  | like negated o pattern option =>
    have hfirst := fun q hq => h q (List.mem_append_left _ hq)
    have hpattern := fun q hq => h q (List.mem_append_right _ hq)
    rw [compose, compose]
    refine (Operand.compose_portable hlike hfirst).bind fun e e' he => ?_
    cases pattern.patternParts? option with
    | some parts =>
      refine .ok ?_
      rw [Sql.Condition.values_like, Sql.Condition.values_like, he, hlike.patternText_eq,
        hlike.escapeClause_eq]
    | none =>
      refine (Operand.compose_portable hlike hpattern).bind fun b b' hb => .ok ?_
      rw [Sql.Condition.values_like, Sql.Condition.values_like, he, hb]
  | between negated o low high =>
    simp only [subQueries, List.mem_append, or_assoc] at h
    rw [compose, compose]
    refine (Operand.compose_portable hlike fun q hq => h q (.inl hq)).bind fun e e' he => ?_
    refine (Operand.compose_portable hlike fun q hq => h q (.inr (.inl hq))).bind
      fun l l' hl => ?_
    refine (Operand.compose_portable hlike fun q hq => h q (.inr (.inr hq))).bind
      fun u u' hu => .ok ?_
    rw [Sql.Condition.values_between, Sql.Condition.values_between, he, hl, hu]
  | inList negated o values =>
    have hfirst := fun q hq => h q (List.mem_append_left _ hq)
    have hvalues := fun q hq => h q (List.mem_append_right _ hq)
    rw [compose, compose]
    by_cases hnil : values.isEmpty = true
    · simp only [hnil, if_true]
      exact .ok rfl
    · simp only [hnil, if_false, Bool.false_eq_true]
      refine (Operand.compose_portable hlike hfirst).bind fun e e' he => ?_
      refine (Operand.composeAll_portable hlike hvalues).bind fun es es' hes => .ok ?_
      rw [Sql.Condition.values_inList, Sql.Condition.values_inList, he, flatMap_eq_of_forall₂ hes]
  | inSubQuery negated o query =>
    have hfirst := fun q hq => h q (List.mem_append_left _ hq)
    have hquery := h query (List.mem_append_right _ List.mem_cons_self)
    rw [compose, compose]
    refine (Operand.compose_portable hlike hfirst).bind fun e e' he => ?_
    refine (SubQuery.compose_portable hquery (some 1)).bind fun t t' ht => .ok ?_
    rw [Sql.Condition.values_inSubQuery, Sql.Condition.values_inSubQuery, he, ht]
  | pairInList negated hpair xs => exact .same (pairInList_sameValues hpair xs)
  | pairInSubQuery negated pair query =>
    have hfirst := fun q hq => h q (List.mem_append_left _ hq)
    have hquery := h query (List.mem_append_right _ List.mem_cons_self)
    rw [compose, compose]
    refine (Setting.require_upToSupport _ _ _).bind fun _ _ _ => ?_
    refine (OperandPair.compose_portable hlike hfirst).bind fun r r' hr => ?_
    refine (SubQuery.compose_portable hquery (some 2)).bind fun t t' ht => .ok ?_
    rw [Sql.Condition.values_rowInSubQuery, Sql.Condition.values_rowInSubQuery, hr, ht]
  | «exists» negated query =>
    rw [compose, compose]
    refine (SubQuery.compose_portable (h query List.mem_cons_self) none).bind
      fun t t' ht => .ok ?_
    rw [Sql.Condition.values_exists, Sql.Condition.values_exists, ht]
  | all _ ih =>
    rw [subQueries_all] at h
    have hchildren := fun c hc => ih c hc fun q hq => h q (List.mem_flatMap.mpr ⟨c, hc, hq⟩)
    rw [compose, compose]
    exact composeNode_portable (Sql.Condition.values_group _) hchildren
  | any _ ih =>
    rw [subQueries_any] at h
    have hchildren := fun c hc => ih c hc fun q hq => h q (List.mem_flatMap.mpr ⟨c, hc, hq⟩)
    rw [compose, compose]
    exact composeNode_portable (Sql.Condition.values_group _) hchildren
  | not _ ih =>
    rw [subQueries_not] at h
    have hchildren := fun c hc => ih c hc fun q hq => h q (List.mem_flatMap.mpr ⟨c, hc, hq⟩)
    rw [compose, compose]
    exact composeNode_portable Sql.Condition.values_negation hchildren

theorem composeAll_portable {cs : List Criterion} (hcs : Called cs)
    (h : ∀ q ∈ cs.flatMap subQueries, q.select.Portable σ σ') :
    UpToSupport (List.Forall₂ fun e e' => e.values = e'.values) (composeAll σ p cs)
      (composeAll σ' p cs) :=
  composeAll_portable_of fun c hc => compose_portable hlike (hcs.pairsColumns c hc)
    fun q hq => h q (List.mem_flatMap.mpr ⟨c, hc, hq⟩)

end Criterion

theorem Join.composeAll_portable {js : List Join} (hjs : ∀ j ∈ js, Criterion.Called j.on)
    (h : ∀ q ∈ (js.flatMap (·.on)).flatMap Criterion.subQueries, q.select.Portable σ σ') :
    UpToSupport (List.Forall₂ fun e e' => e.values = e'.values) (composeAll σ p js)
      (composeAll σ' p js) := by
  rw [composeAll_eq_mapM, composeAll_eq_mapM]
  rw [List.flatMap_assoc] at h
  refine .mapM (List.forall₂_same.mpr fun j hj => ?_)
  have hon := fun q hq => h q (List.mem_flatMap.mpr ⟨j, hj, hq⟩)
  have hcalled := hjs j hj
  obtain ⟨kind, table, on⟩ := j
  rw [compose, compose]
  refine .bind_left fun item _ => ?_
  refine (Criterion.composeAll_portable hlike hcalled hon).bind fun cs cs' hcs => .ok ?_
  rw [Sql.Join.values_mk, Sql.Join.values_mk, Sql.Condition.values_conjunction_getD,
    Sql.Condition.values_conjunction_getD, flatMap_eq_of_forall₂ hcs]

theorem Select.portable_of {s : Select} (hs : s.Called)
    (h : ∀ q ∈ s.subQueries, q.select.Portable σ σ') : s.Portable σ σ' := by
  intro p
  obtain ⟨hfilter, hjoins⟩ := hs
  cases s with
  | mk target joins filter projection distinct orderBy offset limit lock options =>
    simp only [subQueries, criteria, List.flatMap_append, List.mem_append] at h
    have horder : UpToSupport (List.Forall₂ fun _ _ => True) (orderBy.mapM (·.compose σ p))
        (orderBy.mapM (·.compose σ' p)) :=
      .mapM (List.forall₂_same.mpr fun i _ => i.compose_upToSupport)
    rw [compose, compose]
    refine .bind_left fun _ _ => ?_
    refine (Projection.compose_portable target fun q hq => h q (.inl hq)).bind
      fun items items' hitems => ?_
    refine .bind_left fun source _ => ?_
    refine (Join.composeAll_portable hlike hjoins fun q hq => h q (.inr (.inl hq))).bind
      fun joined joined' hjoined => ?_
    refine (Criterion.composeAll_portable hlike hfilter fun q hq => h q (.inr (.inr hq))).bind
      fun conditions conditions' hconditions => ?_
    refine horder.bind fun order order' _ => ?_
    refine (lock_upToSupport lock).bind fun locked locked' _ => .ok ?_
    rw [Sql.Select.values_mk, Sql.Select.values_mk, flatMap_eq_of_forall₂ hitems,
      flatMap_eq_of_forall₂ hjoined, flatMap_eq_of_forall₂ hconditions]

/-- The levels of a select are portable from the innermost outwards. -/
theorem Select.Called.portable {s : Select} (h : s.Everywhere Called) : s.Portable σ σ' := by
  induction s with
  | step s ih => exact portable_of hlike h.here fun q hq => ih q hq (h.inside q hq)

end

end SqlCompose
