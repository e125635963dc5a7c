import SqlCompose.Proofs.Compose.Success
import SqlCompose.Proofs.Payload.Agreement
import SqlCompose.Proofs.Payload.Blank

/-! A select and its blanked form are composed alike: neither conditions nor anything else of a level
looks at a payload. -/

namespace SqlCompose

/-- A select and its blanked form are composed alike wherever they stand. -/
def Select.ComposedAlike (σ : Setting) (s : Select) : Prop :=
  ∀ p, SameOutcome Sql.Select.Same (s.compose σ p) (s.blank.compose σ p)

namespace Setting

variable {σ : Setting}

theorem escapeClause_blank (parts : List PatternPart) :
    σ.escapeClause (parts.map PatternPart.blank) = σ.escapeClause parts := by
  simp [escapeClause, List.any_map, Function.comp_def]

end Setting

theorem Operand.patternParts?_blank (option : LikeOption) (o : Operand) :
    o.blank.patternParts? option = (o.patternParts? option).map (List.map PatternPart.blank) := by
  cases o with
  | parameter b =>
    obtain ⟨value, type⟩ := b
    cases value with
    | text t => by_cases h : option = .raw <;> simp [patternParts?, h]
    | _ => rfl
  | _ => simp [patternParts?]

section

variable {σ : Setting} {p : Position}

theorem SubQuery.compose_blank {q : SubQuery} (h : q.select.ComposedAlike σ) (width : Option Nat) :
    SameOutcome Sql.Select.Same (q.compose σ p width) (q.blank.compose σ p width) := by
  obtain ⟨id, select⟩ := q
  rw [blank, compose, compose, Select.width_blank]
  refine .bind_left fun _ => ?_
  cases p.enter? id with
  | none => exact .error _
  | some below => exact h below

theorem Operand.compose_blank {o : Operand} (h : ∀ q ∈ o.subQueries, q.select.ComposedAlike σ) :
    SameOutcome Sql.Expr.Same (o.compose σ p) (o.blank.compose σ p) := by
  cases o with
  | column c => exact .refl (fun e => Piece.Same.refl e.pieces) _
  | outer c => exact .refl (fun e => Piece.Same.refl e.pieces) _
  | parameter b => exact .ok rfl
  | subQuery q =>
    exact (SubQuery.compose_blank (h q List.mem_cons_self) (some 1)).map fun _ _ hs => hs.enclosed
  | pattern parts => exact .ok rfl

theorem Operand.forall_compose_blank {os : List Operand}
    (h : ∀ q ∈ os.flatMap subQueries, q.select.ComposedAlike σ) :
    SameOutcome (List.Forall₂ Sql.Expr.Same) (composeAll σ p os)
      (composeAll σ p (blankAll os)) := by
  rw [composeAll_eq_mapM, composeAll_eq_mapM, blankAll_eq_map]
  refine .mapM (List.forall₂_map_right_iff.mpr (List.forall₂_same.mpr fun o ho => ?_))
  exact compose_blank fun q hq => h q (List.mem_flatMap.mpr ⟨o, ho, hq⟩)

theorem OperandPair.compose_blank {o : OperandPair}
    (h : ∀ q ∈ o.subQueries, q.select.ComposedAlike σ) :
    SameOutcome Sql.ExprPair.Same (o.compose σ p) (o.blank.compose σ p) := by
  obtain ⟨first, second⟩ := o
  rw [blank, compose, compose]
  refine (Operand.compose_blank fun q hq => h q (List.mem_append_left _ hq)).bind fun a a' ha => ?_
  refine (Operand.compose_blank fun q hq => h q (List.mem_append_right _ hq)).bind fun b b' hb => ?_
  exact .ok (.mk ha hb)

theorem OperandPair.forall_compose_blank {os : List OperandPair}
    (h : ∀ q ∈ os.flatMap subQueries, q.select.ComposedAlike σ) :
    SameOutcome (List.Forall₂ Sql.ExprPair.Same) (composeAll σ p os)
      (composeAll σ p (blankAll os)) := by
  rw [composeAll_eq_mapM, composeAll_eq_mapM, blankAll_eq_map]
  refine .mapM (List.forall₂_map_right_iff.mpr (List.forall₂_same.mpr fun o ho => ?_))
  exact compose_blank fun q hq => h q (List.mem_flatMap.mpr ⟨o, ho, hq⟩)

theorem OperandPair.expand_blank {pair o : OperandPair}
    (hpair : ∀ q ∈ pair.subQueries, q.select.ComposedAlike σ)
    (ho : ∀ q ∈ o.subQueries, q.select.ComposedAlike σ) :
    SameOutcome Sql.Condition.Same
      (o.expand σ p (pair.first.compose σ p) (pair.second.compose σ p))
      (o.blank.expand σ p (pair.blank.first.compose σ p) (pair.blank.second.compose σ p)) := by
  obtain ⟨x, y⟩ := o
  obtain ⟨first, second⟩ := pair
  have hfirst := fun q hq => hpair q (List.mem_append_left _ hq)
  have hsecond := fun q hq => hpair q (List.mem_append_right _ hq)
  have hx := fun q hq => ho q (List.mem_append_left _ hq)
  have hy := fun q hq => ho q (List.mem_append_right _ hq)
  refine (Operand.compose_blank hfirst).bind fun a a' ha => ?_
  refine (Operand.compose_blank hx).bind fun b b' hb => ?_
  refine (Operand.compose_blank hsecond).bind fun c c' hc => ?_
  refine (Operand.compose_blank hy).bind fun d d' hd => .ok ?_
  refine (Sql.Condition.Same.chain .and (.cons ?_ (.cons ?_ .nil))).parenthesized
  · exact ha.append (.cons _ hb)
  · exact hc.append (.cons _ hd)

theorem Criterion.forall_compose_blank_of {cs : List Criterion}
    (h : ∀ c ∈ cs, SameOutcome Sql.Condition.Same (c.compose σ p) (c.blank.compose σ p)) :
    SameOutcome (List.Forall₂ Sql.Condition.Same) (composeAll σ p cs)
      (composeAll σ p (blankAll cs)) := by
  rw [composeAll_eq_mapM, composeAll_eq_mapM, blankAll_eq_map]
  exact .mapM (List.forall₂_map_right_iff.mpr (List.forall₂_same.mpr h))

theorem Criterion.compose_pairInList_blank {negated : Bool} {pair : OperandPair}
    {values : List OperandPair} (hpair : ∀ q ∈ pair.subQueries, q.select.ComposedAlike σ)
    (hvalues : ∀ q ∈ values.flatMap OperandPair.subQueries, q.select.ComposedAlike σ) :
    SameOutcome Sql.Condition.Same ((pairInList negated pair values).compose σ p)
      ((pairInList negated pair values).blank.compose σ p) := by
  obtain ⟨first, second⟩ := pair
  rw [blank, OperandPair.blank, compose, compose, OperandPair.blankAll_eq_map, List.isEmpty_map]
  by_cases hnil : values.isEmpty = true
  · simp only [hnil, if_true]
    exact .ok rfl
  simp only [hnil, if_false, ← OperandPair.blankAll_eq_map, Bool.false_eq_true]
  by_cases hrow : σ.dialect.rowValueInList = true
  · simp only [hrow, if_true]
    refine (Operand.compose_blank fun q hq => hpair q (List.mem_append_left _ hq)).bind
      fun a a' ha => ?_
    refine (Operand.compose_blank fun q hq => hpair q (List.mem_append_right _ hq)).bind
      fun b b' hb => ?_
    refine (OperandPair.forall_compose_blank hvalues).bind fun es es' hes => .ok ?_
    simp only [Sql.Condition.Same, Sql.Condition.pieces, Sql.ExprPair.eachPieces_eq_map]
    have hfirst : Sql.ExprPair.Same ⟨a, b⟩ ⟨a', b'⟩ := .mk ha hb
    exact hfirst.append (.cons _ (.enclosed (.separated _ hes)))
  · simp only [hrow, if_false, Bool.false_eq_true, OperandPair.expandAll_eq_mapM,
      OperandPair.blankAll_eq_map]
    refine SameOutcome.map ?_ fun cs cs' hcs => Sql.Condition.Same.expandedRows negated hcs
    refine .mapM (List.forall₂_map_right_iff.mpr (List.forall₂_same.mpr fun o ho => ?_))
    exact OperandPair.expand_blank hpair fun q hq => hvalues q (List.mem_flatMap.mpr ⟨o, ho, hq⟩)

theorem Criterion.compose_blank {c : Criterion}
    (h : ∀ q ∈ c.subQueries, q.select.ComposedAlike σ) :
    SameOutcome Sql.Condition.Same (c.compose σ p) (c.blank.compose σ p) := by
  induction c with
  | compare op left right =>
    rw [blank, compose, compose]
    refine (Operand.compose_blank fun q hq => h q (List.mem_append_left _ hq)).bind
      fun l l' hl => ?_
    refine (Operand.compose_blank fun q hq => h q (List.mem_append_right _ hq)).bind
      fun r r' hr => .ok ?_
    exact hl.append (.cons _ hr)
  | isNull negated o =>
    rw [blank, compose, compose]
    exact (Operand.compose_blank h).bind fun e e' he => .ok (he.append (.refl _))
  | like negated o pattern option =>
    rw [blank, compose, compose, Operand.patternParts?_blank]
    refine (Operand.compose_blank fun q hq => h q (List.mem_append_left _ hq)).bind
      fun e e' he => ?_
    cases pattern.patternParts? option with
    | some parts =>
      simp only [Option.map_some, Setting.escapeClause_blank]
      have hpattern : Sql.Expr.Same (.parameter (.text (σ.patternText parts)))
          (.parameter (.text (σ.patternText (parts.map PatternPart.blank)))) := rfl
      exact .ok ((he.append (.cons _ hpattern)).append (.refl _))
    | none =>
      refine (Operand.compose_blank fun q hq => h q (List.mem_append_right _ hq)).bind
        fun b b' hb => .ok ?_
      exact (he.append (.cons _ hb)).append (.refl _)
  | between negated o low high =>
    rw [blank, compose, compose]
    simp only [subQueries, List.mem_append, or_assoc] at h
    refine (Operand.compose_blank fun q hq => h q (.inl hq)).bind fun e e' he => ?_
    refine (Operand.compose_blank fun q hq => h q (.inr (.inl hq))).bind fun l l' hl => ?_
    refine (Operand.compose_blank fun q hq => h q (.inr (.inr hq))).bind fun u u' hu => .ok ?_
    exact (he.append (.cons _ hl)).append (.cons _ hu)
  | inList negated o values =>
    rw [blank, compose, compose, Operand.blankAll_eq_map, List.isEmpty_map]
    by_cases hnil : values.isEmpty = true
    · simp only [hnil, if_true]
      exact .ok rfl
    · simp only [hnil, if_false, ← Operand.blankAll_eq_map, Bool.false_eq_true]
      refine (Operand.compose_blank fun q hq => h q (List.mem_append_left _ hq)).bind
        fun e e' he => ?_
      refine (Operand.forall_compose_blank fun q hq => h q (List.mem_append_right _ hq)).bind
        fun es es' hes => .ok ?_
      simp only [Sql.Condition.Same, Sql.Condition.pieces, Sql.Expr.eachPieces_eq_map]
      exact he.append (.cons _ (.enclosed (.separated _ hes)))
  | inSubQuery negated o query =>
    rw [blank, compose, compose]
    refine (Operand.compose_blank fun q hq => h q (List.mem_append_left _ hq)).bind
      fun e e' he => ?_
    have hquery := h query (List.mem_append_right _ List.mem_cons_self)
    refine (SubQuery.compose_blank hquery (some 1)).bind fun s s' hs => .ok ?_
    exact he.append (.cons _ hs.enclosed)
  | pairInList negated pair values =>
    exact compose_pairInList_blank (fun q hq => h q (List.mem_append_left _ hq))
      fun q hq => h q (List.mem_append_right _ hq)
  | pairInSubQuery negated pair query =>
    rw [blank, compose, compose]
    refine .bind_left fun _ => ?_
    refine (OperandPair.compose_blank fun q hq => h q (List.mem_append_left _ hq)).bind
      fun row row' hrow => ?_
    have hquery := h query (List.mem_append_right _ List.mem_cons_self)
    refine (SubQuery.compose_blank hquery (some 2)).bind fun s s' hs => .ok ?_
    exact hrow.append (.cons _ hs.enclosed)
  | exists_ negated query =>
    rw [blank, compose, compose]
    refine (SubQuery.compose_blank (h query List.mem_cons_self) none).bind fun s s' hs => .ok ?_
    exact .cons _ hs.enclosed
  | all children ih =>
    rw [blank, compose, compose]
    rw [subQueries_all] at h
    refine (forall_compose_blank_of fun c hc => ih c hc fun q hq => ?_).bind
      fun cs cs' hcs => .ok (Sql.Condition.Same.group .and hcs)
    exact h q (List.mem_flatMap.mpr ⟨c, hc, hq⟩)
  | any children ih =>
    rw [blank, compose, compose]
    rw [subQueries_any] at h
    refine (forall_compose_blank_of fun c hc => ih c hc fun q hq => ?_).bind
      fun cs cs' hcs => .ok (Sql.Condition.Same.group .or hcs)
    exact h q (List.mem_flatMap.mpr ⟨c, hc, hq⟩)
  | not children ih =>
    rw [blank, compose, compose]
    rw [subQueries_not] at h
    refine (forall_compose_blank_of fun c hc => ih c hc fun q hq => ?_).bind
      fun cs cs' hcs => .ok (Sql.Condition.Same.negation hcs)
    exact h q (List.mem_flatMap.mpr ⟨c, hc, hq⟩)

theorem Criterion.forall_compose_blank {cs : List Criterion}
    (h : ∀ q ∈ cs.flatMap subQueries, q.select.ComposedAlike σ) :
    SameOutcome (List.Forall₂ Sql.Condition.Same) (composeAll σ p cs)
      (composeAll σ p (blankAll cs)) :=
  forall_compose_blank_of fun c hc => compose_blank fun q hq =>
    h q (List.mem_flatMap.mpr ⟨c, hc, hq⟩)

theorem SelectItem.compose_blank {i : SelectItem}
    (h : ∀ q ∈ i.subQueries, q.select.ComposedAlike σ) :
    SameOutcome Sql.SelectItem.Same (i.compose σ p) (i.blank.compose σ p) := by
  cases i with
  | column c => exact .refl (fun i => Piece.Same.refl i.pieces) _
  | aggregate a => exact .refl (fun i => Piece.Same.refl i.pieces) _
  | subQuery q =>
    exact (SubQuery.compose_blank (h q List.mem_cons_self) (some 1)).map fun _ _ hs => hs.enclosed

theorem Projection.compose_blank {j : Projection} (target : Table)
    (h : ∀ q ∈ j.subQueries, q.select.ComposedAlike σ) :
    SameOutcome (List.Forall₂ Sql.SelectItem.Same) (j.compose σ p target)
      (j.blank.compose σ p target) := by
  cases j with
  | allColumns =>
    exact .refl (fun is => List.forall₂_same.mpr fun i _ => Piece.Same.refl i.pieces) _
  | explicit items =>
    rw [blank, compose, compose, SelectItem.composeAll_eq_mapM, SelectItem.composeAll_eq_mapM,
      SelectItem.blankAll_eq_map]
    refine .mapM (List.forall₂_map_right_iff.mpr (List.forall₂_same.mpr fun i hi => ?_))
    exact SelectItem.compose_blank fun q hq => h q (List.mem_flatMap.mpr ⟨i, hi, hq⟩)

theorem Join.compose_blank {j : Join}
    (h : ∀ q ∈ j.on.flatMap Criterion.subQueries, q.select.ComposedAlike σ) :
    SameOutcome Sql.Join.Same (j.compose σ p) (j.blank.compose σ p) := by
  obtain ⟨kind, table, on⟩ := j
  rw [blank, compose, compose]
  refine .bind_left fun item => ?_
  refine (Criterion.forall_compose_blank h).bind fun cs cs' hcs => .ok ?_
  exact (Piece.Same.refl _).append (.cons _ (Sql.Condition.Same.conjunction_getD true hcs))

theorem Join.forall_compose_blank {js : List Join}
    (h : ∀ q ∈ (js.flatMap (·.on)).flatMap Criterion.subQueries, q.select.ComposedAlike σ) :
    SameOutcome (List.Forall₂ Sql.Join.Same) (composeAll σ p js)
      (composeAll σ p (blankAll js)) := by
  rw [composeAll_eq_mapM, composeAll_eq_mapM, blankAll_eq_map]
  rw [List.flatMap_assoc] at h
  refine .mapM (List.forall₂_map_right_iff.mpr (List.forall₂_same.mpr fun j hj => ?_))
  exact compose_blank fun q hq => h q (List.mem_flatMap.mpr ⟨j, hj, hq⟩)

/-- A select is composed like its blanked form when the selects that it mentions are. -/
theorem Select.composedAlike_of {s : Select} (h : ∀ q ∈ s.subQueries, q.select.ComposedAlike σ) :
    s.ComposedAlike σ := by
  intro p
  cases s with
  | mk target joins filter projection distinct orderBy offset limit lock options =>
    simp only [subQueries, criteria, List.flatMap_append, List.mem_append] at h
    have htables : (Join.blankAll joins).map (·.table) = joins.map (·.table) := by
      rw [Join.blankAll_eq_map, List.map_map]
      refine List.map_congr_left fun j _ => ?_
      obtain ⟨kind, table, on⟩ := j
      rfl
    rw [blank, compose, compose, htables]
    refine .bind_left fun _ => ?_
    refine (Projection.compose_blank target fun q hq => h q (.inl hq)).bind
      fun items items' hitems => ?_
    refine .bind_left fun source => ?_
    refine (Join.forall_compose_blank fun q hq => h q (.inr (.inl hq))).bind
      fun joined joined' hjoined => ?_
    refine (Criterion.forall_compose_blank fun q hq => h q (.inr (.inr hq))).bind
      fun conditions conditions' hconditions => ?_
    refine .bind_left fun order => ?_
    refine .bind_left fun locked => .ok ?_
    exact .mk hitems hjoined hconditions

end

theorem Select.composedAlike (σ : Setting) (s : Select) : s.ComposedAlike σ := by
  induction s with
  | step s ih => exact composedAlike_of ih

end SqlCompose
