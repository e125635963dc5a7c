import SqlCompose.Compose.Select
import SqlCompose.Proofs.Compose.Success
import SqlCompose.Proofs.Conditions.Tokens

/-! What criteria mean, apart from how they are written. At a given position each criterion has one
meaning at most. -/

namespace SqlCompose

section Readings

variable (σ : Setting) (p : Position)

/-- The tokens of a sub-query that is not refused. -/
def SubQuery.ReadsAs (q : SubQuery) (body : List Lexeme) : Prop :=
  ∃ width s, q.compose σ p width = .ok s ∧ Piece.tokens s.pieces = body

/-- Columns stand behind the alias that the levels give to their table. -/
inductive Operand.ReadsAs : Operand → Term → Prop where
  | column {c : Column} {name : Identifier} (h : Level.resolve? p.visible c.table = some name) :
      ReadsAs (.column c) (.column name.lexeme c.ident.lexeme)
  | outer {c : Column} {name : Identifier} (h : Level.resolve? p.outer c.table = some name) :
      ReadsAs (.outer c) (.column name.lexeme c.ident.lexeme)
  | parameter (b : Bound) : ReadsAs (.parameter b) .parameter
  | pattern (parts : List PatternPart) : ReadsAs (.pattern parts) .parameter
  | subQuery {q : SubQuery} {body : List Lexeme} (h : q.ReadsAs σ p body) :
      ReadsAs (.subQuery q) (.subQuery body)

structure OperandPair.ReadsAs (o : OperandPair) (r : Row) : Prop where
  first : o.first.ReadsAs σ p r.first
  second : o.second.ReadsAs σ p r.second

/-- Both components are equal. -/
def Row.equals (r s : Row) : Reading :=
  .joined .and
    [.predicate (.compare .equal r.first s.first), .predicate (.compare .equal r.second s.second)]

/-- The meaning of a criterion. A list without members holds nothing, and without row values a pair
is compared with each member. -/
inductive Criterion.ReadsAs : Criterion → Reading → Prop where
  | compare {op : Comparison} {left right : Operand} {s t : Term} (hs : left.ReadsAs σ p s)
      (ht : right.ReadsAs σ p t) : ReadsAs (.compare op left right) (.predicate (.compare op s t))
  | isNull {negated : Bool} {o : Operand} {t : Term} (ht : o.ReadsAs σ p t) :
      ReadsAs (.isNull negated o) (.predicate (.isNull negated t))
  | likeParts {negated : Bool} {o pattern : Operand} {option : LikeOption} {t : Term}
      {parts : List PatternPart} (ht : o.ReadsAs σ p t)
      (hparts : pattern.patternParts? option = some parts) :
      ReadsAs (.like negated o pattern option)
        (.predicate (.like negated t .parameter ((σ.escapeClause parts).map fun _ => .parameter)))
  | like {negated : Bool} {o pattern : Operand} {option : LikeOption} {t u : Term}
      (ht : o.ReadsAs σ p t) (hparts : pattern.patternParts? option = none)
      (hu : pattern.ReadsAs σ p u) :
      ReadsAs (.like negated o pattern option) (.predicate (.like negated t u none))
  | between {negated : Bool} {o low high : Operand} {t u v : Term} (ht : o.ReadsAs σ p t)
      (hu : low.ReadsAs σ p u) (hv : high.ReadsAs σ p v) :
      ReadsAs (.between negated o low high) (.predicate (.between negated t u v))
  | inNothing (negated : Bool) (o : Operand) : ReadsAs (.inList negated o []) (.constant negated)
  | inList {negated : Bool} {o : Operand} {values : List Operand} {t : Term} {ts : List Term}
      (hne : values ≠ []) (ht : o.ReadsAs σ p t) (hts : List.Forall₂ (Operand.ReadsAs σ p) values ts) :
      ReadsAs (.inList negated o values) (.predicate (.inList negated t ts))
  | inSubQuery {negated : Bool} {o : Operand} {q : SubQuery} {t : Term} {body : List Lexeme}
      (ht : o.ReadsAs σ p t) (hq : q.ReadsAs σ p body) :
      ReadsAs (.inSubQuery negated o q) (.predicate (.inQuery negated t body))
  | pairInNothing (negated : Bool) (pair : OperandPair) :
      ReadsAs (.pairInList negated pair []) (.constant negated)
  | pairInList {negated : Bool} {pair : OperandPair} {values : List OperandPair} {r : Row}
      {rs : List Row} (hne : values ≠ []) (hrow : σ.dialect.rowValueInList = true)
      (hr : pair.ReadsAs σ p r) (hrs : List.Forall₂ (OperandPair.ReadsAs σ p) values rs) :
      ReadsAs (.pairInList negated pair values) (.predicate (.rowInList negated r rs))
  | pairInExpanded {negated : Bool} {pair : OperandPair} {values : List OperandPair} {r : Row}
      {rs : List Row} (hne : values ≠ []) (hrow : σ.dialect.rowValueInList = false)
      (hr : pair.ReadsAs σ p r) (hrs : List.Forall₂ (OperandPair.ReadsAs σ p) values rs) :
      ReadsAs (.pairInList negated pair values)
        (if negated then .not (.joined .or (rs.map r.equals)) else .joined .or (rs.map r.equals))
  | pairInSubQuery {negated : Bool} {pair : OperandPair} {q : SubQuery} {r : Row}
      {body : List Lexeme} (hr : pair.ReadsAs σ p r) (hq : q.ReadsAs σ p body) :
      ReadsAs (.pairInSubQuery negated pair q) (.predicate (.rowInQuery negated r body))
  | exists {negated : Bool} {q : SubQuery} {body : List Lexeme} (hq : q.ReadsAs σ p body) :
      ReadsAs (.exists negated q) (.predicate (.exists negated body))
  | all {cs : List Criterion} {rs : List Reading} (h : List.Forall₂ ReadsAs cs rs) :
      ReadsAs (.all cs) (.group .and rs)
  | any {cs : List Criterion} {rs : List Reading} (h : List.Forall₂ ReadsAs cs rs) :
      ReadsAs (.any cs) (.group .or rs)
  | not {cs : List Criterion} {rs : List Reading} (h : List.Forall₂ ReadsAs cs rs) :
      ReadsAs (.not cs) (.negation rs)

end Readings

theorem forall₂_unique {α β : Type} {R : α → β → Prop} {xs : List α} {ys zs : List β}
    (hys : List.Forall₂ R xs ys) (hzs : List.Forall₂ R xs zs)
    (hunique : ∀ x ∈ xs, ∀ y z, R x y → R x z → y = z) : ys = zs := by
  induction hys generalizing zs with
  | nil => exact (List.forall₂_nil_left_iff.mp hzs).symm
  | cons hy _ ih =>
    cases hzs with
    | cons hz hzs =>
      rw [hunique _ List.mem_cons_self _ _ hy hz,
        ih hzs fun x hx => hunique x (List.mem_cons_of_mem _ hx)]

section

variable {σ : Setting} {p : Position}

/-- How wide a sub-query has to be makes no difference to what it is. -/
theorem SubQuery.ReadsAs.unique {q : SubQuery} {b c : List Lexeme} (hb : q.ReadsAs σ p b)
    (hc : q.ReadsAs σ p c) : b = c := by
  obtain ⟨_, s, hs, rfl⟩ := hb
  obtain ⟨_, t, ht, rfl⟩ := hc
  obtain ⟨_, child, hchild, hs⟩ := compose_eq_ok_iff.mp hs
  obtain ⟨_, child', hchild', ht⟩ := compose_eq_ok_iff.mp ht
  obtain rfl : child = child' := Option.some.inj (hchild.symm.trans hchild')
  rw [Except.ok.inj (hs.symm.trans ht)]

theorem Operand.ReadsAs.unique {o : Operand} {t u : Term} (ht : o.ReadsAs σ p t)
    (hu : o.ReadsAs σ p u) : t = u := by
  cases ht with
  | column h =>
    cases hu with
    | column h' => rw [Option.some.inj (h.symm.trans h')]
  | outer h =>
    cases hu with
    | outer h' => rw [Option.some.inj (h.symm.trans h')]
  | parameter b => cases hu with | parameter => rfl
  | pattern parts => cases hu with | pattern => rfl
  | subQuery h =>
    cases hu with
    | subQuery h' => rw [h.unique h']

theorem OperandPair.ReadsAs.unique {o : OperandPair} {r s : Row} (hr : o.ReadsAs σ p r)
    (hs : o.ReadsAs σ p s) : r = s := by
  obtain ⟨a, b⟩ := r
  obtain ⟨c, d⟩ := s
  rw [Row.mk.injEq]
  exact ⟨hr.first.unique hs.first, hr.second.unique hs.second⟩

theorem Criterion.ReadsAs.unique {c : Criterion} {r s : Reading} (hr : c.ReadsAs σ p r)
    (hs : c.ReadsAs σ p s) : r = s := by
  induction c generalizing r s with
  | compare op left right =>
    cases hr with
    | compare ha hb =>
      cases hs with
      | compare ha' hb' => rw [ha.unique ha', hb.unique hb']
  | isNull negated o =>
    cases hr with
    | isNull ha =>
      cases hs with
      | isNull ha' => rw [ha.unique ha']
  | like negated o pattern option =>
    cases hr with
    | likeParts ha hparts =>
      cases hs with
      | likeParts ha' hparts' => rw [ha.unique ha', Option.some.inj (hparts.symm.trans hparts')]
      | like _ hparts' _ => rw [hparts] at hparts'; cases hparts'
    | like ha hparts hb =>
      cases hs with
      | likeParts _ hparts' => rw [hparts] at hparts'; cases hparts'
      | like ha' _ hb' => rw [ha.unique ha', hb.unique hb']
  | between negated o low high =>
    cases hr with
    | between ha hb hc =>
      cases hs with
      | between ha' hb' hc' => rw [ha.unique ha', hb.unique hb', hc.unique hc']
  | inList negated o values =>
    cases hr with
    | inNothing =>
      cases hs with
      | inNothing => rfl
      | inList hne _ _ => exact absurd rfl hne
    | inList hne ha hvs =>
      cases hs with
      | inNothing => exact absurd rfl hne
      | inList _ ha' hvs' =>
        rw [ha.unique ha', forall₂_unique hvs hvs' fun _ _ _ _ => Operand.ReadsAs.unique]
  | inSubQuery negated o query =>
    cases hr with
    | inSubQuery ha hq =>
      cases hs with
      | inSubQuery ha' hq' => rw [ha.unique ha', hq.unique hq']
  | pairInList negated pair values =>
    cases hr with
    | pairInNothing =>
      cases hs with
      | pairInNothing => rfl
      | pairInList hne _ _ _ => exact absurd rfl hne
      | pairInExpanded hne _ _ _ => exact absurd rfl hne
    | pairInList hne hrow ha hvs =>
      cases hs with
      | pairInNothing => exact absurd rfl hne
      | pairInList _ _ ha' hvs' =>
        rw [ha.unique ha', forall₂_unique hvs hvs' fun _ _ _ _ => OperandPair.ReadsAs.unique]
      | pairInExpanded _ hrow' _ _ => rw [hrow] at hrow'; cases hrow'
    | pairInExpanded hne hrow ha hvs =>
      cases hs with
      | pairInNothing => exact absurd rfl hne
      | pairInList _ hrow' _ _ => rw [hrow] at hrow'; cases hrow'
      | pairInExpanded _ _ ha' hvs' =>
        rw [ha.unique ha', forall₂_unique hvs hvs' fun _ _ _ _ => OperandPair.ReadsAs.unique]
  | pairInSubQuery negated pair query =>
    cases hr with
    | pairInSubQuery ha hq =>
      cases hs with
      | pairInSubQuery ha' hq' => rw [ha.unique ha', hq.unique hq']
  | exists_ negated query =>
    cases hr with
    | «exists» hq =>
      cases hs with
      | «exists» hq' => rw [hq.unique hq']
  | all children ih =>
    cases hr with
    | all hcs =>
      cases hs with
      | all hcs' => rw [forall₂_unique hcs hcs' fun c hc _ _ => ih c hc]
  | any children ih =>
    cases hr with
    | any hcs =>
      cases hs with
      | any hcs' => rw [forall₂_unique hcs hcs' fun c hc _ _ => ih c hc]
  | not children ih =>
    cases hr with
    | not hcs =>
      cases hs with
      | not hcs' => rw [forall₂_unique hcs hcs' fun c hc _ _ => ih c hc]

end

end SqlCompose
