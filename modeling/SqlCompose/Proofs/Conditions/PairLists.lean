import SqlCompose.Proofs.Compose.Parameters
import SqlCompose.Proofs.Conditions.Truth
import SqlCompose.Proofs.Payload.Agreement
import SqlCompose.Proofs.Sql.Values

/-! The two forms of a list of pairs. Whether a pair is looked for among row values or compared with
each of them, the condition has one truth value, and pairs of columns bind the same values. -/

namespace SqlCompose

/-- An operand has one value, whichever of the two settings it is written in. -/
def Valuation.Steady {V : Type} (v : Valuation V) (σ σ' : Setting) (p : Position)
    (o : Operand) : Prop :=
  ∀ e e', o.compose σ p = .ok e → o.compose σ' p = .ok e' → v.value e = v.value e'

def Operand.BindsAlike (σ σ' : Setting) (p : Position) (o : Operand) : Prop :=
  ∀ e e', o.compose σ p = .ok e → o.compose σ' p = .ok e' → e.values = e'.values

namespace Sql.Condition

variable {V : Type} (v : Valuation V)

theorem truth_bothEqual (a x b y : Expr) :
    (bothEqual a x b y).truth v = v.rowsEqual (v.row ⟨a, b⟩) (v.row ⟨x, y⟩) := rfl

theorem truth_expandedRows (negated : Bool) (cs : List Condition) :
    (expandedRows negated cs).truth v = .negateIf negated (.any (cs.map (truth v))) := by
  cases negated <;> simp [expandedRows, truth, truths_eq_map, Truth.negateIf]

end Sql.Condition

theorem map_eq_map_of_forall₂ {α β γ δ : Type} {R : α → β → Prop} {S : α → γ → Prop}
    {f : β → δ} {g : γ → δ} {xs : List α} {ys : List β} {zs : List γ}
    (hys : List.Forall₂ R xs ys) (hzs : List.Forall₂ S xs zs)
    (h : ∀ x ∈ xs, ∀ y z, R x y → S x z → f y = g z) : ys.map f = zs.map g := by
  induction hys generalizing zs with
  | nil => rw [List.forall₂_nil_left_iff.mp hzs, List.map_nil, List.map_nil]
  | cons hxy _ ih =>
    cases hzs with
    | cons hxz hzs =>
      rw [List.map_cons, List.map_cons, h _ List.mem_cons_self _ _ hxy hxz,
        ih hzs fun x hx => h x (List.mem_cons_of_mem _ hx)]

def Operand.IsColumn : Operand → Prop
  | .column _ => True
  | .outer _ => True
  | _ => False

namespace OperandPair

def IsColumns (o : OperandPair) : Prop := o.first.IsColumn ∧ o.second.IsColumn

def parameters (x : Bound × Bound) : OperandPair := ⟨.parameter x.1, .parameter x.2⟩

end OperandPair

section

variable {σ σ' : Setting} {p : Position}

/-- Comparing with one member of the list says what a row value says of it. -/
theorem OperandPair.truth_expand {V : Type} {v : Valuation V} {pair o : OperandPair}
    {row r : Sql.ExprPair} {c : Sql.Condition}
    (hv : ∀ x ∈ pair.operands ++ o.operands, v.Steady σ σ' p x)
    (hrow : pair.compose σ p = .ok row) (hr : o.compose σ p = .ok r)
    (hc : o.expand σ' p (pair.first.compose σ' p) (pair.second.compose σ' p) = .ok c) :
    v.rowsEqual (v.row row) (v.row r) = c.truth v := by
  obtain ⟨a, ha, b, hb, rfl⟩ := compose_eq_ok_iff.mp hrow
  obtain ⟨x, hx, y, hy, rfl⟩ := compose_eq_ok_iff.mp hr
  obtain ⟨a', ha', x', hx', b', hb', y', hy', rfl⟩ := expand_eq_ok_iff.mp hc
  have hfirst : v.value a = v.value a' := hv pair.first (by simp) a a' ha ha'
  have hsecond : v.value b = v.value b' := hv pair.second (by simp) b b' hb hb'
  have hleft : v.value x = v.value x' := hv o.first (by simp) x x' hx hx'
  have hright : v.value y = v.value y' := hv o.second (by simp) y y' hy hy'
  rw [Sql.Condition.truth_bothEqual]
  simp only [Valuation.row, hfirst, hsecond, hleft, hright]

/-- Either no pair is listed, and both forms are one constant, or each form has a member for each
pair. -/
theorem Criterion.pairInList_forms {negated : Bool} {pair : OperandPair}
    {values : List OperandPair} {e e' : Sql.Condition}
    (hσ : σ.dialect.rowValueInList = true) (hσ' : σ'.dialect.rowValueInList = false)
    (h : (pairInList negated pair values).compose σ p = .ok e)
    (h' : (pairInList negated pair values).compose σ' p = .ok e') :
    e = e' ∨ ∃ row, pair.compose σ p = .ok row ∧
      ∃ vs, List.Forall₂ (fun o r => o.compose σ p = .ok r) values vs ∧
      ∃ cs, List.Forall₂ (fun o c =>
        o.expand σ' p (pair.first.compose σ' p) (pair.second.compose σ' p) = .ok c) values cs ∧
      e = .rowInList negated row vs ∧ e' = .expandedRows negated cs := by
  by_cases hnil : values = []
  · subst hnil
    rw [compose_pairInList_nil, Except.ok.injEq] at h h'
    exact .inl (h.symm.trans h')
  · obtain ⟨row, hrow, vs, hvs, rfl⟩ := (compose_pairInList_eq_ok_iff hnil hσ).mp h
    obtain ⟨cs, hcs, rfl⟩ := (compose_pairInList_expanded_eq_ok_iff hnil hσ').mp h'
    exact .inr ⟨row, hrow, vs, hvs, cs, hcs, rfl, rfl⟩

theorem Criterion.truth_pairInList {V : Type} {v : Valuation V} {negated : Bool}
    {pair : OperandPair} {values : List OperandPair} {e e' : Sql.Condition}
    (hσ : σ.dialect.rowValueInList = true) (hσ' : σ'.dialect.rowValueInList = false)
    (hv : ∀ o ∈ (pairInList negated pair values).operands, v.Steady σ σ' p o)
    (h : (pairInList negated pair values).compose σ p = .ok e)
    (h' : (pairInList negated pair values).compose σ' p = .ok e') : e.truth v = e'.truth v := by
  rcases pairInList_forms hσ hσ' h h' with rfl | ⟨row, hrow, vs, hvs, cs, hcs, rfl, rfl⟩
  · rfl
  have hmembers : vs.map (fun r => v.rowsEqual (v.row row) (v.row r)) =
      cs.map (Sql.Condition.truth v) := by
    refine map_eq_map_of_forall₂ hvs hcs fun o ho r c hr hc => ?_
    refine OperandPair.truth_expand (fun x hx => hv x ?_) hrow hr hc
    rcases List.mem_append.mp hx with hx | hx
    · exact List.mem_append_left _ hx
    · exact List.mem_append_right _ (List.mem_flatMap.mpr ⟨o, ho, hx⟩)
  rw [Sql.Condition.truth_expandedRows, Sql.Condition.truth, Valuation.rowAmong, List.map_map,
    ← hmembers]
  rfl

theorem Valuation.Steady.of_eq {V : Type} {v : Valuation V} {o : Operand}
    (h : o.compose σ p = o.compose σ' p) : v.Steady σ σ' p o := by
  intro e e' he he'
  rw [h, he', Except.ok.injEq] at he
  rw [he]

theorem Operand.BindsAlike.of_eq {o : Operand} (h : o.compose σ p = o.compose σ' p) :
    o.BindsAlike σ σ' p := by
  intro e e' he he'
  rw [h, he', Except.ok.injEq] at he
  rw [he]

theorem Operand.IsColumn.compose_eq {o : Operand} (h : o.IsColumn) :
    o.compose σ p = o.compose σ' p := by
  cases o with
  | column c => simp only [Operand.compose]
  | outer c => simp only [Operand.compose]
  | _ => exact absurd h id

theorem Operand.IsColumn.values_eq_nil {o : Operand} {e : Sql.Expr} (ho : o.IsColumn)
    (h : o.compose σ p = .ok e) : e.values = [] := by
  cases o with
  | column c =>
    obtain ⟨n, _, rfl⟩ := compose_column_eq_ok_iff.mp h
    exact Sql.Expr.values_column n
  | outer c =>
    obtain ⟨n, _, rfl⟩ := compose_outer_eq_ok_iff.mp h
    exact Sql.Expr.values_column n
  | _ => exact absurd ho id

namespace OperandPair

def row (x : Bound × Bound) : Sql.ExprPair := ⟨.parameter x.1, .parameter x.2⟩

theorem compose_parameters (x : Bound × Bound) : (parameters x).compose σ p = .ok (row x) :=
  compose_eq_ok_iff.mpr ⟨_, Operand.compose_parameter_eq_ok_iff.mpr rfl, _,
    Operand.compose_parameter_eq_ok_iff.mpr rfl, rfl⟩

theorem composeAll_parameters (xs : List (Bound × Bound)) :
    composeAll σ p (xs.map parameters) = .ok (xs.map row) := by
  rw [composeAll_eq_mapM, mapM_eq_ok_iff, List.forall₂_map_left_iff, List.forall₂_map_right_iff]
  exact List.forall₂_same.mpr fun x _ => compose_parameters x

theorem expandAll_parameters (a b : Sql.Expr) (xs : List (Bound × Bound)) :
    expandAll σ p (.ok a) (.ok b) (xs.map parameters) =
      .ok (xs.map fun x => .bothEqual a (.parameter x.1) b (.parameter x.2)) := by
  rw [expandAll_eq_mapM, mapM_eq_ok_iff, List.forall₂_map_left_iff, List.forall₂_map_right_iff]
  exact List.forall₂_same.mpr fun x _ => expand_eq_ok_iff.mpr
    ⟨a, rfl, _, Operand.compose_parameter_eq_ok_iff.mpr rfl, b, rfl, _,
      Operand.compose_parameter_eq_ok_iff.mpr rfl, rfl⟩

end OperandPair

/-- Writing a pair of columns beside each member adds nothing to what the members bind. -/
theorem Criterion.values_pairInList {negated : Bool} {pair : OperandPair}
    {values : List OperandPair} {e e' : Sql.Condition} (hpair : pair.IsColumns)
    (hσ : σ.dialect.rowValueInList = true) (hσ' : σ'.dialect.rowValueInList = false)
    (hvalues : ∀ o ∈ values.flatMap OperandPair.operands, o.BindsAlike σ σ' p)
    (h : (pairInList negated pair values).compose σ p = .ok e)
    (h' : (pairInList negated pair values).compose σ' p = .ok e') : e.values = e'.values := by
  rcases pairInList_forms hσ hσ' h h' with rfl | ⟨row, hrow, vs, hvs, cs, hcs, rfl, rfl⟩
  · rfl
  have hmembers : vs.map Sql.ExprPair.values = cs.map Sql.Condition.values := by
    refine map_eq_map_of_forall₂ hvs hcs fun o ho r c hr hc => ?_
    obtain ⟨x, hx, y, hy, rfl⟩ := OperandPair.compose_eq_ok_iff.mp hr
    obtain ⟨a, ha, x', hx', b, hb, y', hy', rfl⟩ := OperandPair.expand_eq_ok_iff.mp hc
    have hleft : x.values = x'.values :=
      hvalues _ (List.mem_flatMap.mpr ⟨o, ho, by simp⟩) x x' hx hx'
    have hright : y.values = y'.values :=
      hvalues _ (List.mem_flatMap.mpr ⟨o, ho, by simp⟩) y y' hy hy'
    rw [Sql.ExprPair.values_mk, Sql.Condition.values_bothEqual, hpair.1.values_eq_nil ha,
      hpair.2.values_eq_nil hb, hleft, hright]
    rfl
  have hrowNone : row.values = [] := by
    obtain ⟨a, ha, b, hb, rfl⟩ := OperandPair.compose_eq_ok_iff.mp hrow
    rw [Sql.ExprPair.values_mk, hpair.1.values_eq_nil ha, hpair.2.values_eq_nil hb]
    rfl
  rw [Sql.Condition.values_rowInList, Sql.Condition.values_expandedRows, hrowNone,
    List.nil_append, List.flatMap_def, List.flatMap_def, hmembers]

/-- Values never fail, so a failure is that of the first component or else that of the second. -/
theorem OperandPair.expandAll_parameters_eq {first second : Operand} {xs : List (Bound × Bound)}
    (hne : xs ≠ []) :
    expandAll σ p (first.compose σ p) (second.compose σ p) (xs.map parameters) = (do
      let a ← first.compose σ p
      let b ← second.compose σ p
      return xs.map fun x => .bothEqual a (.parameter x.1) b (.parameter x.2)) := by
  obtain ⟨x, xs, rfl⟩ := List.exists_cons_of_ne_nil hne
  cases hfirst : first.compose σ p with
  | error e => rfl
  | ok a =>
    cases hsecond : second.compose σ p with
    | error e =>
      simp only [List.map_cons, parameters, expandAll, Operand.compose]
      rfl
    | ok b => exact expandAll_parameters a b (x :: xs)

theorem Criterion.compose_pairInList_parameters {negated : Bool} {pair : OperandPair}
    {xs : List (Bound × Bound)} (hne : xs ≠ []) :
    (pairInList negated pair (xs.map .parameters)).compose σ p = (do
      let a ← pair.first.compose σ p
      let b ← pair.second.compose σ p
      return if σ.dialect.rowValueInList then .rowInList negated ⟨a, b⟩ (xs.map OperandPair.row)
        else .expandedRows negated
          (xs.map fun x => .bothEqual a (.parameter x.1) b (.parameter x.2))) := by
  obtain ⟨first, second⟩ := pair
  have hempty : (xs.map OperandPair.parameters).isEmpty = false := by simpa using hne
  simp only [compose, hempty, Bool.false_eq_true, if_false, OperandPair.composeAll_parameters,
    OperandPair.expandAll_parameters_eq hne]
  by_cases hrow : σ.dialect.rowValueInList = true
  · simp only [hrow, if_true]
    rfl
  · simp only [hrow, if_false, Bool.false_eq_true, bind_assoc, pure_bind]

/-- Whatever form each of the settings chooses, two columns among pairs of values fail alike or bind
the same. -/
theorem Criterion.pairInList_sameValues {negated : Bool} {pair : OperandPair}
    (hpair : pair.IsColumns) (xs : List (Bound × Bound)) :
    SameOutcome (fun e e' => e.values = e'.values)
      ((pairInList negated pair (xs.map .parameters)).compose σ p)
      ((pairInList negated pair (xs.map .parameters)).compose σ' p) := by
  by_cases hnil : xs = []
  · subst hnil
    rw [List.map_nil, compose_pairInList_nil, compose_pairInList_nil]
    exact .ok rfl
  obtain ⟨hfirst, hsecond⟩ := hpair
  have hfirst' : pair.first.compose σ' p = pair.first.compose σ p := hfirst.compose_eq
  have hsecond' : pair.second.compose σ' p = pair.second.compose σ p := hsecond.compose_eq
  rw [compose_pairInList_parameters hnil, compose_pairInList_parameters hnil, hfirst', hsecond']
  cases ha : pair.first.compose σ p with
  | error e => exact .error e
  | ok a =>
    cases hb : pair.second.compose σ p with
    | error e => exact .error e
    | ok b =>
      have hnone : a.values = [] := hfirst.values_eq_nil ha
      have hnone' : b.values = [] := hsecond.values_eq_nil hb
      -- Both forms list the values pair by pair.
      have hvalues : ∀ row : Bool, (if row then Sql.Condition.rowInList negated ⟨a, b⟩
          (xs.map OperandPair.row) else .expandedRows negated
          (xs.map fun x => .bothEqual a (.parameter x.1) b (.parameter x.2))).values =
          xs.flatMap fun x => [x.1, x.2] := by
        intro row
        cases row <;> simp [OperandPair.row, List.flatMap_map, hnone, hnone']
      exact .ok ((hvalues _).trans (hvalues _).symm)

end

/-- Looking for a pair among row values and comparing it with each of them have one truth value in
every row, and for columns they bind the same values in the same order. -/
theorem Criterion.pairInList_forms_agree {σ σ' : Setting} {p : Position} {negated : Bool}
    {pair : OperandPair} {values : List OperandPair} {e e' : Sql.Condition}
    (hσ : σ.dialect.rowValueInList = true) (hσ' : σ'.dialect.rowValueInList = false)
    (h : (pairInList negated pair values).compose σ p = .ok e)
    (h' : (pairInList negated pair values).compose σ' p = .ok e') :
    (∀ {V : Type} (v : Valuation V),
      (∀ o ∈ (pairInList negated pair values).operands, v.Steady σ σ' p o) →
        e.truth v = e'.truth v) ∧
      (pair.IsColumns →
        (∀ o ∈ values.flatMap OperandPair.operands, o.BindsAlike σ σ' p) → e.values = e'.values) :=
  ⟨fun _ hv => truth_pairInList hσ hσ' hv h h',
    fun hpair hvalues => values_pairInList hpair hσ hσ' hvalues h h'⟩

namespace Market

/-- A stall without a price. -/
def unpriced : Valuation Int where
  value
    | .column n => if n.column = price 0 then none else some 2
    | .parameter ⟨.int n, _⟩ => some n.toInt
    | _ => none
  compare _ a b := a = b
  like _ _ _ := false
  rows _ := []

def pair : OperandPair := ⟨.column (number 0), .column (price 0)⟩

def wanted : List OperandPair :=
  [(⟨.int 1, .int⟩, ⟨.int 3, .int⟩), (⟨.int 2, .int⟩, .null .int)].map .parameters

end Market

/-- The stall may or may not be the second one, whose price is unknown. -/
theorem Criterion.pairInList_forms_agree_wanted :
    ∃ e e', (pairInList true Market.pair Market.wanted).compose (.of .postgres default)
          (.root Market.offers.scope) = .ok e ∧
        (pairInList true Market.pair Market.wanted).compose (.of .sqlServer default)
          (.root Market.offers.scope) = .ok e' ∧
        e.truth Market.unpriced = .unknown ∧ e'.truth Market.unpriced = .unknown ∧
        e.values = e'.values := by
  have halike : ∀ o ∈ (pairInList true Market.pair Market.wanted).operands,
      o.compose (.of .postgres default) (.root Market.offers.scope) =
        o.compose (.of .sqlServer default) (.root Market.offers.scope) := by
    intro o ho
    simp only [Market.pair, Market.wanted, operands, List.map_cons, List.map_nil, List.flatMap_cons,
      List.flatMap_nil, OperandPair.operands, OperandPair.parameters, List.cons_append,
      List.nil_append, List.append_nil, List.mem_cons, List.not_mem_nil, or_false] at ho
    rcases ho with rfl | rfl | rfl | rfl | rfl | rfl <;> rfl
  have h : (pairInList true Market.pair Market.wanted).compose (.of .postgres default)
      (.root Market.offers.scope) = .ok _ := rfl
  have h' : (pairInList true Market.pair Market.wanted).compose (.of .sqlServer default)
      (.root Market.offers.scope) = .ok _ := rfl
  obtain ⟨htruth, hvalues⟩ := pairInList_forms_agree rfl rfl h h'
  have htruth := htruth Market.unpriced fun o ho => .of_eq (halike o ho)
  have hvalues := hvalues ⟨trivial, trivial⟩ fun o ho =>
    .of_eq (halike o (List.mem_append_right _ ho))
  exact ⟨_, _, h, h', by decide, htruth.symm.trans (by decide), hvalues⟩

end SqlCompose
