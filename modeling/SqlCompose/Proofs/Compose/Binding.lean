import SqlCompose.Proofs.Compose.Widths
import SqlCompose.Proofs.Insert.Returning
import SqlCompose.Proofs.Query.Binding
import SqlCompose.Proofs.Sql.Values

/-! What is composed binds the values that its description binds, wherever it stands. The values of
a sub-query are therefore those that it has on its own, and they stand together in the values of
the whole statement. -/

namespace SqlCompose

/-- Wherever the select is composed, it binds what its description binds. -/
def Select.BindsSteadily (σ : Setting) (s : Select) : Prop :=
  ∀ p t, s.compose σ p = .ok t → t.values = s.binds σ

section

variable {σ : Setting} {p : Position}

theorem flatMap_eq_of_composed {α β ε : Type} {f : α → Except ε β} {g : β → List Bound}
    {h : α → List Bound} {xs : List α} {ys : List β}
    (hys : List.Forall₂ (fun x y => f x = .ok y) xs ys)
    (hg : ∀ x ∈ xs, ∀ y, f x = .ok y → g y = h x) : ys.flatMap g = xs.flatMap h := by
  induction hys with
  | nil => rfl
  | @cons x y xs ys hy _ ih =>
    rw [List.flatMap_cons, List.flatMap_cons, hg x List.mem_cons_self y hy,
      ih fun z hz => hg z (List.mem_cons_of_mem _ hz)]

theorem SubQuery.compose_values {q : SubQuery} {width : Option Nat} {t : Sql.Select}
    (hq : q.select.BindsSteadily σ) (h : q.compose σ p width = .ok t) : t.values = q.binds σ := by
  obtain ⟨_, child, _, hselect⟩ := compose_eq_ok_iff.mp h
  obtain ⟨id, select⟩ := q
  rw [binds]
  exact hq _ t hselect

theorem Operand.compose_values {o : Operand} {e : Sql.Expr}
    (hsub : ∀ q ∈ o.subQueries, q.select.BindsSteadily σ) (h : o.compose σ p = .ok e) :
    e.values = o.binds σ := by
  cases o with
  | column c =>
    obtain ⟨n, _, rfl⟩ := compose_column_eq_ok_iff.mp h
    rw [binds, Sql.Expr.values_column]
  | outer c =>
    obtain ⟨n, _, rfl⟩ := compose_outer_eq_ok_iff.mp h
    rw [binds, Sql.Expr.values_column]
  | parameter b =>
    obtain rfl := compose_parameter_eq_ok_iff.mp h
    rw [binds, Sql.Expr.values_parameter]
  | subQuery q =>
    obtain ⟨t, ht, rfl⟩ := compose_subQuery_eq_ok_iff.mp h
    rw [binds, Sql.Expr.values_subQuery, SubQuery.compose_values (hsub q List.mem_cons_self) ht]
  | pattern parts =>
    obtain rfl := compose_pattern_eq_ok_iff.mp h
    rw [binds, Sql.Expr.values_parameter]

theorem OperandPair.compose_values {o : OperandPair} {r : Sql.ExprPair}
    (hsub : ∀ q ∈ o.subQueries, q.select.BindsSteadily σ) (h : o.compose σ p = .ok r) :
    r.values = o.binds σ := by
  obtain ⟨a, ha, b, hb, rfl⟩ := compose_eq_ok_iff.mp h
  obtain ⟨first, second⟩ := o
  rw [binds, Sql.ExprPair.values_mk,
    Operand.compose_values (fun q hq => hsub q (List.mem_append_left _ hq)) ha,
    Operand.compose_values (fun q hq => hsub q (List.mem_append_right _ hq)) hb]

theorem OperandPair.expand_values {pair o : OperandPair} {c : Sql.Condition}
    (hpair : ∀ q ∈ pair.subQueries, q.select.BindsSteadily σ)
    (ho : ∀ q ∈ o.subQueries, q.select.BindsSteadily σ)
    (h : o.expand σ p (pair.first.compose σ p) (pair.second.compose σ p) = .ok c) :
    c.values = pair.first.binds σ ++ o.first.binds σ ++
      (pair.second.binds σ ++ o.second.binds σ) := by
  obtain ⟨a, ha, x, hx, b, hb, y, hy, rfl⟩ := expand_eq_ok_iff.mp h
  rw [Sql.Condition.values_bothEqual,
    Operand.compose_values (fun q hq => hpair q (List.mem_append_left _ hq)) ha,
    Operand.compose_values (fun q hq => ho q (List.mem_append_left _ hq)) hx,
    Operand.compose_values (fun q hq => hpair q (List.mem_append_right _ hq)) hb,
    Operand.compose_values (fun q hq => ho q (List.mem_append_right _ hq)) hy]

namespace Criterion

theorem compose_pairInList_values {negated : Bool} {pair : OperandPair} {values : List OperandPair}
    {e : Sql.Condition} (hpair : ∀ q ∈ pair.subQueries, q.select.BindsSteadily σ)
    (hvalues : ∀ o ∈ values, ∀ q ∈ o.subQueries, q.select.BindsSteadily σ)
    (h : (pairInList negated pair values).compose σ p = .ok e) :
    e.values = (pairInList negated pair values).binds σ := by
  obtain ⟨first, second⟩ := pair
  by_cases hnil : values = []
  · subst hnil
    obtain rfl := Except.ok.inj (compose_pairInList_nil.symm.trans h)
    rw [Sql.Condition.values_constant, binds]
    rfl
  · -- without row values in lists the components are bound again for each pair
    have hne : ¬values.isEmpty = true := fun hempty => hnil (List.isEmpty_iff.mp hempty)
    cases hrow : σ.dialect.rowValueInList with
    | true =>
      obtain ⟨row, hr, rows, hrows, rfl⟩ := (compose_pairInList_eq_ok_iff hnil hrow).mp h
      have hfirst := OperandPair.compose_values hpair hr
      have hrest := flatMap_eq_of_composed hrows fun o ho r hr =>
        OperandPair.compose_values (hvalues o ho) hr
      rw [OperandPair.binds] at hfirst
      rw [Sql.Condition.values_rowInList, hfirst, hrest, binds, if_neg hne, hrow, if_pos rfl,
        OperandPair.listBinds_eq_flatMap]
    | false =>
      obtain ⟨cs, hcs, rfl⟩ := (compose_pairInList_expanded_eq_ok_iff hnil hrow).mp h
      have hrest := flatMap_eq_of_composed hcs fun o ho c hc =>
        OperandPair.expand_values hpair (hvalues o ho) hc
      rw [Sql.Condition.values_expandedRows, hrest, binds, if_neg hne, hrow,
        if_neg Bool.false_ne_true, OperandPair.expandedBinds_eq_flatMap]

theorem compose_values {c : Criterion} {e : Sql.Condition}
    (hsub : ∀ q ∈ c.subQueries, q.select.BindsSteadily σ) (h : c.compose σ p = .ok e) :
    e.values = c.binds σ := by
  induction c generalizing e with
  | compare op left right =>
    obtain ⟨l, hl, r, hr, rfl⟩ := compose_compare_eq_ok_iff.mp h
    rw [binds, Sql.Condition.values_compare,
      Operand.compose_values (fun q hq => hsub q (List.mem_append_left _ hq)) hl,
      Operand.compose_values (fun q hq => hsub q (List.mem_append_right _ hq)) hr]
  | isNull negated o =>
    obtain ⟨a, ha, rfl⟩ := compose_isNull_eq_ok_iff.mp h
    rw [binds, Sql.Condition.values_isNull, Operand.compose_values hsub ha]
  | like negated o pattern option =>
    obtain ⟨a, ha, hpattern⟩ := compose_like_eq_ok_iff.mp h
    have hvalue := Operand.compose_values (fun q hq => hsub q (List.mem_append_left _ hq)) ha
    rcases hpattern with ⟨parts, hparts, rfl⟩ | ⟨hnone, b, hb, rfl⟩
    · rw [binds, Sql.Condition.values_like, hvalue, hparts, Sql.Expr.values_parameter,
        List.append_assoc, List.singleton_append]
    · rw [binds, Sql.Condition.values_like, hvalue, hnone,
        Operand.compose_values (fun q hq => hsub q (List.mem_append_right _ hq)) hb]
      exact List.append_nil _
  | between negated o low high =>
    obtain ⟨a, ha, l, hl, u, hu, rfl⟩ := compose_between_eq_ok_iff.mp h
    simp only [subQueries, List.mem_append, or_assoc] at hsub
    rw [binds, Sql.Condition.values_between,
      Operand.compose_values (fun q hq => hsub q (.inl hq)) ha,
      Operand.compose_values (fun q hq => hsub q (.inr (.inl hq))) hl,
      Operand.compose_values (fun q hq => hsub q (.inr (.inr hq))) hu]
  | inList negated o values =>
    by_cases hnil : values = []
    · subst hnil
      obtain rfl := Except.ok.inj (compose_inList_nil.symm.trans h)
      rw [Sql.Condition.values_constant, binds]
      rfl
    · obtain ⟨a, ha, es, hes, rfl⟩ := (compose_inList_eq_ok_iff hnil).mp h
      have hrest := flatMap_eq_of_composed hes fun v hv e he =>
        Operand.compose_values (fun q hq =>
          hsub q (List.mem_append_right _ (subset_flatMap_of_mem hv hq))) he
      rw [binds, if_neg fun hempty => hnil (List.isEmpty_iff.mp hempty),
        Sql.Condition.values_inList, hrest, Operand.listBinds_eq_flatMap,
        Operand.compose_values (fun q hq => hsub q (List.mem_append_left _ hq)) ha]
  | inSubQuery negated o query =>
    obtain ⟨a, ha, t, ht, rfl⟩ := compose_inSubQuery_eq_ok_iff.mp h
    have hquery := hsub query (List.mem_append_right _ List.mem_cons_self)
    rw [binds, Sql.Condition.values_inSubQuery, SubQuery.compose_values hquery ht,
      Operand.compose_values (fun q hq => hsub q (List.mem_append_left _ hq)) ha]
  | pairInList negated pair values =>
    exact compose_pairInList_values (fun q hq => hsub q (List.mem_append_left _ hq))
      (fun o ho q hq => hsub q (List.mem_append_right _ (subset_flatMap_of_mem ho hq))) h
  | pairInSubQuery negated pair query =>
    obtain ⟨_, row, hrow, t, ht, rfl⟩ := compose_pairInSubQuery_eq_ok_iff.mp h
    have hquery := hsub query (List.mem_append_right _ List.mem_cons_self)
    rw [binds, Sql.Condition.values_rowInSubQuery, SubQuery.compose_values hquery ht,
      OperandPair.compose_values (fun q hq => hsub q (List.mem_append_left _ hq)) hrow]
  | exists_ negated query =>
    obtain ⟨t, ht, rfl⟩ := compose_exists_eq_ok_iff.mp h
    rw [binds, Sql.Condition.values_exists,
      SubQuery.compose_values (hsub query List.mem_cons_self) ht]
  | all children ih =>
    rw [subQueries_all] at hsub
    obtain ⟨cs, hcs, rfl⟩ := compose_all_eq_ok_iff.mp h
    rw [binds, listBinds_eq_flatMap, Sql.Condition.values_group]
    exact flatMap_eq_of_composed hcs fun c hc e he =>
      ih c hc (fun q hq => hsub q (subset_flatMap_of_mem hc hq)) he
  | any children ih =>
    rw [subQueries_any] at hsub
    obtain ⟨cs, hcs, rfl⟩ := compose_any_eq_ok_iff.mp h
    rw [binds, listBinds_eq_flatMap, Sql.Condition.values_group]
    exact flatMap_eq_of_composed hcs fun c hc e he =>
      ih c hc (fun q hq => hsub q (subset_flatMap_of_mem hc hq)) he
  | not children ih =>
    rw [subQueries_not] at hsub
    obtain ⟨cs, hcs, rfl⟩ := compose_not_eq_ok_iff.mp h
    rw [binds, listBinds_eq_flatMap, Sql.Condition.values_negation]
    exact flatMap_eq_of_composed hcs fun c hc e he =>
      ih c hc (fun q hq => hsub q (subset_flatMap_of_mem hc hq)) he

theorem forall_compose_values {cs : List Criterion} {es : List Sql.Condition}
    (hsub : ∀ q ∈ cs.flatMap subQueries, q.select.BindsSteadily σ)
    (h : List.Forall₂ (fun c e => c.compose σ p = .ok e) cs es) :
    es.flatMap Sql.Condition.values = listBinds σ cs := by
  rw [listBinds_eq_flatMap]
  exact flatMap_eq_of_composed h fun c hc e he =>
    compose_values (fun q hq => hsub q (subset_flatMap_of_mem hc hq)) he

end Criterion

theorem SelectItem.compose_values {i : SelectItem} {e : Sql.SelectItem}
    (hsub : ∀ q ∈ i.subQueries, q.select.BindsSteadily σ) (h : i.compose σ p = .ok e) :
    e.values = i.binds σ := by
  cases i with
  | column c =>
    obtain ⟨n, _, rfl⟩ := compose_column_eq_ok_iff.mp h
    rw [binds, Sql.SelectItem.values_column]
  | aggregate a =>
    rw [compose] at h
    rw [binds]
    cases a with
    | countAll =>
      obtain rfl := Except.ok.inj h
      exact Sql.SelectItem.values_countAll
    | _ =>
      obtain ⟨n, _, rfl⟩ := map_eq_ok_iff.mp h
      exact Sql.SelectItem.values_aggregate _ n
  | subQuery q =>
    obtain ⟨t, ht, rfl⟩ := compose_subQuery_eq_ok_iff.mp h
    rw [binds, Sql.SelectItem.values_subQuery,
      SubQuery.compose_values (hsub q List.mem_cons_self) ht]

theorem Projection.compose_values {j : Projection} {target : Table} {items : List Sql.SelectItem}
    (hsub : ∀ q ∈ j.subQueries, q.select.BindsSteadily σ)
    (h : j.compose σ p target = .ok items) :
    items.flatMap Sql.SelectItem.values = j.binds σ := by
  cases j with
  | allColumns =>
    rw [binds, List.flatMap_eq_nil_iff]
    intro i hi
    obtain ⟨c, _, n, _, rfl⟩ := exists_mem_of_forall₂ (compose_allColumns_eq_ok_iff.mp h) hi
    exact Sql.SelectItem.values_column n
  | explicit is =>
    rw [binds, SelectItem.listBinds_eq_flatMap]
    exact flatMap_eq_of_composed (compose_explicit_eq_ok_iff.mp h) fun i hi e he =>
      SelectItem.compose_values (fun q hq => hsub q (subset_flatMap_of_mem hi hq)) he

theorem Join.compose_values {j : Join} {e : Sql.Join}
    (hsub : ∀ q ∈ j.on.flatMap Criterion.subQueries, q.select.BindsSteadily σ)
    (h : j.compose σ p = .ok e) : e.values = j.binds σ := by
  obtain ⟨item, _, cs, hcs, rfl⟩ := compose_eq_ok_iff.mp h
  obtain ⟨kind, table, on⟩ := j
  rw [binds, Sql.Join.values_mk, Sql.Condition.values_conjunction_getD]
  exact Criterion.forall_compose_values hsub hcs

theorem Select.bindsSteadily_of {s : Select}
    (hsub : ∀ q ∈ s.subQueries, q.select.BindsSteadily σ) : s.BindsSteadily σ := by
  intro p t h
  obtain ⟨_, items, hitems, source, _, joins, hjoins, conditions, hconditions, order, _, lock, _,
    rfl⟩ := compose_eq_ok_iff.mp h
  simp only [subQueries, criteria, List.flatMap_append, List.mem_append] at hsub
  have hprojection := Projection.compose_values (fun q hq => hsub q (.inl hq)) hitems
  have hjoined := flatMap_eq_of_composed hjoins fun j hj e he =>
    Join.compose_values (fun q hq => hsub q (.inr (.inl (List.flatMap_assoc ▸
      subset_flatMap_of_mem hj hq)))) he
  have hfilter := Criterion.forall_compose_values (fun q hq => hsub q (.inr (.inr hq))) hconditions
  rw [Sql.Select.values_mk, hprojection, hjoined, hfilter, binds_eq, Join.listBinds_eq_flatMap]

end

theorem Select.bindsSteadily (σ : Setting) (s : Select) : s.BindsSteadily σ := by
  induction s with
  | step s ih => exact bindsSteadily_of ih

/-- The sub-query as a query of its own, with options in place of those that it has. -/
def SubQuery.alone (options : QueryOptions) (r : SubQuery) : Query :=
  .select { r.select with options := some options }

/-- The select is what the sub-query has become in a place of this width, at some depth. -/
def Sql.Command.Nests (σ : Setting) (c : Command) (width : Option Nat) (r : SubQuery)
    (t : Sql.Select) : Prop :=
  Place.Within Expr.inner ⟨width, .subQuery t⟩ c.places ∧ ∃ p, r.compose σ p width = .ok t

section

variable {d : Dialect} {defaults options : QueryOptions} {b : Built Output}

theorem SubQuery.build_alone_values {r : SubQuery}
    (h : (r.alone options).build d defaults = .ok b) :
    b.output.values = [r.binds (.of d options)] := by
  obtain ⟨id, select⟩ := r
  simp only [alone, Query.build, bind_eq_ok_iff, pure_eq_ok_iff] at h
  obtain ⟨_, hb, rfl⟩ := h
  obtain ⟨t, ht, hstatement⟩ := Select.build_eq_ok hb
  have hvalues := Select.bindsSteadily _ _ _ t ht
  rw [Select.binds_eq] at hvalues
  show [Statement.values _] = _
  rw [hstatement, binds, Select.binds_eq]
  exact congrArg ([·]) hvalues

theorem Piece.sqlAfter_enclosed (count : Nat) (ps : List Piece) :
    sqlAfter d count (enclosed ps) = "(" ++ sqlAfter d count ps ++ ")" := by
  rw [enclosed, List.cons_append, sqlAfter, sqlAfter_append, String.append_assoc]
  rfl

namespace Query

variable {q : Query}

theorem exists_composed_of_mem_values (h : q.build d defaults = .ok b)
    (hq : ∀ draft, q ≠ .insert draft (.multiple [])) {vs : List Bound}
    (hvs : vs ∈ b.output.values) :
    ∃ c, q.Composed d defaults c ∧ b.output.Shows d c ∧ vs = Piece.values c.pieces := by
  cases q with
  | insert draft rows =>
    have hrows : rows ≠ .multiple [] := fun hnone => hq draft (hnone ▸ rfl)
    obtain ⟨ws, hws, hshows, hvalues⟩ := build_insert_runs h hrows
    obtain ⟨hfault, _⟩ := build_insert_text h hrows
    rw [hvalues] at hvs
    obtain ⟨w, hw, rfl⟩ := List.mem_map.mp hvs
    obtain ⟨_, _, cells, _, hcompose⟩ := exists_mem_of_forall₂ hws hw
    exact ⟨.write w, .insert hfault hcompose, hshows w hw, rfl⟩
  | _ =>
    rcases build_eq_ok h with ⟨⟨_, hnone⟩, _⟩ | ⟨c, hc, hshows⟩
    · cases hnone
    · refine ⟨c, hc, hshows, ?_⟩
      cases ho : b.output with
      | statement s =>
        rw [ho] at hshows hvs
        obtain rfl : s = c.statement d := hshows
        exact List.mem_singleton.mp hvs
      | batch _ =>
        obtain ⟨_, _, hbatch, _⟩ := build_eq_batch h ho
        cases hbatch

theorem ne_insert_nothing_of_within {x : Place Operand} (hx : x.Within Operand.inner q.places)
    (draft : InsertDraft) : q ≠ .insert draft (.multiple []) := by
  rintro rfl
  cases hx with
  | here hx => exact absurd hx List.not_mem_nil
  | inside hy _ => exact absurd hy List.not_mem_nil

/-- Wherever a sub-query stands in what is built, what it binds there is what it binds on its own
under the options of the whole. Those values follow one another, after the values of what stands
before its parenthesis, and the placeholders between its parentheses are theirs. -/
theorem build_subQuery_values {alone : Built Output} {width : Option Nat} {r : SubQuery}
    (h : q.build d defaults = .ok b)
    (hr : Place.Within Operand.inner ⟨width, .subQuery r⟩ q.places)
    (halone : (r.alone (q.options?.getD defaults)).build d defaults = .ok alone) :
    ∃ own, alone.output.values = [own] ∧
      ∀ vs ∈ b.output.values, ∃ c, q.Composed d defaults c ∧ b.output.Shows d c ∧
        vs = Piece.values c.pieces ∧
        (∃ t, c.Nests (q.setting d defaults) width r t) ∧
        ∀ t, c.Nests (q.setting d defaults) width r t →
          Piece.values t.pieces = own ∧ Piece.enclosed t.pieces <:+: c.pieces ∧
          ∀ before after, c.pieces = before ++ Piece.enclosed t.pieces ++ after →
            vs = Piece.values before ++ own ++ Piece.values after ∧
            b.output.sql = Piece.sqlAfter d 0 before ++
              "(" ++ Piece.sqlAfter d (Piece.values before).length t.pieces ++ ")" ++
              Piece.sqlAfter d ((Piece.values before).length + own.length) after := by
  refine ⟨r.binds (q.setting d defaults), SubQuery.build_alone_values halone, fun vs hvs => ?_⟩
  have hq := ne_insert_nothing_of_within hr
  obtain ⟨c, hc, hshows, rfl⟩ := exists_composed_of_mem_values h hq hvs
  refine ⟨c, hc, hshows, rfl, ?_, ?_⟩
  · obtain ⟨⟨_, e⟩, below, he, rfl, hbecomes⟩ := hr.image (hc.places hq)
    cases hbecomes with
    | subQuery ht => exact ⟨_, he, below, ht⟩
  · rintro t ⟨hwithin, below, ht⟩
    -- the level at which it was composed does not matter, so its own values are found again
    have hown : Piece.values t.pieces = r.binds (q.setting d defaults) :=
      SubQuery.compose_values (Select.bindsSteadily _ _) ht
    refine ⟨hown, Sql.Command.infix_place hwithin, fun before after hpieces => ⟨?_, ?_⟩⟩
    · rw [hpieces, Piece.values_append, Piece.values_append, Piece.values_enclosed, hown]
    · rw [Output.Shows.sql_eq hshows, hpieces, Piece.sqlAfter_append, Piece.sqlAfter_append,
        Piece.sqlAfter_enclosed, Piece.values_append, Piece.values_enclosed, hown,
        List.length_append]
      simp only [Nat.zero_add, String.append_assoc]

end Query

end

namespace Family

/-- The numbers of persons with this name. -/
def called (text : String) : SubQuery :=
  ⟨9, ((Select.of (person 3)).project [.column (number 3)]).filterBy
    [.compare .equal (.column (name 3)) (.parameter (.text text))]⟩

/-- The numbers of persons with such parents, but for one name. -/
def offspring (parents : SubQuery) : SubQuery :=
  ⟨10, ((Select.of (person 2)).project [.column (number 2)]).filterBy
    [.inSubQuery false (.column (parent 2)) parents,
      .compare .notEqual (.column (name 2)) (.parameter (.text "C"))]⟩

/-- Grandchildren of whoever has this name, with a value on either side of the name. -/
def grandchildren (text : String) : Query :=
  .select ((Select.of (person 1)).filterBy
    [.compare .notEqual (.column (name 1)) (.parameter (.text "A")),
      .inSubQuery false (.column (parent 1)) (offspring (called text))])

end Family

section

open Family

/-- Two levels down, the name is bound between the other values. -/
theorem Query.build_subQuery_values_grandchildren :
    ∃ (b alone : Built Output) (before after : List Piece),
      (grandchildren "B").build .postgres default = .ok b ∧
      b.output.values = [[.text "A", .text "B", .text "C"]] ∧
      ((called "B").alone default).build .postgres default = .ok alone ∧
      alone.output.values = [[.text "B"]] ∧
      b.output.values = [Piece.values before ++ [.text "B"] ++ Piece.values after] := by
  obtain ⟨b, hb⟩ : ∃ b, (grandchildren "B").build .postgres default = .ok b := ⟨_, rfl⟩
  obtain ⟨alone, halone⟩ : ∃ alone,
      ((called "B").alone default).build .postgres default = .ok alone := ⟨_, rfl⟩
  have hvalues : b.output.values = [[.text "A", .text "B", .text "C"]] := by
    cases hb
    rfl
  have hname : alone.output.values = [[.text "B"]] := by
    cases halone
    rfl
  have houter : ⟨some 1, .subQuery (offspring (called "B"))⟩ ∈ (grandchildren "B").places :=
    Select.mem_places_of_criterion (List.mem_cons_of_mem _ List.mem_cons_self)
      (List.mem_cons_of_mem _ (List.mem_singleton_self _))
  have hinner : ⟨some 1, .subQuery (called "B")⟩ ∈ (offspring (called "B")).select.places :=
    Select.mem_places_of_criterion List.mem_cons_self
      (List.mem_cons_of_mem _ (List.mem_singleton_self _))
  obtain ⟨own, hown, hall⟩ :=
    build_subQuery_values hb (.inside houter (.here hinner)) halone
  obtain rfl : own = [.text "B"] := List.singleton_inj.mp (hown.symm.trans hname)
  obtain ⟨c, _, _, hc, ⟨t, ht⟩, hslices⟩ := hall [.text "A", .text "B", .text "C"]
    (hvalues ▸ List.mem_singleton_self _)
  obtain ⟨_, ⟨before, after, hpieces⟩, hslice⟩ := hslices t ht
  refine ⟨b, alone, before, after, hb, hvalues, halone, hname, ?_⟩
  rw [hvalues, (hslice before after hpieces.symm).1]

end

end SqlCompose
