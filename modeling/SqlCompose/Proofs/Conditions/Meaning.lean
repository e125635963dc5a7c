import SqlCompose.Proofs.Compose.Parameters
import SqlCompose.Proofs.Conditions.Criteria
import SqlCompose.Proofs.Conditions.Groups
import SqlCompose.Proofs.Conditions.Unambiguity

/-! The text of criteria means what the criteria mean. Reading where clauses and join conditions back
gives the conjunction of the criteria and nothing else. -/

namespace SqlCompose

/-- Wherever the condition stands in a statement and for whichever dialect it is spelled, its text has
this reading and no other. -/
def Sql.Condition.ReadsOnlyAs (c : Sql.Condition) (s : Reading) : Prop :=
  ∀ (k : DialectKind) (count : Nat) (r : Reading),
    Derives .disjunction
        (Lexeme.tokens (Lexer.lex k.dialect.quotes
          (Piece.sqlAfter k.dialect count c.pieces).toList)) r ↔
      r = s

section

variable {σ : Setting} {p : Position}

theorem SubQuery.compose_reads {q : SubQuery} {width : Option Nat} {s : Sql.Select}
    (h : q.compose σ p width = .ok s) : q.ReadsAs σ p (Piece.tokens s.pieces) :=
  ⟨width, s, h, rfl⟩

theorem Operand.compose_reads {o : Operand} {e : Sql.Expr} (h : o.compose σ p = .ok e) :
    o.ReadsAs σ p e.term := by
  cases o with
  | column c =>
    obtain ⟨n, hn, rfl⟩ := compose_column_eq_ok_iff.mp h
    obtain ⟨name, hname, rfl⟩ := Column.qualify_eq_ok_iff.mp hn
    exact .column hname
  | outer c =>
    obtain ⟨n, hn, rfl⟩ := compose_outer_eq_ok_iff.mp h
    obtain ⟨name, hname, rfl⟩ := Column.qualify_eq_ok_iff.mp hn
    exact .outer hname
  | parameter b =>
    rw [← compose_parameter_eq_ok_iff.mp h]
    exact .parameter b
  | subQuery q =>
    obtain ⟨s, hs, rfl⟩ := compose_subQuery_eq_ok_iff.mp h
    exact .subQuery (SubQuery.compose_reads hs)
  | pattern parts =>
    rw [← compose_pattern_eq_ok_iff.mp h]
    exact .pattern parts

theorem Operand.composeAll_reads {os : List Operand} {es : List Sql.Expr}
    (h : List.Forall₂ (fun o e => o.compose σ p = .ok e) os es) :
    List.Forall₂ (ReadsAs σ p) os (es.map Sql.Expr.term) :=
  List.forall₂_map_right_iff.mpr (h.imp fun _ _ => compose_reads)

theorem OperandPair.compose_reads {o : OperandPair} {r : Sql.ExprPair}
    (h : o.compose σ p = .ok r) : o.ReadsAs σ p r.row := by
  obtain ⟨a, ha, b, hb, rfl⟩ := compose_eq_ok_iff.mp h
  exact ⟨Operand.compose_reads ha, Operand.compose_reads hb⟩

theorem OperandPair.composeAll_reads {os : List OperandPair} {rs : List Sql.ExprPair}
    (h : List.Forall₂ (fun o r => o.compose σ p = .ok r) os rs) :
    List.Forall₂ (ReadsAs σ p) os (rs.map Sql.ExprPair.row) :=
  List.forall₂_map_right_iff.mpr (h.imp fun _ _ => compose_reads)

theorem exists_forall₂_of {α β γ : Type} {R : α → β → Prop} {P : α → γ → Prop} {Q : β → γ → Prop}
    {xs : List α} {ys : List β} (h : List.Forall₂ R xs ys)
    (hstep : ∀ x ∈ xs, ∀ y, R x y → ∃ z, P x z ∧ Q y z) :
    ∃ zs, List.Forall₂ P xs zs ∧ List.Forall₂ Q ys zs := by
  induction h with
  | nil => exact ⟨[], .nil, .nil⟩
  | cons hxy _ ih =>
    obtain ⟨z, hP, hQ⟩ := hstep _ List.mem_cons_self _ hxy
    obtain ⟨zs, hPs, hQs⟩ := ih fun x hx => hstep x (List.mem_cons_of_mem _ hx)
    exact ⟨z :: zs, .cons hP hPs, .cons hQ hQs⟩

/-- Every comparison that an expanded list is made of compares the same pair. -/
theorem OperandPair.expandAll_reads {pair : OperandPair} {values : List OperandPair}
    {cs : List Sql.Condition} (hne : values ≠ [])
    (h : List.Forall₂ (fun o c => o.expand σ p (pair.first.compose σ p)
      (pair.second.compose σ p) = .ok c) values cs) :
    ∃ r rs, pair.ReadsAs σ p r ∧ List.Forall₂ (ReadsAs σ p) values rs ∧
      List.Forall₂ Sql.Condition.Stands cs (rs.map r.equals) := by
  obtain ⟨v, values', rfl⟩ := List.exists_cons_of_ne_nil hne
  have hfirst : ∃ a b, pair.first.compose σ p = .ok a ∧ pair.second.compose σ p = .ok b := by
    cases h with
    | cons hv _ =>
      obtain ⟨a, ha, _, _, b, hb, _⟩ := expand_eq_ok_iff.mp hv
      exact ⟨a, b, ha, hb⟩
  obtain ⟨a, b, ha, hb⟩ := hfirst
  have hrows := exists_forall₂_of (P := ReadsAs σ p)
    (Q := fun c s => c.Stands (Row.equals ⟨a.term, b.term⟩ s)) h fun o _ c hc => by
      obtain ⟨a', ha', x, hx, b', hb', y, hy, rfl⟩ := expand_eq_ok_iff.mp hc
      obtain rfl : a = a' := Except.ok.inj (ha.symm.trans ha')
      obtain rfl : b = b' := Except.ok.inj (hb.symm.trans hb')
      exact ⟨⟨x.term, y.term⟩, ⟨Operand.compose_reads hx, Operand.compose_reads hy⟩,
        Sql.Condition.stands_bothEqual a x b y⟩
  obtain ⟨rs, hreads, hstands⟩ := hrows
  exact ⟨⟨a.term, b.term⟩, rs, ⟨Operand.compose_reads ha, Operand.compose_reads hb⟩, hreads,
    List.forall₂_map_right_iff.mpr hstands⟩

theorem Criterion.compose_pairInList_reads {negated : Bool} {pair : OperandPair}
    {values : List OperandPair} {e : Sql.Condition}
    (h : (pairInList negated pair values).compose σ p = .ok e) :
    ∃ r, (pairInList negated pair values).ReadsAs σ p r ∧ e.Stands r := by
  by_cases hnil : values = []
  · subst hnil
    rw [compose_pairInList_nil, Except.ok.injEq] at h
    exact ⟨_, .pairInNothing negated pair, h ▸ .primary (Sql.Condition.derives_constant negated)⟩
  cases hrow : σ.dialect.rowValueInList with
  | true =>
    obtain ⟨row, hr, vs, hvs, rfl⟩ := (compose_pairInList_eq_ok_iff hnil hrow).mp h
    exact ⟨_, .pairInList hnil hrow (OperandPair.compose_reads hr)
      (OperandPair.composeAll_reads hvs),
      .primary (Sql.Condition.derives_rowInList negated row (ne_nil_of_forall₂ hvs hnil))⟩
  | false =>
    obtain ⟨cs, hcs, rfl⟩ := (compose_pairInList_expanded_eq_ok_iff hnil hrow).mp h
    obtain ⟨r, rs, hr, hrs, hstands⟩ := OperandPair.expandAll_reads hnil hcs
    exact ⟨_, .pairInExpanded hnil hrow hr hrs,
      Sql.Condition.stands_expandedRows (ne_nil_of_forall₂ hcs hnil) hstands negated⟩

/-- What is written for a criterion is read as what the criterion means, wherever it stands. -/
theorem Criterion.compose_reads {c : Criterion} {e : Sql.Condition} (h : c.compose σ p = .ok e) :
    ∃ r, c.ReadsAs σ p r ∧ e.Stands r := by
  induction c generalizing e with
  | compare op left right =>
    obtain ⟨l, hl, r, hr, rfl⟩ := compose_compare_eq_ok_iff.mp h
    exact ⟨_, .compare (Operand.compose_reads hl) (Operand.compose_reads hr),
      .primary (Sql.Condition.derives_compare op l r)⟩
  | isNull negated o =>
    obtain ⟨a, ha, rfl⟩ := compose_isNull_eq_ok_iff.mp h
    exact ⟨_, .isNull (Operand.compose_reads ha),
      .primary (Sql.Condition.derives_isNull negated a)⟩
  | like negated o pattern option =>
    obtain ⟨a, ha, h⟩ := compose_like_eq_ok_iff.mp h
    have hfirst := Operand.compose_reads ha
    rcases h with ⟨parts, hparts, rfl⟩ | ⟨hparts, b, hb, rfl⟩
    · exact ⟨_, .likeParts hfirst hparts, .primary (Sql.Condition.derives_like negated a _ _)⟩
    · exact ⟨_, .like hfirst hparts (Operand.compose_reads hb),
        .primary (Sql.Condition.derives_like negated a b none)⟩
  | between negated o low high =>
    obtain ⟨a, ha, l, hl, u, hu, rfl⟩ := compose_between_eq_ok_iff.mp h
    exact ⟨_, .between (Operand.compose_reads ha) (Operand.compose_reads hl)
      (Operand.compose_reads hu), .primary (Sql.Condition.derives_between negated a l u)⟩
  | inList negated o values =>
    by_cases hnil : values = []
    · subst hnil
      rw [compose_inList_nil, Except.ok.injEq] at h
      exact ⟨_, .inNothing negated o, h ▸ .primary (Sql.Condition.derives_constant negated)⟩
    · obtain ⟨a, ha, vs, hvs, rfl⟩ := (compose_inList_eq_ok_iff hnil).mp h
      exact ⟨_, .inList hnil (Operand.compose_reads ha) (Operand.composeAll_reads hvs),
        .primary (Sql.Condition.derives_inList negated a (ne_nil_of_forall₂ hvs hnil))⟩
  | inSubQuery negated o query =>
    obtain ⟨a, ha, s, hs, rfl⟩ := compose_inSubQuery_eq_ok_iff.mp h
    exact ⟨_, .inSubQuery (Operand.compose_reads ha) (SubQuery.compose_reads hs),
      .primary (Sql.Condition.derives_inSubQuery negated a s)⟩
  | pairInList negated pair values => exact compose_pairInList_reads h
  | pairInSubQuery negated pair query =>
    obtain ⟨_, row, hr, s, hs, rfl⟩ := compose_pairInSubQuery_eq_ok_iff.mp h
    exact ⟨_, .pairInSubQuery (OperandPair.compose_reads hr) (SubQuery.compose_reads hs),
      .primary (Sql.Condition.derives_rowInSubQuery negated row s)⟩
  | exists_ negated query =>
    obtain ⟨s, hs, rfl⟩ := compose_exists_eq_ok_iff.mp h
    exact ⟨_, .exists (SubQuery.compose_reads hs),
      .primary (Sql.Condition.derives_exists negated s)⟩
  | all children ih =>
    obtain ⟨cs, hcs, rfl⟩ := compose_all_eq_ok_iff.mp h
    obtain ⟨rs, hreads, hstands⟩ := exists_forall₂_of hcs fun c hc _ he => ih c hc he
    exact ⟨_, .all hreads, Sql.Condition.stands_group hstands⟩
  | any children ih =>
    obtain ⟨cs, hcs, rfl⟩ := compose_any_eq_ok_iff.mp h
    obtain ⟨rs, hreads, hstands⟩ := exists_forall₂_of hcs fun c hc _ he => ih c hc he
    exact ⟨_, .any hreads, Sql.Condition.stands_group hstands⟩
  | not children ih =>
    obtain ⟨cs, hcs, rfl⟩ := compose_not_eq_ok_iff.mp h
    obtain ⟨rs, hreads, hstands⟩ := exists_forall₂_of hcs fun c hc _ he => ih c hc he
    exact ⟨_, .not hreads, Sql.Condition.stands_negation hstands⟩

theorem Sql.Condition.readsOnlyAs {c : Sql.Condition} {s : Reading}
    (h : Derives .disjunction (Piece.tokens c.pieces) s)
    (hnames : Piece.Named Identifier.Legal c.pieces) : c.ReadsOnlyAs s := by
  intro k count r
  rw [c.woven.tokens_lex hnames k.regular]
  exact ⟨fun hr => hr.unique h, fun he => he ▸ h⟩

end

/-- Each criterion that is composed at a level with legal names has one meaning, and the text of all of
them is read as the conjunction of these and in no other way. A where clause is left out only where
nothing is asked for. -/
theorem Criterion.composeAll_readsOnlyAs {σ : Setting} {p : Position} {cs : List Criterion}
    {es : List Sql.Condition} (hp : p.Legal) (h : composeAll σ p cs = .ok es) :
    ∃ rs, (∀ ss, List.Forall₂ (ReadsAs σ p) cs ss ↔ ss = rs) ∧
      ((Sql.Condition.conjunction? es).getD (.constant true)).ReadsOnlyAs (.group .and rs) ∧
      (Sql.Condition.conjunction? es = none ↔ cs = []) := by
  rw [composeAll_eq_mapM, mapM_eq_ok_iff] at h
  obtain ⟨rs, hreads, hstands⟩ := exists_forall₂_of h fun _ _ _ hc => compose_reads hc
  have hnames : Piece.Named Identifier.Legal
      ((Sql.Condition.conjunction? es).getD (.constant true)).pieces := by
    refine Sql.Condition.named fun x hx => ?_
    rw [Sql.Condition.collects_operands.conjunction_getD] at hx
    exact (forall_compose_stems h x hx).named hp
  have hmeaning : ∀ ss, List.Forall₂ (ReadsAs σ p) cs ss ↔ ss = rs := fun ss =>
    ⟨fun hss => forall₂_unique hss hreads fun _ _ _ _ => ReadsAs.unique, fun he => he ▸ hreads⟩
  have hreading := Sql.Condition.readsOnlyAs (Sql.Condition.derives_conjunction hstands) hnames
  refine ⟨rs, hmeaning, hreading, ?_⟩
  cases h with
  | nil => simp [Sql.Condition.conjunction?]
  | cons _ _ => simp [Sql.Condition.conjunction?]

namespace Market

/-- Groups of no, one and several criteria, a range beside an `and`, and a list of pairs. -/
def conditions : List Criterion :=
  [.not [.any [.compare .less (.column (price 0)) (.parameter ⟨.int 5, .int⟩),
      .all [.between true (.column (price 0)) (.parameter ⟨.int 1, .int⟩)
        (.parameter ⟨.int 2, .int⟩), .any []]]],
    .any [.pairInList true ⟨.column (number 0), .column (price 0)⟩
      [⟨.parameter ⟨.int 1, .int⟩, .parameter ⟨.int 2, .int⟩⟩,
        ⟨.parameter ⟨.int 3, .int⟩, .column (price 0)⟩]],
    .all [.inSubQuery false (.column (number 0)) (named "50%?"), .exists true (named "50%?")]]

end Market

/-- Pairs are compared with each member where row values in lists are missing. -/
theorem Criterion.composeAll_readsOnlyAs_conditions :
    (Position.root Market.offers.scope).Legal ∧
      ∃ es, composeAll (.of .sqlServer default) (.root Market.offers.scope) Market.conditions =
          .ok es ∧
        ∃ rs, (∀ ss, List.Forall₂ (ReadsAs (.of .sqlServer default) (.root Market.offers.scope))
            Market.conditions ss ↔ ss = rs) ∧
          ((Sql.Condition.conjunction? es).getD (.constant true)).ReadsOnlyAs (.group .and rs) ∧
          (Sql.Condition.conjunction? es = none ↔ Market.conditions = []) :=
  ⟨Market.offers_legal.root, _, rfl, composeAll_readsOnlyAs Market.offers_legal.root rfl⟩

end SqlCompose
