import SqlCompose.Proofs.Compose.Parameters
import SqlCompose.Proofs.Compose.Tracing
import SqlCompose.Proofs.Insert.Alignment
import SqlCompose.Proofs.Query.Refusals
import SqlCompose.Proofs.Sql.Constructs

/-! Constructs that a dialect lacks never reach the database, and a query is refused for want of one
only when it contains it. -/

namespace SqlCompose

/-- The dialect has all of them. -/
def Dialect.Has (d : Dialect) (ks : List Construct) : Prop := ∀ k ∈ ks, d.supports k = true

namespace Dialect.Has

variable {d : Dialect}

theorem nil : d.Has [] := fun _ hk => by cases hk

theorem singleton {k : Construct} (h : d.supports k = true) : d.Has [k] :=
  List.forall_mem_singleton.mpr h

theorem append {ks ls : List Construct} (h : d.Has ks) (h' : d.Has ls) : d.Has (ks ++ ls) :=
  List.forall_mem_append.mpr ⟨h, h'⟩

theorem ite {c : Prop} [Decidable c] {k : Construct} (h : c → d.supports k = true) :
    d.Has (if c then [k] else []) := by
  by_cases hc : c
  · rw [if_pos hc]
    exact singleton (h hc)
  · rw [if_neg hc]
    exact nil

theorem flatMap {α : Type} {f : α → List Construct} {xs : List α} (h : ∀ x ∈ xs, d.Has (f x)) :
    d.Has (xs.flatMap f) := by
  intro k hk
  obtain ⟨x, hx, hk⟩ := List.mem_flatMap.mp hk
  exact h x hx k hk

theorem of_forall₂ {α β : Type} {R : α → β → Prop} {f : β → List Construct} {xs : List α}
    {ys : List β} (h : List.Forall₂ R xs ys) (hf : ∀ x ∈ xs, ∀ y, R x y → d.Has (f y)) :
    d.Has (ys.flatMap f) := by
  refine flatMap fun y hy => ?_
  obtain ⟨x, hx, hxy⟩ := exists_mem_of_forall₂ h hy
  exact hf x hx y hxy

end Dialect.Has

open Dialect (Has)

section

variable {σ : Setting} {p : Position}

theorem OperandPair.constructs_expand {o : OperandPair} {first second : Except Error Sql.Expr}
    {c : Sql.Condition} (h : o.expand σ p first second = .ok c) : c.constructs = [] := by
  obtain ⟨_, _, _, _, _, _, _, _, rfl⟩ := expand_eq_ok_iff.mp h
  rfl

theorem Criterion.compose_has {c : Criterion} {e : Sql.Condition} (h : c.compose σ p = .ok e) :
    σ.dialect.Has e.constructs := by
  induction c generalizing e with
  | compare op left right =>
    obtain ⟨_, _, _, _, rfl⟩ := compose_compare_eq_ok_iff.mp h
    exact .nil
  | isNull negated o =>
    obtain ⟨_, _, rfl⟩ := compose_isNull_eq_ok_iff.mp h
    exact .nil
  | like negated o pattern option =>
    obtain ⟨_, _, ⟨_, _, rfl⟩ | ⟨_, _, _, rfl⟩⟩ := compose_like_eq_ok_iff.mp h
    · exact .nil
    · exact .nil
  | between negated o low high =>
    obtain ⟨_, _, _, _, _, _, rfl⟩ := compose_between_eq_ok_iff.mp h
    exact .nil
  | inList negated o values =>
    by_cases hnil : values = []
    · rw [hnil, compose_inList_nil, Except.ok.injEq] at h
      exact h ▸ .nil
    · obtain ⟨_, _, _, _, rfl⟩ := (compose_inList_eq_ok_iff hnil).mp h
      exact .nil
  | inSubQuery negated o query =>
    obtain ⟨_, _, _, _, rfl⟩ := compose_inSubQuery_eq_ok_iff.mp h
    exact .nil
  | pairInList negated pair values =>
    by_cases hnil : values = []
    · rw [hnil, compose_pairInList_nil, Except.ok.injEq] at h
      exact h ▸ .nil
    by_cases hrow : σ.dialect.rowValueInList = true
    · obtain ⟨_, _, _, _, rfl⟩ := (compose_pairInList_eq_ok_iff hnil hrow).mp h
      exact .singleton hrow
    · rw [Bool.not_eq_true] at hrow
      obtain ⟨cs, hcs, rfl⟩ := (compose_pairInList_expanded_eq_ok_iff hnil hrow).mp h
      rw [Sql.Condition.collects_constructs.expandedRows]
      exact .of_forall₂ hcs fun _ _ _ hc => OperandPair.constructs_expand hc ▸ .nil
  | pairInSubQuery negated pair query =>
    obtain ⟨hrow, _, _, _, _, rfl⟩ := compose_pairInSubQuery_eq_ok_iff.mp h
    exact .singleton hrow
  | exists_ negated query =>
    obtain ⟨_, _, rfl⟩ := compose_exists_eq_ok_iff.mp h
    exact .nil
  | all children ih =>
    obtain ⟨cs, hcs, rfl⟩ := compose_all_eq_ok_iff.mp h
    rw [Sql.Condition.collects_constructs.group]
    exact .of_forall₂ hcs fun c hc _ he => ih c hc he
  | any children ih =>
    obtain ⟨cs, hcs, rfl⟩ := compose_any_eq_ok_iff.mp h
    rw [Sql.Condition.collects_constructs.group]
    exact .of_forall₂ hcs fun c hc _ he => ih c hc he
  | not children ih =>
    obtain ⟨cs, hcs, rfl⟩ := compose_not_eq_ok_iff.mp h
    rw [Sql.Condition.collects_constructs.negation]
    exact .of_forall₂ hcs fun c hc _ he => ih c hc he

theorem Criterion.conjunction_has {cs : List Criterion} {es : List Sql.Condition}
    (h : List.Forall₂ (fun c e => c.compose σ p = .ok e) cs es) :
    σ.dialect.Has ((Sql.Condition.conjunction? es).toList.flatMap Sql.Condition.constructs) := by
  rw [Sql.Condition.collects_constructs.conjunction?]
  exact .of_forall₂ h fun _ _ _ he => compose_has he

theorem Select.compose_has {s : Select} {q : Sql.Select} (h : s.compose σ p = .ok q) :
    σ.dialect.Has q.constructs := by
  obtain ⟨_, items, _, source, _, joins, hjoins, conditions, hconditions, order, horder, lock, hlock,
    rfl⟩ := compose_eq_ok_iff.mp h
  have hon : σ.dialect.Has (joins.flatMap (·.on.constructs)) := .of_forall₂ hjoins fun j _ e hj => by
    obtain ⟨_, _, cs, hcs, rfl⟩ := Join.compose_eq_ok_iff.mp hj
    simp only [Sql.Condition.collects_constructs.conjunction_getD]
    exact .of_forall₂ hcs fun _ _ _ hc => Criterion.compose_has hc
  have horders : σ.dialect.Has (order.flatMap Sql.OrderItem.constructs) :=
    .of_forall₂ horder fun i _ o hi => by
      obtain ⟨_, _, hnulls, rfl⟩ := SortItem.compose_eq_ok_iff.mp hi
      exact .ite hnulls
  have hlocked : σ.dialect.Has (if lock.isSome then [Construct.lock] else []) := .ite fun hsome => by
    cases hmode : s.lock with
    | none =>
      rw [hmode] at hlock
      obtain rfl := pure_eq_ok_iff.mp hlock
      cases hsome
    | some mode =>
      rw [hmode] at hlock
      obtain ⟨_, hmode, _⟩ := bind_eq_ok_iff.mp hlock
      unfold Setting.lock at hmode
      cases hlocking : σ.dialect.locking with
      | supported => simp [Dialect.supports, hlocking]
      | refusedBy name => simp [hlocking] at hmode
  exact ((hon.append (Criterion.conjunction_has hconditions)).append horders).append hlocked

end

theorem Select.compose_supported {s : Select} {σ : Setting} {p : Position} {q : Sql.Select}
    (h : s.compose σ p = .ok q) {k : Construct} (hk : q.Contains k) :
    σ.dialect.supports k = true := by
  induction s generalizing p q with
  | step s ih =>
    cases hk with
    | here hk => exact compose_has h k hk
    | inside hr hk =>
      -- A nested select of the tree stems from a sub-query of this level.
      cases compose_stems h _ hr with
      | subQuery hsub hs =>
        obtain ⟨_, _, _, hs⟩ := SubQuery.compose_eq_ok_iff.mp hs
        exact ih _ (mem_subQueries_iff.mpr hsub) hs hk

theorem Sql.Expr.Stems.supported {σ : Setting} {p : Position} {os : List Operand} {s : Sql.Select}
    (h : (Sql.Expr.subQuery s).Stems σ p os) {k : Construct} (hk : s.Contains k) :
    σ.dialect.supports k = true := by
  cases h with
  | subQuery _ hs =>
    obtain ⟨_, _, _, hs⟩ := SubQuery.compose_eq_ok_iff.mp hs
    exact Select.compose_supported hs hk

section

variable {d : Dialect} {options defaults : QueryOptions}

theorem Select.command_supported {q : Select} {t : Sql.Select}
    (h : q.compose (.of d options) (.root (.ofSelect q)) = .ok t) {k : Construct}
    (hk : (Sql.Command.select t).Contains k) : d.supports k = true := by
  cases hk with
  | here hk => exact compose_supported h (.here hk)
  | inside hs hk => exact compose_supported h (.inside hs hk)

theorem UpdateQuery.compose_supported {q : UpdateQuery} {u : Sql.Update}
    (h : q.compose d options = .ok u) {k : Construct} (hk : (Sql.Command.update u).Contains k) :
    d.supports k = true := by
  cases hk with
  | here hk =>
    obtain ⟨items, _, conditions, hconditions, rfl⟩ := compose_eq_ok h
    exact Criterion.conjunction_has hconditions k hk
  | inside hs hk => exact (compose_stems h _ hs).supported hk

theorem DeleteQuery.compose_supported {q : DeleteQuery} {u : Sql.Delete}
    (h : q.compose d options = .ok u) {k : Construct} (hk : (Sql.Command.delete u).Contains k) :
    d.supports k = true := by
  cases hk with
  | here hk =>
    obtain ⟨conditions, hconditions, rfl⟩ := compose_eq_ok h
    exact Criterion.conjunction_has hconditions k hk
  | inside hs hk => exact (compose_stems h _ hs).supported hk

namespace InsertQuery

variable {q : InsertQuery}

theorem composeBody_upsert {σ : Setting} {cells : List (List Cell)} {body : Sql.WriteBody}
    (h : q.composeBody σ cells = .ok body) (hbody : body.isUpsert = true) :
    σ.dialect.supports .upsert = true := by
  unfold composeBody at h
  cases hq : q.conflict with
  | none =>
    simp only [hq, pure_eq_ok_iff] at h
    rw [← h] at hbody
    cases hbody
  | some o =>
    simp only [hq, OnConflict.compose] at h
    cases hd : σ.dialect.conflict <;> simp [Dialect.supports, hd] at h ⊢

/-- Several tuples are written for several rows only. -/
theorem compose_has {rows : List (List Value)} {w : Sql.Write} (h : q.Sends d options rows w)
    (hrows : rows.length > 1 → d.multiRowInsert = true) : d.Has w.constructs := by
  obtain ⟨cells, hcells, hw⟩ := h
  obtain ⟨_, hreturning, hbody, hcolumns⟩ := compose_eq_ok_iff.mp hw
  have hlength : w.body.rows.length = rows.length := by
    rw [(compose_rows hw).2.1, List.length_map, hcells.length_eq]
  have hupsert : d.Has (if w.body.isUpsert then [Construct.upsert] else []) :=
    .ite (composeBody_upsert hbody)
  have hreturns : d.Has (if w.returning.isSome then [Construct.returning] else []) :=
    .ite fun hsome => hreturning (by
      by_contra hr
      simp [hcolumns, hr] at hsome)
  exact (hupsert.append hreturns).append (.ite fun hmany => hrows (hlength ▸ hmany))

theorem sends_supported {rows : List (List Value)} {w : Sql.Write}
    (h : q.Sends d options rows w) (hrows : rows.length > 1 → d.multiRowInsert = true)
    {k : Construct} (hk : (Sql.Command.write w).Contains k) : d.supports k = true := by
  cases hk with
  | here hk => exact compose_has h hrows k hk
  | inside hs hk =>
    obtain ⟨cells, _, hw⟩ := h
    exact ((composeBody_stems (compose_eq_ok hw).1).2 _ hs).supported hk

end InsertQuery

namespace Query

theorem build_insert_has {draft : InsertDraft} {rows : Rows} {b : Built Output}
    (h : (insert draft rows).build d defaults = .ok b) :
    d.Has (rows.constructs draft.query.target) := by
  obtain ⟨_, h⟩ := build_insert_eq_ok_iff.mp h
  cases h with
  | single _ => exact .nil
  | @multiple rows _ hb =>
    refine .ite fun hmany => ?_
    have hrows : rows ≠ [] := fun hnil => by simp [hnil] at hmany
    exact (InsertQuery.exists_sends_of_buildMultiple hrows hb).1 hmany
  | batch hb => exact .ite (InsertQuery.exists_buildBatch_iff.mp ⟨_, hb⟩).1

theorem multiRow_of_shown {target : Table} {rows : Rows} (h : (rows.shown target).length > 1) :
    .multiRow ∈ rows.constructs target := by
  cases rows with
  | single row => simp [Rows.shown] at h
  | multiple rows =>
    have hmany : rows.length > 1 := h
    simp [Rows.constructs, hmany]
  | batch rows => cases rows <;> simp [Rows.shown] at h

theorem build_insert_supported {draft : InsertDraft} {rows : Rows} {b : Built Output}
    (h : (insert draft rows).build d defaults = .ok b) (hrows : rows ≠ .multiple []) :
    ∃ c, (insert draft rows).Composed d defaults c ∧ b.output.Shows d c ∧
      ∀ k, b.output.Contains k c → d.supports k = true := by
  obtain ⟨hfault, w, hsends, hshows⟩ := build_insert_text h hrows
  obtain ⟨cells, _, hw⟩ := id hsends
  refine ⟨_, .insert hfault hw, hshows, fun k hk => ?_⟩
  generalize ho : b.output = output at hk
  cases hk with
  | text hk =>
    exact InsertQuery.sends_supported hsends
      (fun hmany => build_insert_has h _ (multiRow_of_shown hmany)) hk
  | batch hidentity =>
    obtain ⟨_, _, hbatch, _⟩ := build_eq_batch h ho
    cases hbatch
    rw [(InsertQuery.composeBody_stems (InsertQuery.compose_eq_ok hw).1).1] at hidentity
    exact build_insert_has h _ (by simp [Rows.constructs, hidentity])

theorem build_output_supported {q : Query} {b : Built Output} (h : q.build d defaults = .ok b) :
    b.output = .statement (.empty d) ∨
      ∃ c, q.Composed d defaults c ∧ b.output.Shows d c ∧
        ∀ k, b.output.Contains k c → d.supports k = true := by
  rcases build_shows h with hempty | ⟨c, hc, hshows⟩
  · exact .inl hempty
  cases hc with
  | select hq => exact .inr ⟨_, .select hq, hshows, fun k hk =>
      Select.command_supported hq (hk.command (by simp))⟩
  | update hq => exact .inr ⟨_, .update hq, hshows, fun k hk =>
      UpdateQuery.compose_supported hq (hk.command (by simp))⟩
  | delete hq => exact .inr ⟨_, .delete hq, hshows, fun k hk =>
      DeleteQuery.compose_supported hq (hk.command (by simp))⟩
  | @insert draft rows =>
    -- The command at hand may write any number of rows, so that another one is chosen.
    by_cases hrows : rows = .multiple []
    · subst hrows
      exact .inl (build_insert_nothing h)
    · exact .inr (build_insert_supported h hrows)

/-- Whatever a statement contains is supported, at any depth, and what is refused as unsupported is
contained in the query and not supported. -/
theorem build_supported (q : Query) (d : Dialect) (defaults : QueryOptions) :
    (∀ b, q.build d defaults = .ok b → b.output = .statement (.empty d) ∨
      ∃ c, q.Composed d defaults c ∧ b.output.Shows d c ∧
        ∀ k, b.output.Contains k c → d.supports k = true) ∧
    ∀ name feature, q.build d defaults = .error (.unsupported name feature) →
      ∃ k, feature.construct? = some k ∧ q.Contains k ∧ d.supports k = false := by
  refine ⟨fun b hb => build_output_supported hb, fun name feature he => ?_⟩
  rcases build_refuses he with ⟨_, hmissing⟩ | hrefuses
  · cases hmissing
  · cases hrefuses with
    | unsupported hk hd hfeature _ => exact ⟨_, hfeature, hk, hd⟩

end Query

end

namespace Market

/-- A nested select puts stalls without a price last. -/
def ranked : Query :=
  .select ((Select.of (stall 0)).filterBy
    [.exists false ⟨1, (Select.of (stall 1)).orderedBy ⟨price 1, true, some .last⟩⟩])

end Market

theorem Query.build_supported_ranked :
    (∃ b, Market.ranked.build .postgres default = .ok b ∧
      ∃ c, b.output.Shows .postgres c ∧
        ∀ k, b.output.Contains k c → Dialect.postgres.supports k = true) ∧
    Market.ranked.build .mySql default = .error (.unsupported "mysql" .nullsOrdering) ∧
      Market.ranked.Contains .nullsOrdering ∧ Dialect.mySql.supports .nullsOrdering = false := by
  obtain ⟨b, hb⟩ : ∃ b, Market.ranked.build .postgres default = .ok b := ⟨_, rfl⟩
  have he : Market.ranked.build .mySql default = .error (.unsupported "mysql" .nullsOrdering) := rfl
  have hempty : b.output ≠ .statement (.empty .postgres) := by
    obtain rfl := Except.ok.inj hb
    intro h
    cases h
  obtain ⟨c, _, hshows, hc⟩ := ((build_supported Market.ranked .postgres default).1 b hb).resolve_left
    hempty
  obtain ⟨k, hk, hcontains, hno⟩ := (build_supported Market.ranked .mySql default).2 _ _ he
  obtain rfl : .nullsOrdering = k := Option.some.inj hk
  exact ⟨⟨b, hb, c, hshows, hc⟩, he, hcontains, hno⟩

end SqlCompose
