import SqlCompose.Proofs.Compose.Commands
import SqlCompose.Proofs.Portability.Selects

/-! Queries for two dialects. As long as neither lacks what a query needs, it is refused for one
reason or binds the same values in the same order, whatever the texts look like. -/

namespace SqlCompose

/-- A select, an update, a delete or an insert of rows that keeps no conflict, whose criteria come from
calls at every level. -/
inductive Query.Called : Query → Prop where
  | select {q : Select} (h : q.Everywhere Select.Called) : Called (.select q)
  | update {q : UpdateQuery} (hfilter : Criterion.Called q.filter)
      (hinside : ∀ r ∈ q.subQueries, r.select.Everywhere Select.Called) : Called (.update q)
  | delete {q : DeleteQuery} (hfilter : Criterion.Called q.filter)
      (hinside : ∀ r ∈ q.subQueries, r.select.Everywhere Select.Called) : Called (.delete q)
  | single {draft : InsertDraft} (hplain : draft.query.conflict = none) (row : List Value) :
      Called (.insert draft (.single row))
  | multiple {draft : InsertDraft} (hplain : draft.query.conflict = none)
      (rows : List (List Value)) : Called (.insert draft (.multiple rows))

def Statement.BindAlike (s s' : Statement) : Prop := s.values = s'.values

def Built.BindAlike (b b' : Built Statement) : Prop := b.output.BindAlike b'.output

inductive Output.BindAlike : Output → Output → Prop where
  | statement {s s' : Statement} (h : s.BindAlike s') : BindAlike (.statement s) (.statement s')

section

variable {σ σ' : Setting} {p : Position}

theorem Assignment.composeUpdate_portable (hlike : σ.SameLike σ') (target : Table)
    {a : Assignment} (h : ∀ q ∈ a.subQueries, q.select.Portable σ σ') :
    UpToSupport (fun i i' => i.values = i'.values) (a.composeUpdate σ p target)
      (a.composeUpdate σ' p target) := by
  obtain ⟨column, value⟩ := a
  refine .check ?_
  cases value with
  | operand o =>
    refine (Operand.compose_portable hlike h).bind fun e e' he => .ok ?_
    rw [Sql.SetItem.values_expr, Sql.SetItem.values_expr, he]
  | incoming c => exact .error _

theorem Criterion.composeWhere_portable (hlike : σ.SameLike σ') {cs : List Criterion}
    (hcs : Called cs) (h : ∀ q ∈ cs.flatMap subQueries, q.select.Portable σ σ') :
    UpToSupport (fun f f' => ∃ es es', Sql.Condition.conjunction? es = f ∧
        Sql.Condition.conjunction? es' = f' ∧
          es.flatMap Sql.Condition.values = es'.flatMap Sql.Condition.values)
      (composeWhere σ p cs) (composeWhere σ' p cs) :=
  (composeAll_portable hlike hcs h).bind fun es es' hes =>
    .ok ⟨es, es', rfl, rfl, flatMap_eq_of_forall₂ hes⟩

end

section

variable {d d' : Dialect} {defaults options : QueryOptions}

theorem UpdateQuery.compose_portable {q : UpdateQuery}
    (hlike : (Setting.of d options).SameLike (.of d' options)) (hfilter : Criterion.Called q.filter)
    (h : ∀ r ∈ q.subQueries, r.select.Portable (.of d options) (.of d' options)) :
    UpToSupport (fun u u' => Piece.values u.pieces = Piece.values u'.pieces)
      (q.compose d options) (q.compose d' options) := by
  have hitems := fun a ha r hr =>
    h r (List.mem_append_left _ (List.mem_flatMap.mpr ⟨a, ha, hr⟩))
  refine .check (.check ?_)
  refine UpToSupport.bind (.mapM (List.forall₂_same.mpr fun a ha =>
    Assignment.composeUpdate_portable hlike q.target (hitems a ha))) fun items items' hi => ?_
  refine (Criterion.composeWhere_portable hlike hfilter fun r hr =>
    h r (List.mem_append_right _ hr)).bind fun f f' hf => .ok ?_
  obtain ⟨es, es', rfl, rfl, hes⟩ := hf
  rw [Sql.Update.values_pieces, Sql.Update.values_pieces, flatMap_eq_of_forall₂ hi, hes]

theorem DeleteQuery.compose_portable {q : DeleteQuery}
    (hlike : (Setting.of d options).SameLike (.of d' options)) (hfilter : Criterion.Called q.filter)
    (h : ∀ r ∈ q.subQueries, r.select.Portable (.of d options) (.of d' options)) :
    UpToSupport (fun u u' => Piece.values u.pieces = Piece.values u'.pieces)
      (q.compose d options) (q.compose d' options) := by
  refine .check ?_
  refine (Criterion.composeWhere_portable hlike hfilter h).bind fun f f' hf => .ok ?_
  obtain ⟨es, es', rfl, rfl, hes⟩ := hf
  rw [Sql.Delete.values_pieces, Sql.Delete.values_pieces, hes]

theorem InsertQuery.compile_portable {q : InsertQuery} (hplain : q.conflict = none)
    (rows : List (List Cell)) :
    UpToSupport Statement.BindAlike (q.compile d options rows) (q.compile d' options rows) := by
  obtain ⟨target, conflict, returning, own⟩ := q
  obtain rfl : conflict = none := hplain
  have hbody : UpToSupport
      (fun w w' : Sql.Write => Piece.values w.pieces = Piece.values w'.pieces)
      (compose d options ⟨target, none, returning, own⟩ rows)
      (compose d' options ⟨target, none, returning, own⟩ rows) := by
    refine .check ?_
    cases returning with
    | false => exact .ok rfl
    | true => exact (Setting.require_upToSupport _ _ _).bind fun _ _ _ => .ok rfl
  exact hbody.bind fun w w' hw => .ok hw

theorem InsertQuery.buildSingle_portable {q : InsertQuery} (hplain : q.conflict = none)
    (row : List Value) :
    UpToSupport Built.BindAlike (q.buildSingle d defaults row) (q.buildSingle d' defaults row) :=
  .bind_left fun cells _ => (compile_portable hplain [cells]).bind fun _ _ hs => .ok hs

theorem InsertQuery.buildMultiple_portable {q : InsertQuery} (hplain : q.conflict = none)
    (rows : List (List Value)) :
    UpToSupport Built.BindAlike (q.buildMultiple d defaults rows)
      (q.buildMultiple d' defaults rows) := by
  have hrows : UpToSupport Built.BindAlike
      (do let cells ← rows.mapM q.target.bindRow
          return (← q.compile d (q.options.getD defaults) cells).report q.verb
            (q.options.getD defaults))
      (do let cells ← rows.mapM q.target.bindRow
          return (← q.compile d' (q.options.getD defaults) cells).report q.verb
            (q.options.getD defaults)) :=
    .bind_left fun cells _ => (compile_portable hplain cells).bind fun _ _ hs => .ok hs
  unfold buildMultiple
  by_cases hempty : rows.isEmpty = true
  · simp only [hempty, if_true]
    exact .ok rfl
  simp only [hempty, if_false, Bool.false_eq_true]
  -- Only several rows ask for a dialect that takes them at once.
  by_cases hmany : rows.length > 1
  · by_cases hd : d.multiRowInsert = true
    · by_cases hd' : d'.multiRowInsert = true
      · simpa [hmany, hd, hd'] using hrows
      · simp only [hmany, hd', decide_true, Bool.true_and, Bool.not_false, if_true]
        exact .right _ rfl
    · simp only [hmany, hd, decide_true, Bool.true_and, Bool.not_false, if_true]
      exact .left rfl _
  · simpa [hmany] using hrows

theorem Query.build_upToSupport {q : Query} (hq : q.Called)
    (hlike : (q.setting d defaults).SameLike (q.setting d' defaults)) :
    UpToSupport (fun b b' => b.output.BindAlike b'.output) (q.build d defaults)
      (q.build d' defaults) := by
  cases hq with
  | @select q h =>
    -- What the pieces bind is what the statement binds.
    have hcompose := Select.Called.portable hlike h (.root (.ofSelect q))
    have hcompile : UpToSupport Statement.BindAlike
        (q.compile d (q.options.getD defaults)) (q.compile d' (q.options.getD defaults)) :=
      hcompose.bind fun _ _ ht => .ok ht
    have hbuild : UpToSupport Built.BindAlike (q.build d defaults) (q.build d' defaults) :=
      hcompile.bind fun _ _ hs => .ok hs
    exact hbuild.bind fun _ _ hb => .ok (.statement hb)
  | @update q hfilter hinside =>
    have hcompose := UpdateQuery.compose_portable hlike hfilter fun r hr =>
      Select.Called.portable hlike (hinside r hr)
    have hbuild : UpToSupport Built.BindAlike (q.build d defaults) (q.build d' defaults) :=
      hcompose.bind fun _ _ hu => .ok hu
    exact hbuild.bind fun _ _ hb => .ok (.statement hb)
  | @delete q hfilter hinside =>
    have hcompose := DeleteQuery.compose_portable hlike hfilter fun r hr =>
      Select.Called.portable hlike (hinside r hr)
    have hbuild : UpToSupport Built.BindAlike (q.build d defaults) (q.build d' defaults) :=
      hcompose.bind fun _ _ hu => .ok hu
    exact hbuild.bind fun _ _ hb => .ok (.statement hb)
  | @single draft hplain row =>
    refine .bind_left fun q hq => ?_
    obtain ⟨_, rfl⟩ := InsertDraft.finish_eq_ok_iff.mp hq
    exact (InsertQuery.buildSingle_portable hplain row).bind fun _ _ hb => .ok (.statement hb)
  | @multiple draft hplain rows =>
    refine .bind_left fun q hq => ?_
    obtain ⟨_, rfl⟩ := InsertDraft.finish_eq_ok_iff.mp hq
    exact (InsertQuery.buildMultiple_portable hplain rows).bind fun _ _ hb => .ok (.statement hb)

/-- Two dialects that write LIKE patterns alike and that both have what the query needs refuse it with
one error, or bind the same values in the same order. -/
theorem Query.build_bindAlike {q : Query} (hq : q.Called)
    (hlike : (q.setting d defaults).SameLike (q.setting d' defaults))
    (hd : ∀ e, q.build d defaults = .error e → e.isUnsupported = false)
    (hd' : ∀ e, q.build d' defaults = .error e → e.isUnsupported = false) :
    SameOutcome (fun b b' => b.output.BindAlike b'.output) (q.build d defaults)
      (q.build d' defaults) :=
  (build_upToSupport hq hlike).sameOutcome hd hd'

end

namespace Market

/-- Pairs that a stall may not have, and a name that is looked for inside. -/
def calls : List FilterCall :=
  [.pairInList true (number 0) (price 0) [(.int 1, .int 2), (.int 2, .null)],
    .inSubQuery false (number 0) ⟨1, ((Select.of (stall 1)).project [.column (number 1)]).filterBy
      (FilterCall.run [.like false (name 1) [⟨.literal, some "50%"⟩, ⟨.raw, some "_"⟩]])⟩]

def bargains : Query := .select ((Select.of (stall 0)).filterBy (FilterCall.run calls))

theorem bargains_called : bargains.Called := by
  have hcalls : ∀ c ∈ calls, c.Pushless := by
    intro c hc
    simp only [calls, List.mem_cons, List.not_mem_nil, or_false] at hc
    rcases hc with rfl | rfl
    · exact .pairInList true _ _ _
    · exact .inSubQuery false _ _
  refine .select (.intro ⟨⟨calls, hcalls, rfl⟩, fun j hj => absurd hj List.not_mem_nil⟩ ?_)
  intro q hq
  obtain rfl := List.mem_singleton.mp hq
  have hinner : ∀ c ∈ [FilterCall.like false (name 1) [⟨.literal, some "50%"⟩, ⟨.raw, some "_"⟩]],
      c.Pushless := by
    intro c hc
    exact List.mem_singleton.mp hc ▸ .like false _ _
  refine .intro ⟨⟨_, hinner, rfl⟩, fun j hj => absurd hj List.not_mem_nil⟩ ?_
  exact fun q hq => absurd hq List.not_mem_nil

end Market

/-- Row values for one dialect, comparisons for the other, and the same values for both. -/
theorem Query.build_bindAlike_bargains :
    ∃ b b', Market.bargains.build .postgres default = .ok b ∧
      Market.bargains.build .sqlite default = .ok b' ∧ b.output.BindAlike b'.output := by
  obtain ⟨b, hb⟩ : ∃ b, Market.bargains.build .postgres default = .ok b := ⟨_, rfl⟩
  obtain ⟨b', hb'⟩ : ∃ b, Market.bargains.build .sqlite default = .ok b := ⟨_, rfl⟩
  have hlike : (Market.bargains.setting .postgres default).SameLike
      (Market.bargains.setting .sqlite default) := ⟨rfl, fun _ => rfl⟩
  have hsame := Query.build_bindAlike Market.bargains_called hlike
    (fun e he => absurd (hb.symm.trans he) (by simp))
    (fun e he => absurd (hb'.symm.trans he) (by simp))
  rw [hb, hb'] at hsame
  cases hsame with
  | ok h => exact ⟨b, b', hb, hb', h⟩

end SqlCompose
