import SqlCompose.Proofs.Compose.Tracing
import SqlCompose.Proofs.Query.References
import SqlCompose.Proofs.Query.Written
import SqlCompose.Proofs.Sql.Containment

/-! What a query writes is found in its statement. A criterion that is written at any depth is composed
in the setting of the whole query, and its pieces are one stretch of the statement. -/

namespace SqlCompose

/-- One of the expressions is what the sub-query is composed to, with some demand on its width. -/
def SubQuery.ComposedAmong (σ : Setting) (p : Position) (q : SubQuery) (es : List Sql.Expr) :
    Prop :=
  ∃ width t, q.compose σ p width = .ok t ∧ .subQuery t ∈ es

section

variable {σ : Setting} {p : Position}

/-- One of the expressions is what the operand is composed to. Nothing is asked for where the text
of a pattern takes the place of the operand. -/
def Operand.ComposedAmong (σ : Setting) (p : Position) (o : Operand) (es : List Sql.Expr) : Prop :=
  match o with
  | .column c => ∃ n, c.qualify p.visible false = .ok n ∧ .column n ∈ es
  | .outer c => ∃ n, c.qualify p.outer true = .ok n ∧ .column n ∈ es
  | .subQuery q => q.ComposedAmong σ p es
  | .parameter _ => True
  | .pattern _ => True

theorem Operand.Becomes.composedAmong {o : Operand} {width : Option Nat} {e : Sql.Expr}
    (h : o.Becomes σ p width e) {es : List Sql.Expr} (he : e ∈ es) : o.ComposedAmong σ p es := by
  cases h with
  | column hn => exact ⟨_, hn, he⟩
  | outer hn => exact ⟨_, hn, he⟩
  | parameter _ _ => trivial
  | pattern _ _ => trivial
  | subQuery ht => exact ⟨_, _, ht, he⟩

theorem Matched.composedAmong {xs : List (Place Operand)} {ys : List (Place Sql.Expr)}
    (h : Matched (Place.Becomes σ p) xs ys) {o : Operand} (ho : o ∈ xs.map Place.content) :
    o.ComposedAmong σ p (ys.map Place.content) := by
  obtain ⟨x, hx, rfl⟩ := List.mem_map.mp ho
  obtain ⟨y, hy, _, hbecomes⟩ := h.image x hx
  exact hbecomes.composedAmong (List.mem_map_of_mem hy)

theorem Matched.operand_composedAmong {os : List Operand} {es : List Sql.Expr}
    (h : Matched (Place.Becomes σ p) (os.map Operand.place) (es.map Sql.Expr.place)) {o : Operand}
    (ho : o ∈ os) : o.ComposedAmong σ p es := by
  rw [← Sql.Expr.map_content_place es]
  refine h.composedAmong ?_
  rwa [Operand.map_content_place]

namespace Criterion

theorem composedAmong {c : Criterion} {x : Operand} {e : Sql.Condition}
    (hx : x ∈ c.written) (h : c.compose σ p = .ok e) : x.ComposedAmong σ p e.operands := by
  rw [← map_content_places] at hx
  rw [← Sql.Condition.map_content_places]
  exact (compose_places h).composedAmong hx

def FoundIn (σ : Setting) (p : Position) (c : Criterion) (ps : List Piece) : Prop :=
  ∃ e, c.compose σ p = .ok e ∧ e.pieces <:+: ps

theorem FoundIn.mono {c : Criterion} {ps qs : List Piece} (h : c.FoundIn σ p ps)
    (hsub : ps <:+: qs) : c.FoundIn σ p qs := by
  obtain ⟨e, he, hps⟩ := h
  exact ⟨e, he, hps.trans hsub⟩

theorem Within.foundIn {x c : Criterion} {e : Sql.Condition} (hx : x.Within c)
    (h : c.compose σ p = .ok e) : x.FoundIn σ p e.pieces := by
  -- Members of groups are composed in the position of the group.
  induction hx generalizing e with
  | self => exact ⟨e, h, List.infix_rfl⟩
  | all hc _ ih =>
    obtain ⟨cs, hcs, rfl⟩ := compose_all_eq_ok_iff.mp h
    obtain ⟨d, hd, hcompose⟩ := exists_mem_of_mem hcs hc
    exact (ih hcompose).mono (Sql.Condition.infix_group .and hd)
  | any hc _ ih =>
    obtain ⟨cs, hcs, rfl⟩ := compose_any_eq_ok_iff.mp h
    obtain ⟨d, hd, hcompose⟩ := exists_mem_of_mem hcs hc
    exact (ih hcompose).mono (Sql.Condition.infix_group .or hd)
  | not hc _ ih =>
    obtain ⟨cs, hcs, rfl⟩ := compose_not_eq_ok_iff.mp h
    obtain ⟨d, hd, hcompose⟩ := exists_mem_of_mem hcs hc
    exact (ih hcompose).mono (Sql.Condition.infix_negation hd)

theorem Among.foundIn {x : Criterion} {cs : List Criterion} {ps : List Piece} (hx : x.Among cs)
    (h : ∀ c ∈ cs, c.FoundIn σ p ps) : x.FoundIn σ p ps := by
  obtain ⟨c, hc, hwithin⟩ := hx
  obtain ⟨e, he, hinfix⟩ := h c hc
  exact (hwithin.foundIn he).mono hinfix

end Criterion

def SubQuery.FoundIn (σ : Setting) (p : Position) (q : SubQuery) (ps : List Piece) : Prop :=
  ∃ width t, q.compose σ p width = .ok t ∧ t.pieces <:+: ps

theorem SubQuery.ComposedAmong.foundIn {q : SubQuery} {es : List Sql.Expr} {ps : List Piece}
    (h : q.ComposedAmong σ p es) (hes : ∀ e ∈ es, e.pieces <:+: ps) : q.FoundIn σ p ps := by
  obtain ⟨width, t, ht, hmem⟩ := h
  exact ⟨width, t, ht, (Piece.infix_enclosed t.pieces).trans (hes _ hmem)⟩

theorem Criterion.Among.subQuery_foundIn {y : Criterion} {q : SubQuery} {cs : List Criterion}
    {ps : List Piece} (hy : y.Among cs) (hq : q ∈ y.ownSubQueries)
    (h : ∀ c ∈ cs, c.FoundIn σ p ps) : q.FoundIn σ p ps := by
  obtain ⟨f, hf, hinfix⟩ := hy.foundIn h
  have hamong : q.ComposedAmong σ p f.operands := composedAmong (subQuery_mem_written hq) hf
  exact hamong.foundIn fun x hx => (Sql.Condition.infix_pieces hx).trans hinfix

theorem SubQuery.FoundIn.exists_select {q : SubQuery} {ps : List Piece} (h : q.FoundIn σ p ps) :
    ∃ p' t, q.select.compose σ p' = .ok t ∧ t.pieces <:+: ps := by
  obtain ⟨width, t, ht, hinfix⟩ := h
  obtain ⟨_, child, _, hselect⟩ := compose_eq_ok_iff.mp ht
  exact ⟨_, t, hselect, hinfix⟩

namespace Select

variable {s : Select} {tree : Sql.Select}

theorem foundIn_of_mem_criteria (h : s.compose σ p = .ok tree) :
    ∀ c ∈ s.criteria, c.FoundIn σ p tree.pieces := by
  intro c hc
  obtain ⟨_, items, _, source, _, joins, hjoins, conditions, hconditions, order, _, lock, _, rfl⟩ :=
    compose_eq_ok_iff.mp h
  rcases List.mem_append.mp hc with hc | hc
  · obtain ⟨j, hj, hc⟩ := List.mem_flatMap.mp hc
    obtain ⟨e, he, hjoin⟩ := exists_mem_of_mem hjoins hj
    obtain ⟨_, _, cs, hcs, rfl⟩ := Join.compose_eq_ok_iff.mp hjoin
    obtain ⟨d, hd, hcompose⟩ := exists_mem_of_mem hcs hc
    exact ⟨d, hcompose, (Sql.Condition.infix_conjunction_getD true hd).trans
      (Sql.Select.infix_join he _)⟩
  · obtain ⟨d, hd, hcompose⟩ := exists_mem_of_mem hconditions hc
    exact ⟨d, hcompose, Sql.Select.infix_condition hd⟩

theorem Embeds.foundIn {q : SubQuery} (hq : s.Embeds q) (h : s.compose σ p = .ok tree) :
    q.FoundIn σ p tree.pieces := by
  rcases hq with hq | ⟨y, hy, hq⟩
  · obtain ⟨_, items, hitems, source, _, joins, _, conditions, _, order, _, lock, _, rfl⟩ :=
      compose_eq_ok_iff.mp h
    cases hprojection : s.projection with
    | allColumns =>
      rw [hprojection] at hq
      exact absurd hq List.not_mem_nil
    | explicit is =>
      rw [hprojection] at hq hitems
      obtain ⟨i, hi, hq⟩ := List.mem_flatMap.mp hq
      obtain ⟨e, he, hitem⟩ := exists_mem_of_mem
        (Projection.compose_explicit_eq_ok_iff.mp hitems) hi
      cases i with
      | subQuery query =>
        obtain ⟨t, ht, rfl⟩ := SelectItem.compose_subQuery_eq_ok_iff.mp hitem
        rw [List.mem_singleton.mp hq]
        exact ⟨_, t, ht, (Piece.infix_enclosed t.pieces).trans (Sql.Select.infix_item he _)⟩
      | _ => exact absurd hq List.not_mem_nil
  · exact hy.subQuery_foundIn hq (foundIn_of_mem_criteria h)

/-- However deep a criterion is written, it is found in the select around. -/
theorem Writes.foundIn {x : Criterion} (hx : s.Writes x) (h : s.compose σ p = .ok tree) :
    ∃ p', x.FoundIn σ p' tree.pieces := by
  induction hx generalizing p tree with
  | here hx => exact ⟨p, hx.foundIn (foundIn_of_mem_criteria h)⟩
  | inside hq _ ih =>
    obtain ⟨_, t, hselect, hinfix⟩ := (hq.foundIn h).exists_select
    obtain ⟨p', hfound⟩ := ih hselect
    exact ⟨p', hfound.mono hinfix⟩

end Select

theorem SubQuery.FoundIn.criterion {x : Criterion} {q : SubQuery} {ps : List Piece}
    (h : q.FoundIn σ p ps) (hx : q.select.Writes x) : ∃ p', x.FoundIn σ p' ps := by
  obtain ⟨_, t, hselect, hinfix⟩ := h.exists_select
  obtain ⟨p', hfound⟩ := hx.foundIn hselect
  exact ⟨p', hfound.mono hinfix⟩

theorem Assignment.subQuery_foundIn {as : List Assignment} {items : List Sql.SetItem}
    (h : Matched (Place.Becomes σ p) ((as.flatMap operands).map Operand.place)
      ((items.flatMap Sql.SetItem.operands).map Sql.Expr.place)) {r : SubQuery}
    (hr : r ∈ as.flatMap subQueries) {ps : List Piece}
    (hitems : ∀ e ∈ items.flatMap Sql.SetItem.operands, e.pieces <:+: ps) : r.FoundIn σ p ps := by
  rw [flatMap_subQueries_of fun a _ => a.subQueries_eq,
    Operand.mem_flatMap_subQueries_iff] at hr
  have hamong : r.ComposedAmong σ p (items.flatMap Sql.SetItem.operands) :=
    h.operand_composedAmong hr
  exact hamong.foundIn hitems

theorem InsertQuery.subQuery_foundIn {q : InsertQuery} {rows : List (List Cell)}
    {body : Sql.WriteBody} (h : q.composeBody σ rows = .ok body) {r : SubQuery}
    (hr : r ∈ q.subQueries) :
    r.FoundIn σ (.root (.ofTarget q.target q.subQueries)) body.pieces :=
  Assignment.subQuery_foundIn (composeBody_places h) (q.subQueries_eq_assigned ▸ hr)
    fun _ he => Sql.WriteBody.infix_pieces (body.items_operands_subset he)

end

section

variable {d : Dialect} {defaults : QueryOptions} {x : Criterion}

theorem UpdateQuery.foundIn {q : UpdateQuery} {u : Sql.Update} {options : QueryOptions}
    (h : q.compose d options = .ok u) :
    (∀ c ∈ q.filter, c.FoundIn (.of d options) (.root (.ofTarget q.target q.subQueries)) u.pieces) ∧
      ∀ a ∈ q.assignments, ∀ r ∈ a.subQueries,
        r.FoundIn (.of d options) (.root (.ofTarget q.target q.subQueries)) u.pieces := by
  obtain ⟨items, hitems, conditions, hconditions, rfl⟩ := compose_eq_ok h
  constructor
  · intro c hc
    obtain ⟨e, he, hcompose⟩ := exists_mem_of_mem hconditions hc
    exact ⟨e, hcompose, Sql.Update.infix_condition he⟩
  · intro a ha r hr
    refine Assignment.subQuery_foundIn (Assignment.forall_composeUpdate_places hitems)
      (List.mem_flatMap.mpr ⟨a, ha, hr⟩) fun e he => ?_
    exact Sql.Command.infix_pieces (c := .update ⟨q.target, items, _⟩) (List.mem_append_left _ he)

theorem DeleteQuery.foundIn {q : DeleteQuery} {u : Sql.Delete} {options : QueryOptions}
    (h : q.compose d options = .ok u) :
    ∀ c ∈ q.filter, c.FoundIn (.of d options) (.root (.ofTarget q.target q.subQueries))
      u.pieces := by
  obtain ⟨conditions, hconditions, rfl⟩ := compose_eq_ok h
  intro c hc
  obtain ⟨e, he, hcompose⟩ := exists_mem_of_mem hconditions hc
  exact ⟨e, hcompose, Sql.Delete.infix_condition he⟩

theorem InsertQuery.foundIn {q : InsertQuery} {rows : List (List Cell)} {w : Sql.Write}
    {options : QueryOptions} (h : q.compose d options rows = .ok w) :
    ∀ r ∈ q.subQueries,
      r.FoundIn (.of d options) (.root (.ofTarget q.target q.subQueries)) w.pieces := by
  intro r hr
  obtain ⟨width, t, ht, hinfix⟩ := subQuery_foundIn (compose_eq_ok h).1 hr
  exact ⟨width, t, ht, List.infix_append_of_infix_left hinfix⟩

/-- Every command that a query is composed into holds what the query writes, composed in the setting
of the query. -/
theorem Query.Composed.foundIn {q : Query} {c : Sql.Command} (hx : q.Writes x)
    (h : q.Composed d defaults c) : ∃ p, x.FoundIn (q.setting d defaults) p c.pieces := by
  cases h with
  | select h =>
    cases hx with
    | select hx => exact hx.foundIn h
  | update h =>
    obtain ⟨hfilter, hitems⟩ := UpdateQuery.foundIn h
    cases hx with
    | update hx => exact ⟨_, hx.foundIn hfilter⟩
    | insideUpdate hy hr hx => exact (hy.subQuery_foundIn hr hfilter).criterion hx
    | assigned ha hr hx => exact (hitems _ ha _ hr).criterion hx
  | delete h =>
    have hfilter := DeleteQuery.foundIn h
    cases hx with
    | delete hx => exact ⟨_, hx.foundIn hfilter⟩
    | insideDelete hy hr hx => exact (hy.subQuery_foundIn hr hfilter).criterion hx
  | insert hfault h =>
    cases hx with
    | upsert hr hx hrows => exact (InsertQuery.foundIn h _ hr).criterion hx

end

end SqlCompose
