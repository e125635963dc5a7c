import SqlCompose.Proofs.Compose.Places

/-! What a composed level writes stems from what the query mentions at that level. Nothing is
written that the query does not ask for, and nothing is looked up anywhere else. -/

namespace SqlCompose

namespace Sql

/-- The expressions that composing makes of operands at a position. -/
inductive Expr.Stems (σ : Setting) (p : Position) (os : List Operand) : Expr → Prop where
  | parameter (b : Bound) : Stems σ p os (.parameter b)
  | column {c : Column} {n : ColumnName} (hc : .column c ∈ os)
      (hn : c.qualify p.visible false = .ok n) : Stems σ p os (.column n)
  | outer {c : Column} {n : ColumnName} (hc : .outer c ∈ os)
      (hn : c.qualify p.outer true = .ok n) : Stems σ p os (.column n)
  | subQuery {q : SubQuery} {width : Option Nat} {s : Select} (hq : .subQuery q ∈ os)
      (hs : q.compose σ p width = .ok s) : Stems σ p os (.subQuery s)

variable {σ : Setting} {p : Position}

theorem Expr.Stems.mono {os more : List Operand} {e : Expr} (h : e.Stems σ p os)
    (hsub : os ⊆ more) : e.Stems σ p more := by
  cases h with
  | parameter b => exact .parameter b
  | column hc hn => exact .column (hsub hc) hn
  | outer hc hn => exact .outer (hsub hc) hn
  | subQuery hq hs => exact .subQuery (hsub hq) hs

end Sql

section

variable {σ : Setting} {p : Position}

theorem Operand.Becomes.stems {o : Operand} {width : Option Nat} {e : Sql.Expr}
    (h : o.Becomes σ p width e) {os : List Operand} (ho : o ∈ os) : e.Stems σ p os := by
  cases h with
  | column hn => exact .column ho hn
  | outer hn => exact .outer ho hn
  | parameter _ b => exact .parameter b
  | pattern _ b => exact .parameter b
  | subQuery ht => exact .subQuery ho ht

theorem Matched.stems {xs : List (Place Operand)} {ys : List (Place Sql.Expr)}
    (h : Matched (Place.Becomes σ p) xs ys) {os : List Operand}
    (hsub : xs.map Place.content ⊆ os) : ∀ e ∈ ys.map Place.content, e.Stems σ p os := by
  intro e he
  obtain ⟨y, hy, rfl⟩ := List.mem_map.mp he
  obtain ⟨x, hx, _, hbecomes⟩ := h.origin y hy
  exact hbecomes.stems (hsub (List.mem_map_of_mem hx))

theorem Matched.operands_stems {os : List Operand} {es : List Sql.Expr}
    (h : Matched (Place.Becomes σ p) (os.map Operand.place) (es.map Sql.Expr.place)) :
    ∀ e ∈ es, e.Stems σ p os := by
  rw [← Sql.Expr.map_content_place es]
  refine h.stems ?_
  rw [Operand.map_content_place]
  exact List.Subset.refl _

theorem Criterion.forall_compose_stems {cs : List Criterion} {es : List Sql.Condition}
    (h : List.Forall₂ (fun c e => c.compose σ p = .ok e) cs es) :
    ∀ e ∈ es.flatMap Sql.Condition.operands, e.Stems σ p (cs.flatMap operands) := by
  rw [← Sql.map_content_flatMap Sql.Condition.map_content_places]
  refine (forall_compose_places h).stems ?_
  rw [map_content_flatMap fun c _ => c.map_content_places]
  exact flatMap_written_subset fun c _ => c.written_subset

theorem Select.compose_stems {s : Select} {q : Sql.Select} (h : s.compose σ p = .ok q) :
    ∀ e ∈ q.operands, e.Stems σ p s.operands := by
  rw [← Sql.Select.map_content_places]
  exact (compose_places h).stems (s.map_content_places ▸ s.written_subset)

theorem InsertQuery.composeBody_stems {q : InsertQuery} {rows : List (List Cell)}
    {body : Sql.WriteBody} (h : q.composeBody σ rows = .ok body) :
    body.table = q.target ∧
      ∀ e ∈ body.operands, e.Stems σ (.root (.ofTarget q.target q.subQueries)) q.operands := by
  have hitems : ∀ e ∈ body.items.flatMap Sql.SetItem.operands,
      e.Stems σ (.root (.ofTarget q.target q.subQueries)) q.operands := fun e he =>
    ((composeBody_places h).operands_stems e he).mono q.assigned_operands_subset
  unfold composeBody at h
  cases hc : q.conflict with
  | none =>
    rw [hc, pure_eq_ok_iff] at h
    rw [← h]
    exact ⟨rfl, by simp [Sql.WriteBody.operands, Sql.Insert.operands]⟩
  | some conflict =>
    rw [hc] at h
    obtain ⟨_, _, items, _, hform⟩ := OnConflict.compose_eq_ok_iff.mp h
    cases hform with
    | merge _ _ _ hnames =>
      refine ⟨rfl, fun e he => ?_⟩
      rcases List.mem_append.mp he with he | he
      · obtain ⟨n, hn, rfl⟩ := List.mem_map.mp he
        obtain ⟨c, hc', hq⟩ := exists_mem_of_forall₂ hnames hn
        refine .column ?_ hq
        simp only [operands, hc]
        exact List.mem_append_left _ (List.mem_map_of_mem hc')
      · exact hitems e he
    | _ => exact ⟨rfl, hitems⟩

end

section

variable {d : Dialect} {options : QueryOptions}

theorem UpdateQuery.compose_stems {q : UpdateQuery} {u : Sql.Update}
    (h : q.compose d options = .ok u) :
    ∀ e ∈ u.operands, e.Stems (.of d options) (.root (.ofTarget q.target q.subQueries))
      q.operands := by
  obtain ⟨items, hitems, conditions, hconditions, rfl⟩ := compose_eq_ok h
  intro e he
  simp only [Sql.Update.operands, Sql.Condition.collects_operands.conjunction?] at he
  rcases List.mem_append.mp he with he | he
  · exact ((Assignment.forall_composeUpdate_places hitems).operands_stems e he).mono
      fun o ho => List.mem_append_left _ ho
  · exact (Criterion.forall_compose_stems hconditions e he).mono
      fun o ho => List.mem_append_right _ ho

theorem DeleteQuery.compose_stems {q : DeleteQuery} {u : Sql.Delete}
    (h : q.compose d options = .ok u) :
    ∀ e ∈ u.operands, e.Stems (.of d options) (.root (.ofTarget q.target q.subQueries))
      q.operands := by
  obtain ⟨conditions, hconditions, rfl⟩ := compose_eq_ok h
  intro e he
  simp only [Sql.Delete.operands, Sql.Condition.collects_operands.conjunction?] at he
  exact Criterion.forall_compose_stems hconditions e he

end

end SqlCompose
