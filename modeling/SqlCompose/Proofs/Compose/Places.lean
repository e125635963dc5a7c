import SqlCompose.Proofs.Sql.Places

/-! Operands and the expressions that they become. The places of a level and those of what it is composed
to correspond: what stands in one is what became of something that stands in the other. -/

namespace SqlCompose

/-- Each member of a list has a counterpart in the other. -/
structure Matched {α β : Type} (R : α → β → Prop) (xs : List α) (ys : List β) : Prop where
  image : ∀ x ∈ xs, ∃ y ∈ ys, R x y
  origin : ∀ y ∈ ys, ∃ x ∈ xs, R x y

namespace Matched

variable {α β γ δ : Type} {R : α → β → Prop} {xs xs' : List α} {ys ys' : List β}

theorem of_forall₂ (h : List.Forall₂ R xs ys) : Matched R xs ys :=
  ⟨fun _ hx => exists_mem_of_mem h hx, fun _ hy => exists_mem_of_forall₂ h hy⟩

theorem nil : Matched R [] [] := of_forall₂ .nil

theorem append (h : Matched R xs ys) (h' : Matched R xs' ys') :
    Matched R (xs ++ xs') (ys ++ ys') := by
  refine ⟨fun x hx => ?_, fun y hy => ?_⟩
  · rcases List.mem_append.mp hx with hx | hx
    · obtain ⟨y, hy, hxy⟩ := h.image x hx
      exact ⟨y, List.mem_append_left _ hy, hxy⟩
    · obtain ⟨y, hy, hxy⟩ := h'.image x hx
      exact ⟨y, List.mem_append_right _ hy, hxy⟩
  · rcases List.mem_append.mp hy with hy | hy
    · obtain ⟨x, hx, hxy⟩ := h.origin y hy
      exact ⟨x, List.mem_append_left _ hx, hxy⟩
    · obtain ⟨x, hx, hxy⟩ := h'.origin y hy
      exact ⟨x, List.mem_append_right _ hx, hxy⟩

theorem flatMap {S : γ → δ → Prop} {f : γ → List α} {g : δ → List β} {as : List γ} {bs : List δ}
    (h : List.Forall₂ S as bs) (hmatched : ∀ a ∈ as, ∀ b, S a b → Matched R (f a) (g b)) :
    Matched R (as.flatMap f) (bs.flatMap g) := by
  induction h with
  | nil => exact .nil
  | cons hab _ ih =>
    rw [List.flatMap_cons, List.flatMap_cons]
    exact (hmatched _ List.mem_cons_self _ hab).append
      (ih fun a ha => hmatched a (List.mem_cons_of_mem _ ha))

theorem congr_left (h : Matched R xs ys) (hxs : ∀ x, x ∈ xs' ↔ x ∈ xs) : Matched R xs' ys := by
  refine ⟨fun x hx => h.image x ((hxs x).mp hx), fun y hy => ?_⟩
  obtain ⟨x, hx, hxy⟩ := h.origin y hy
  exact ⟨x, (hxs x).mpr hx, hxy⟩

end Matched

/-- What an operand is composed to where some width is asked for. A text may have become a pattern. -/
inductive Operand.Becomes (σ : Setting) (p : Position) (width : Option Nat) :
    Operand → Sql.Expr → Prop where
  | column {c : Column} {n : Sql.ColumnName} (hn : c.qualify p.visible false = .ok n) :
      Becomes σ p width (.column c) (.column n)
  | outer {c : Column} {n : Sql.ColumnName} (hn : c.qualify p.outer true = .ok n) :
      Becomes σ p width (.outer c) (.column n)
  | parameter (b bound : Bound) : Becomes σ p width (.parameter b) (.parameter bound)
  | pattern (parts : List PatternPart) (bound : Bound) :
      Becomes σ p width (.pattern parts) (.parameter bound)
  | subQuery {q : SubQuery} {t : Sql.Select} (ht : q.compose σ p width = .ok t) :
      Becomes σ p width (.subQuery q) (.subQuery t)

/-- The places take the same width, and the operand in the one has become the expression in the
other. -/
def Place.Becomes (σ : Setting) (p : Position) (x : Place Operand) (y : Place Sql.Expr) : Prop :=
  x.width = y.width ∧ x.content.Becomes σ p x.width y.content

section

variable {σ : Setting} {p : Position}

namespace Operand

theorem compose_becomes {o : Operand} {e : Sql.Expr} (h : o.compose σ p = .ok e) :
    o.Becomes σ p (some 1) e := by
  cases o with
  | column c =>
    obtain ⟨n, hn, rfl⟩ := compose_column_eq_ok_iff.mp h
    exact .column hn
  | outer c =>
    obtain ⟨n, hn, rfl⟩ := compose_outer_eq_ok_iff.mp h
    exact .outer hn
  | parameter b =>
    obtain rfl := compose_parameter_eq_ok_iff.mp h
    exact .parameter b b
  | subQuery q =>
    obtain ⟨t, ht, rfl⟩ := compose_subQuery_eq_ok_iff.mp h
    exact .subQuery ht
  | pattern parts =>
    obtain rfl := compose_pattern_eq_ok_iff.mp h
    exact .pattern parts _

theorem becomes_of_patternParts? {o : Operand} {option : LikeOption} {parts : List PatternPart}
    (h : o.patternParts? option = some parts) (bound : Bound) :
    o.Becomes σ p (some 1) (.parameter bound) := by
  cases o with
  | parameter b => exact .parameter b bound
  | pattern parts => exact .pattern parts bound
  | _ => simp [patternParts?] at h

theorem compose_place {o : Operand} {e : Sql.Expr} (h : o.compose σ p = .ok e) :
    o.place.Becomes σ p e.place :=
  ⟨rfl, compose_becomes h⟩

theorem compose_places {os : List Operand} {es : List Sql.Expr}
    (h : List.Forall₂ (fun o e => o.compose σ p = .ok e) os es) :
    Matched (Place.Becomes σ p) (os.map place) (es.map Sql.Expr.place) :=
  .of_forall₂ (List.forall₂_map_left_iff.mpr
    (List.forall₂_map_right_iff.mpr (h.imp fun _ _ ho => compose_place ho)))

end Operand

theorem SubQuery.compose_place {q : SubQuery} {width : Option Nat} {t : Sql.Select}
    (h : q.compose σ p width = .ok t) :
    Place.Becomes σ p ⟨width, .subQuery q⟩ ⟨width, .subQuery t⟩ :=
  ⟨rfl, .subQuery h⟩

theorem OperandPair.compose_operands {o : OperandPair} {r : Sql.ExprPair}
    (h : o.compose σ p = .ok r) :
    List.Forall₂ (fun o e => o.compose σ p = .ok e) o.operands r.operands := by
  obtain ⟨a, ha, b, hb, rfl⟩ := compose_eq_ok_iff.mp h
  exact .cons ha (.cons hb .nil)

theorem OperandPair.compose_places {o : OperandPair} {r : Sql.ExprPair}
    (h : o.compose σ p = .ok r) : Matched (Place.Becomes σ p) (o.operands.map Operand.place)
      (r.operands.map Sql.Expr.place) :=
  Operand.compose_places (compose_operands h)

/-- A comparison of an expanded list writes the pair and one of the values. -/
theorem OperandPair.expand_places {pair o : OperandPair} {c : Sql.Condition}
    (h : o.expand σ p (pair.first.compose σ p) (pair.second.compose σ p) = .ok c) :
    Matched (Place.Becomes σ p) ((pair.operands ++ o.operands).map Operand.place) c.places := by
  obtain ⟨a, ha, x, hx, b, hb, y, hy, rfl⟩ := expand_eq_ok_iff.mp h
  have hmatched : Matched (Place.Becomes σ p)
      ([pair.first, o.first, pair.second, o.second].map Operand.place)
      ([a, x, b, y].map Sql.Expr.place) :=
    Operand.compose_places (.cons ha (.cons hx (.cons hb (.cons hy .nil))))
  refine hmatched.congr_left fun z => ?_
  simp only [operands, List.map_append, List.map_cons, List.map_nil, List.mem_append, List.mem_cons,
    List.not_mem_nil, or_false]
  tauto

namespace Criterion

theorem compose_pairInList_places {negated : Bool} {pair : OperandPair} {values : List OperandPair}
    {e : Sql.Condition} (hne : values ≠ [])
    (h : (pairInList negated pair values).compose σ p = .ok e) :
    Matched (Place.Becomes σ p)
      ((pair.operands ++ values.flatMap OperandPair.operands).map Operand.place) e.places := by
  by_cases hrow : σ.dialect.rowValueInList = true
  · obtain ⟨row, hr, rs, hrs, rfl⟩ := (compose_pairInList_eq_ok_iff hne hrow).mp h
    rw [Sql.Condition.places, List.map_append, List.map_append, List.map_flatMap, List.map_flatMap]
    exact (OperandPair.compose_places hr).append
      (.flatMap hrs fun _ _ _ ho => OperandPair.compose_places ho)
  · rw [Bool.not_eq_true] at hrow
    obtain ⟨cs, hcs, rfl⟩ := (compose_pairInList_expanded_eq_ok_iff hne hrow).mp h
    have hmatched : Matched (Place.Becomes σ p)
        (values.flatMap fun o => (pair.operands ++ o.operands).map Operand.place)
        (cs.flatMap Sql.Condition.places) :=
      .flatMap hcs fun _ _ _ ho => OperandPair.expand_places ho
    rw [Sql.Condition.collects_places.expandedRows]
    -- The pair is repeated beside each value, of which there is one at least.
    refine hmatched.congr_left fun x => ?_
    obtain ⟨v, hv⟩ := List.exists_mem_of_ne_nil values hne
    simp only [List.map_append, List.map_flatMap, List.mem_append, List.mem_flatMap]
    constructor
    · rintro (hx | ⟨o, ho, hx⟩)
      · exact ⟨v, hv, .inl hx⟩
      · exact ⟨o, ho, .inr hx⟩
    · rintro ⟨o, ho, hx | hx⟩
      · exact .inl hx
      · exact .inr ⟨o, ho, hx⟩

theorem compose_places {c : Criterion} {e : Sql.Condition} (h : c.compose σ p = .ok e) :
    Matched (Place.Becomes σ p) c.places e.places := by
  induction c generalizing e with
  | compare op left right =>
    obtain ⟨l, hl, r, hr, rfl⟩ := compose_compare_eq_ok_iff.mp h
    exact Operand.compose_places (.cons hl (.cons hr .nil))
  | isNull negated o =>
    obtain ⟨a, ha, rfl⟩ := compose_isNull_eq_ok_iff.mp h
    exact Operand.compose_places (.cons ha .nil)
  | like negated o pattern option =>
    obtain ⟨a, ha, h⟩ := compose_like_eq_ok_iff.mp h
    rcases h with ⟨parts, hparts, rfl⟩ | ⟨_, b, hb, rfl⟩
    · exact .of_forall₂ (.cons (Operand.compose_place ha)
        (.cons ⟨rfl, Operand.becomes_of_patternParts? hparts _⟩ .nil))
    · exact Operand.compose_places (.cons ha (.cons hb .nil))
  | between negated o low high =>
    obtain ⟨a, ha, l, hl, u, hu, rfl⟩ := compose_between_eq_ok_iff.mp h
    exact Operand.compose_places (.cons ha (.cons hl (.cons hu .nil)))
  | inList negated o values =>
    cases values with
    | nil =>
      obtain rfl := Except.ok.inj (compose_inList_nil.symm.trans h)
      exact .nil
    | cons v vs =>
      obtain ⟨a, ha, es, hes, rfl⟩ := (compose_inList_eq_ok_iff (List.cons_ne_nil v vs)).mp h
      exact Operand.compose_places (.cons ha hes)
  | inSubQuery negated o query =>
    obtain ⟨a, ha, t, ht, rfl⟩ := compose_inSubQuery_eq_ok_iff.mp h
    exact .of_forall₂ (.cons (Operand.compose_place ha) (.cons (SubQuery.compose_place ht) .nil))
  | pairInList negated pair values =>
    cases values with
    | nil =>
      obtain rfl := Except.ok.inj (compose_pairInList_nil.symm.trans h)
      exact .nil
    | cons v vs => exact compose_pairInList_places (List.cons_ne_nil v vs) h
  | pairInSubQuery negated pair query =>
    obtain ⟨_, row, hr, t, ht, rfl⟩ := compose_pairInSubQuery_eq_ok_iff.mp h
    exact (OperandPair.compose_places hr).append
      (.of_forall₂ (.cons (SubQuery.compose_place ht) .nil))
  | exists_ negated query =>
    obtain ⟨t, ht, rfl⟩ := compose_exists_eq_ok_iff.mp h
    exact .of_forall₂ (.cons (SubQuery.compose_place ht) .nil)
  | all cs ih =>
    obtain ⟨es, hes, rfl⟩ := compose_all_eq_ok_iff.mp h
    rw [places_all, Sql.Condition.collects_places.group]
    exact .flatMap hes fun c hc _ h => ih c hc h
  | any cs ih =>
    obtain ⟨es, hes, rfl⟩ := compose_any_eq_ok_iff.mp h
    rw [places_any, Sql.Condition.collects_places.group]
    exact .flatMap hes fun c hc _ h => ih c hc h
  | not cs ih =>
    obtain ⟨es, hes, rfl⟩ := compose_not_eq_ok_iff.mp h
    rw [places_not, Sql.Condition.collects_places.negation]
    exact .flatMap hes fun c hc _ h => ih c hc h

theorem forall_compose_places {cs : List Criterion} {es : List Sql.Condition}
    (h : List.Forall₂ (fun c e => c.compose σ p = .ok e) cs es) :
    Matched (Place.Becomes σ p) (cs.flatMap places) (es.flatMap Sql.Condition.places) :=
  .flatMap h fun _ _ _ hc => compose_places hc

end Criterion

theorem SelectItem.compose_places {i : SelectItem} {e : Sql.SelectItem} (h : i.compose σ p = .ok e) :
    Matched (Place.Becomes σ p) (i.operands.map Operand.place)
      (e.operands.map Sql.Expr.place) := by
  cases i with
  | column c =>
    obtain ⟨n, hn, rfl⟩ := compose_column_eq_ok_iff.mp h
    exact .of_forall₂ (.cons ⟨rfl, .column hn⟩ .nil)
  | aggregate a =>
    cases a with
    | countAll =>
      obtain rfl := pure_eq_ok_iff.mp h
      exact .nil
    | _ =>
      obtain ⟨n, hn, rfl⟩ := map_eq_ok_iff.mp h
      exact .of_forall₂ (.cons ⟨rfl, .column hn⟩ .nil)
  | subQuery q =>
    obtain ⟨t, ht, rfl⟩ := compose_subQuery_eq_ok_iff.mp h
    exact .of_forall₂ (.cons (SubQuery.compose_place ht) .nil)

theorem Projection.compose_places {j : Projection} {target : Table} {items : List Sql.SelectItem}
    (h : j.compose σ p target = .ok items) :
    Matched (Place.Becomes σ p) ((j.operands target).map Operand.place)
      ((items.flatMap Sql.SelectItem.operands).map Sql.Expr.place) := by
  cases j with
  | allColumns =>
    have hitems := compose_allColumns_eq_ok_iff.mp h
    rw [operands, List.map_map, List.map_eq_flatMap, List.map_flatMap]
    refine .flatMap hitems ?_
    rintro c _ _ ⟨n, hn, rfl⟩
    exact .of_forall₂ (.cons ⟨rfl, .column hn⟩ .nil)
  | explicit is =>
    rw [operands, List.map_flatMap, List.map_flatMap]
    exact .flatMap (compose_explicit_eq_ok_iff.mp h) fun _ _ _ hi => SelectItem.compose_places hi

theorem Join.compose_places {j : Join} {e : Sql.Join} (h : j.compose σ p = .ok e) :
    Matched (Place.Becomes σ p) (j.on.flatMap Criterion.places) e.on.places := by
  obtain ⟨_, _, cs, hcs, rfl⟩ := compose_eq_ok_iff.mp h
  rw [Sql.Condition.collects_places.conjunction_getD]
  exact Criterion.forall_compose_places hcs

theorem SortItem.compose_places {is : List SortItem} {os : List Sql.OrderItem}
    (h : List.Forall₂ (fun i o => i.compose σ p = .ok o) is os) :
    Matched (Place.Becomes σ p) ((is.map fun i => .column i.column).map Operand.place)
      ((os.map fun o => .column o.name).map Sql.Expr.place) := by
  rw [List.map_map, List.map_map]
  refine .of_forall₂ (List.forall₂_map_left_iff.mpr (List.forall₂_map_right_iff.mpr
    (h.imp fun i o ho => ?_)))
  obtain ⟨n, hn, _, rfl⟩ := compose_eq_ok_iff.mp ho
  exact ⟨rfl, .column hn⟩

theorem Select.compose_places {s : Select} {t : Sql.Select} (h : s.compose σ p = .ok t) :
    Matched (Place.Becomes σ p) s.places t.places := by
  obtain ⟨_, items, hitems, source, _, joins, hjoins, conditions, hconditions, order, horder, lock,
    _, rfl⟩ := compose_eq_ok_iff.mp h
  have hon : Matched (Place.Becomes σ p) (s.joins.flatMap fun j => j.on.flatMap Criterion.places)
      (joins.flatMap (·.on.places)) := .flatMap hjoins fun _ _ _ hj => Join.compose_places hj
  rw [places, criteria, List.flatMap_append, List.flatMap_assoc, ← List.append_assoc,
    Sql.Select.places, Sql.Condition.collects_places.conjunction?]
  exact (((Projection.compose_places hitems).append hon).append
    (Criterion.forall_compose_places hconditions)).append (SortItem.compose_places horder)

theorem Assignment.composeUpdate_places {target : Table} {a : Assignment} {i : Sql.SetItem}
    (h : a.composeUpdate σ p target = .ok i) :
    Matched (Place.Becomes σ p) (a.operands.map Operand.place)
      (i.operands.map Sql.Expr.place) := by
  obtain ⟨_, o, ho, e, he, rfl⟩ := composeUpdate_eq_ok_iff.mp h
  rw [operands, ho]
  exact Operand.compose_places (.cons he .nil)

theorem Assignment.forall_composeUpdate_places {target : Table} {as : List Assignment}
    {is : List Sql.SetItem} (h : List.Forall₂ (fun a i => a.composeUpdate σ p target = .ok i) as is) :
    Matched (Place.Becomes σ p) ((as.flatMap operands).map Operand.place)
      ((is.flatMap Sql.SetItem.operands).map Sql.Expr.place) := by
  rw [List.map_flatMap, List.map_flatMap]
  exact .flatMap h fun _ _ _ ha => composeUpdate_places ha

theorem Assignment.composeUpsert_places {a : Assignment} {i : Sql.SetItem}
    (h : a.composeUpsert σ p = .ok i) :
    Matched (Place.Becomes σ p) (a.operands.map Operand.place)
      (i.operands.map Sql.Expr.place) := by
  rcases composeUpsert_eq_ok_iff.mp h with ⟨o, ho, e, he, rfl⟩ | ⟨c, hc, rfl⟩
  · rw [operands, ho]
    exact Operand.compose_places (.cons he .nil)
  · rw [operands, hc]
    exact .nil

theorem Assignment.forall_composeUpsert_places {as : List Assignment} {is : List Sql.SetItem}
    (h : List.Forall₂ (fun a i => a.composeUpsert σ p = .ok i) as is) :
    Matched (Place.Becomes σ p) ((as.flatMap operands).map Operand.place)
      ((is.flatMap Sql.SetItem.operands).map Sql.Expr.place) := by
  rw [List.map_flatMap, List.map_flatMap]
  exact .flatMap h fun _ _ _ ha => composeUpsert_places ha

/-- Explicit assignments become the `set` items of an upsert. -/
theorem InsertQuery.composeBody_places {q : InsertQuery} {rows : List (List Cell)}
    {body : Sql.WriteBody} (h : q.composeBody σ rows = .ok body) :
    Matched (Place.Becomes σ (.root (.ofTarget q.target q.subQueries)))
      ((q.assigned.flatMap Assignment.operands).map Operand.place)
      ((body.items.flatMap Sql.SetItem.operands).map Sql.Expr.place) := by
  obtain ⟨_, as, hitems, has⟩ := composeBody_items h
  have hmatched := Assignment.forall_composeUpsert_places hitems
  rcases has with rfl | ⟨hnone, cs, _, rfl⟩
  · exact hmatched
  · -- Incoming values are no operands.
    have hincoming : (cs.map Assignment.setIncoming).flatMap Assignment.operands = [] :=
      List.flatMap_eq_nil_iff.mpr fun a ha => by
        obtain ⟨c, _, rfl⟩ := List.mem_map.mp ha
        rfl
    rw [hincoming] at hmatched
    rw [hnone]
    exact hmatched

end

end SqlCompose
