import SqlCompose.Query.Insert

/-! Induction over criteria within one level and over selects along their nesting. A sub-query
that a level mentions is smaller than the level, however deep its criteria are. -/

namespace SqlCompose

namespace Criterion

/-- Groups hold criteria of the same level. Sub-queries are leaves here. -/
@[elab_as_elim, induction_eliminator]
theorem levelInduction {motive : Criterion → Prop}
    (compare : ∀ op left right, motive (.compare op left right))
    (isNull : ∀ negated operand, motive (.isNull negated operand))
    (like : ∀ negated operand pattern option, motive (.like negated operand pattern option))
    (between : ∀ negated operand low high, motive (.between negated operand low high))
    (inList : ∀ negated operand values, motive (.inList negated operand values))
    (inSubQuery : ∀ negated operand query, motive (.inSubQuery negated operand query))
    (pairInList : ∀ negated pair values, motive (.pairInList negated pair values))
    (pairInSubQuery : ∀ negated pair query, motive (.pairInSubQuery negated pair query))
    (exists_ : ∀ negated query, motive (.exists negated query))
    (all : ∀ children, (∀ c ∈ children, motive c) → motive (.all children))
    (any : ∀ children, (∀ c ∈ children, motive c) → motive (.any children))
    (not : ∀ children, (∀ c ∈ children, motive c) → motive (.not children)) :
    ∀ c, motive c
  | .compare op left right => compare op left right
  | .isNull negated operand => isNull negated operand
  | .like negated operand pattern option => like negated operand pattern option
  | .between negated operand low high => between negated operand low high
  | .inList negated operand values => inList negated operand values
  | .inSubQuery negated operand query => inSubQuery negated operand query
  | .pairInList negated pair values => pairInList negated pair values
  | .pairInSubQuery negated pair query => pairInSubQuery negated pair query
  | .exists negated query => exists_ negated query
  | .all children => all children fun c _ =>
      levelInduction compare isNull like between inList inSubQuery pairInList pairInSubQuery
        exists_ all any not c
  | .any children => any children fun c _ =>
      levelInduction compare isNull like between inList inSubQuery pairInList pairInSubQuery
        exists_ all any not c
  | .not children => not children fun c _ =>
      levelInduction compare isNull like between inList inSubQuery pairInList pairInSubQuery
        exists_ all any not c
termination_by c => sizeOf c
decreasing_by
  all_goals
    have hc := List.sizeOf_lt_of_mem ‹_ ∈ _›
    simp only [Criterion.all.sizeOf_spec, Criterion.any.sizeOf_spec, Criterion.not.sizeOf_spec]
    omega

@[simp] theorem subQueries_all (cs : List Criterion) :
    (all cs).subQueries = cs.flatMap subQueries := listSubQueries_eq_flatMap cs

@[simp] theorem subQueries_any (cs : List Criterion) :
    (any cs).subQueries = cs.flatMap subQueries := listSubQueries_eq_flatMap cs

@[simp] theorem subQueries_not (cs : List Criterion) :
    (Criterion.not cs).subQueries = cs.flatMap subQueries := listSubQueries_eq_flatMap cs

end Criterion

theorem sizeOf_lt_of_mem_flatMap {α β : Type} [SizeOf α] [SizeOf β] {f : α → List β}
    {xs : List α} (h : ∀ x ∈ xs, ∀ y ∈ f x, sizeOf y < sizeOf x) {y : β}
    (hy : y ∈ xs.flatMap f) : sizeOf y < sizeOf xs := by
  obtain ⟨x, hx, hxy⟩ := List.mem_flatMap.mp hy
  have := h x hx y hxy
  have := List.sizeOf_lt_of_mem hx
  omega

theorem Operand.sizeOf_lt_of_mem {o : Operand} {q : SubQuery} (h : q ∈ o.subQueries) :
    sizeOf q < sizeOf o := by
  cases o with
  | subQuery query =>
    rw [show q = query by simpa [subQueries] using h]
    simp only [subQuery.sizeOf_spec]
    omega
  | _ => simp [subQueries] at h

theorem OperandPair.sizeOf_lt_of_mem {p : OperandPair} {q : SubQuery} (h : q ∈ p.subQueries) :
    sizeOf q < sizeOf p := by
  obtain ⟨first, second⟩ := p
  simp only [OperandPair.mk.sizeOf_spec]
  rcases List.mem_append.mp h with h | h
  · have : sizeOf q < sizeOf first := Operand.sizeOf_lt_of_mem h
    omega
  · have : sizeOf q < sizeOf second := Operand.sizeOf_lt_of_mem h
    omega

theorem Criterion.sizeOf_lt_of_mem {c : Criterion} {q : SubQuery} (h : q ∈ c.subQueries) :
    sizeOf q < sizeOf c := by
  induction c generalizing q with
  | compare op l r =>
    simp only [compare.sizeOf_spec]
    rcases List.mem_append.mp h with h | h <;> have := Operand.sizeOf_lt_of_mem h <;> omega
  | isNull n o =>
    simp only [isNull.sizeOf_spec]
    have := Operand.sizeOf_lt_of_mem h
    omega
  | like n o p option =>
    simp only [like.sizeOf_spec]
    rcases List.mem_append.mp h with h | h <;> have := Operand.sizeOf_lt_of_mem h <;> omega
  | between n o low high =>
    simp only [between.sizeOf_spec]
    simp only [subQueries, List.mem_append, or_assoc] at h
    rcases h with h | h | h <;> have := Operand.sizeOf_lt_of_mem h <;> omega
  | inList n o values =>
    simp only [inList.sizeOf_spec]
    rcases List.mem_append.mp h with h | h
    · have := Operand.sizeOf_lt_of_mem h
      omega
    · have := sizeOf_lt_of_mem_flatMap (fun _ _ _ => Operand.sizeOf_lt_of_mem) h
      omega
  | inSubQuery n o query =>
    simp only [inSubQuery.sizeOf_spec]
    rcases List.mem_append.mp h with h | h
    · have := Operand.sizeOf_lt_of_mem h
      omega
    · rw [List.mem_singleton.mp h]
      omega
  | pairInList n pair values =>
    simp only [pairInList.sizeOf_spec]
    rcases List.mem_append.mp h with h | h
    · have := OperandPair.sizeOf_lt_of_mem h
      omega
    · have := sizeOf_lt_of_mem_flatMap (fun _ _ _ => OperandPair.sizeOf_lt_of_mem) h
      omega
  | pairInSubQuery n pair query =>
    simp only [pairInSubQuery.sizeOf_spec]
    rcases List.mem_append.mp h with h | h
    · have := OperandPair.sizeOf_lt_of_mem h
      omega
    · rw [List.mem_singleton.mp h]
      omega
  | exists_ n query =>
    rw [List.mem_singleton.mp h]
    simp only [Criterion.exists.sizeOf_spec]
    omega
  | all cs ih =>
    rw [subQueries_all] at h
    have := sizeOf_lt_of_mem_flatMap (fun c hc _ hy => ih c hc hy) h
    simp only [all.sizeOf_spec]
    omega
  | any cs ih =>
    rw [subQueries_any] at h
    have := sizeOf_lt_of_mem_flatMap (fun c hc _ hy => ih c hc hy) h
    simp only [any.sizeOf_spec]
    omega
  | not cs ih =>
    rw [subQueries_not] at h
    have := sizeOf_lt_of_mem_flatMap (fun c hc _ hy => ih c hc hy) h
    simp only [not.sizeOf_spec]
    omega

theorem SelectItem.sizeOf_lt_of_mem {i : SelectItem} {q : SubQuery} (h : q ∈ i.subQueries) :
    sizeOf q < sizeOf i := by
  cases i with
  | subQuery query =>
    rw [show q = query by simpa [subQueries] using h]
    simp only [subQuery.sizeOf_spec]
    omega
  | _ => simp [subQueries] at h

theorem Projection.sizeOf_lt_of_mem {p : Projection} {q : SubQuery} (h : q ∈ p.subQueries) :
    sizeOf q < sizeOf p := by
  cases p with
  | allColumns => simp [subQueries] at h
  | explicit items =>
    have := sizeOf_lt_of_mem_flatMap (fun _ _ _ => SelectItem.sizeOf_lt_of_mem) h
    simp only [explicit.sizeOf_spec]
    omega

theorem Join.sizeOf_lt_of_mem {j : Join} {c : Criterion} (h : c ∈ j.on) :
    sizeOf c < sizeOf j := by
  obtain ⟨kind, table, on⟩ := j
  have : sizeOf c < sizeOf on := List.sizeOf_lt_of_mem h
  simp only [Join.mk.sizeOf_spec]
  omega

namespace Select

theorem sizeOf_lt_of_mem {s : Select} {q : SubQuery} (h : q ∈ s.subQueries) :
    sizeOf q < sizeOf s := by
  cases s with
  | mk target joins filter projection distinct orderBy offset limit lock options =>
    simp only [mk.sizeOf_spec]
    rcases List.mem_append.mp h with h | h
    · have : sizeOf q < sizeOf projection := Projection.sizeOf_lt_of_mem h
      omega
    · obtain ⟨c, hc, hq⟩ := List.mem_flatMap.mp h
      have := Criterion.sizeOf_lt_of_mem hq
      rcases List.mem_append.mp hc with hc | hc
      · have : sizeOf c < sizeOf joins :=
          sizeOf_lt_of_mem_flatMap (fun _ _ _ => Join.sizeOf_lt_of_mem) hc
        omega
      · have : sizeOf c < sizeOf filter := List.sizeOf_lt_of_mem hc
        omega

/-- What holds of a select whenever it holds of the selects that it mentions holds of every
select. -/
@[elab_as_elim, induction_eliminator]
theorem nestedInduction {motive : Select → Prop}
    (step : ∀ s, (∀ q ∈ s.subQueries, motive q.select) → motive s) (s : Select) : motive s :=
  step s fun q _ => nestedInduction step q.select
termination_by sizeOf s
decreasing_by
  have := sizeOf_lt_of_mem ‹q ∈ s.subQueries›
  obtain ⟨id, select⟩ := q
  simp only [SubQuery.mk.sizeOf_spec] at this
  simp only
  omega

/-- The select and all selects nested in it, at any depth, have the property. -/
inductive Everywhere (P : Select → Prop) : Select → Prop where
  | intro {s : Select} (here : P s) (inside : ∀ q ∈ s.subQueries, q.select.Everywhere P) :
    Everywhere P s

theorem Everywhere.here {P : Select → Prop} {s : Select} (h : s.Everywhere P) : P s := by
  cases h with
  | intro here _ => exact here

theorem Everywhere.inside {P : Select → Prop} {s : Select} (h : s.Everywhere P) :
    ∀ q ∈ s.subQueries, q.select.Everywhere P := by
  cases h with
  | intro _ inside => exact inside

end Select

end SqlCompose
