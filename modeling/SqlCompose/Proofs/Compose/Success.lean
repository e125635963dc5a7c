import Mathlib.Data.List.Forall2
import SqlCompose.Build
import SqlCompose.Proofs.Query.Operands

/-! When composing succeeds, and with what. Each function is inverted once, so that no later proof
opens one. -/

namespace SqlCompose

section Except

variable {ε α β : Type}

theorem pure_eq_ok_iff {a b : α} : (pure a : Except ε α) = .ok b ↔ a = b := by
  simp [pure, Except.pure]

theorem map_eq_ok_iff {x : Except ε α} {f : α → β} {b : β} :
    f <$> x = .ok b ↔ ∃ a, x = .ok a ∧ f a = b := by
  cases x <;> simp [Functor.map, Except.map]

theorem bind_eq_ok_iff {x : Except ε α} {f : α → Except ε β} {b : β} :
    (x >>= f) = .ok b ↔ ∃ a, x = .ok a ∧ f a = .ok b := by
  cases x <;> simp [bind, Except.bind]

theorem check_eq_ok_iff {c : Prop} [Decidable c] {e : ε} {f : PUnit → Except ε α}
    {x : Except ε α} {a : α} :
    (if c then throw e >>= f else x) = .ok a ↔ ¬ c ∧ x = .ok a := by
  by_cases h : c <;> simp [h, throw, throwThe, MonadExceptOf.throw, bind, Except.bind]

theorem mapM_eq_ok_iff {f : α → Except ε β} {xs : List α} {ys : List β} :
    xs.mapM f = .ok ys ↔ List.Forall₂ (fun x y => f x = .ok y) xs ys := by
  induction xs generalizing ys with
  | nil => cases ys <;> simp [pure_eq_ok_iff]
  | cons x xs ih =>
    rw [List.mapM_cons]
    cases ys with
    | nil => simp [bind_eq_ok_iff, map_eq_ok_iff]
    | cons y ys =>
      simp only [bind_eq_ok_iff, pure_eq_ok_iff, List.cons.injEq, List.forall₂_cons, ← ih]
      constructor
      · rintro ⟨_, hy, _, hys, rfl, rfl⟩
        exact ⟨hy, hys⟩
      · rintro ⟨hy, hys⟩
        exact ⟨y, hy, ys, hys, rfl, rfl⟩

theorem exists_mem_of_forall₂ {R : α → β → Prop} {xs : List α} {ys : List β}
    (h : List.Forall₂ R xs ys) {y : β} (hy : y ∈ ys) : ∃ x ∈ xs, R x y := by
  induction h with
  | nil => simp at hy
  | cons hxy _ ih =>
    rcases List.mem_cons.mp hy with rfl | hy
    · exact ⟨_, List.mem_cons_self, hxy⟩
    · obtain ⟨x, hx, hr⟩ := ih hy
      exact ⟨x, List.mem_cons_of_mem _ hx, hr⟩

theorem ne_nil_of_forall₂ {R : α → β → Prop} {xs : List α} {ys : List β}
    (h : List.Forall₂ R xs ys) (hne : xs ≠ []) : ys ≠ [] := by
  rintro rfl
  exact hne (List.forall₂_nil_right_iff.mp h)

theorem exists_mem_of_mem {R : α → β → Prop} {xs : List α} {ys : List β}
    (h : List.Forall₂ R xs ys) {x : α} (hx : x ∈ xs) : ∃ y ∈ ys, R x y :=
  exists_mem_of_forall₂ h.flip hx

end Except

theorem Column.qualify_eq_ok_iff {c : Column} {levels : List Level} {outer : Bool}
    {n : Sql.ColumnName} :
    c.qualify levels outer = .ok n ↔
      ∃ q, Level.resolve? levels c.table = some q ∧ ⟨c, q, outer⟩ = n := by
  unfold qualify
  cases Level.resolve? levels c.table <;> simp

theorem Table.item_eq_ok_iff {t : Table} {level : Level} {i : Sql.TableItem} :
    t.item level = .ok i ↔ ∃ name, level.lookup t = some name ∧ ⟨t, name⟩ = i := by
  unfold item
  cases level.lookup t <;> simp

theorem Setting.paging_none (σ : Setting) : σ.paging false none none = .limitOffset none none := by
  unfold paging
  cases σ.dialect.paging <;> rfl

theorem Setting.require_eq_ok_iff {σ : Setting} {has : Bool} {feature : Feature} {u : Unit} :
    σ.require has feature = .ok u ↔ has = true := by
  cases has <;> simp [require]

namespace Select

theorem firstRepeated?_eq_none_iff {seen ts : List Table} :
    firstRepeated? seen ts = none ↔ ts.Nodup ∧ ∀ t ∈ ts, t ∉ seen := by
  induction ts generalizing seen with
  | nil => simp [firstRepeated?]
  | cons t ts ih =>
    by_cases h : t ∈ seen
    · simp [firstRepeated?, h]
    · simp only [firstRepeated?, h, if_false, ih, List.mem_append, List.mem_singleton, not_or,
        List.nodup_cons, List.forall_mem_cons, not_false_eq_true, true_and]
      constructor
      · rintro ⟨hnd, hnew⟩
        exact ⟨⟨fun ht => (hnew t ht).2 rfl, hnd⟩, fun x hx => (hnew x hx).1⟩
      · rintro ⟨⟨ht, hnd⟩, hnew⟩
        exact ⟨hnd, fun x hx => ⟨hnew x hx, fun he => ht (he ▸ hx)⟩⟩

theorem checkTables_eq_ok_iff {tables : List Table} {u : Unit} :
    checkTables tables = .ok u ↔ tables.Nodup := by
  have h := @firstRepeated?_eq_none_iff [] tables
  simp only [List.not_mem_nil, not_false_eq_true, implies_true, and_true] at h
  rw [← h, checkTables]
  cases firstRepeated? [] tables <;> simp

theorem checkWidth_eq_ok_iff {width : Option Nat} {found : Nat} {u : Unit} :
    checkWidth width found = .ok u ↔ ∀ w ∈ width, found = w := by
  cases width with
  | none => simp [checkWidth]
  | some w => by_cases h : found = w <;> simp [checkWidth, h]

end Select

section

attribute [local simp] Operand.compose Operand.composeAll OperandPair.compose
  OperandPair.composeAll OperandPair.expandAll Criterion.compose Criterion.composeAll Join.compose
  Join.composeAll SelectItem.compose SelectItem.composeAll Projection.compose Select.compose
  SubQuery.compose

variable {σ : Setting} {p : Position}

theorem SortItem.compose_eq_ok_iff {i : SortItem} {o : Sql.OrderItem} :
    i.compose σ p = .ok o ↔
      ∃ n, i.column.qualify p.visible false = .ok n ∧
        (i.nulls.isSome = true → σ.dialect.nullsOrdering = true) ∧
        ⟨n, i.descending, i.nulls⟩ = o := by
  unfold compose
  by_cases h : i.nulls.isSome = true
  · simp [bind_eq_ok_iff, map_eq_ok_iff, h, Setting.require_eq_ok_iff]
  · simp [map_eq_ok_iff, h]

namespace Operand

theorem compose_column_eq_ok_iff {c : Column} {e : Sql.Expr} :
    (column c).compose σ p = .ok e ↔ ∃ n, c.qualify p.visible false = .ok n ∧ .column n = e := by
  simp [compose, map_eq_ok_iff]

theorem compose_outer_eq_ok_iff {c : Column} {e : Sql.Expr} :
    (outer c).compose σ p = .ok e ↔ ∃ n, c.qualify p.outer true = .ok n ∧ .column n = e := by
  simp [compose, map_eq_ok_iff]

theorem compose_parameter_eq_ok_iff {b : Bound} {e : Sql.Expr} :
    (parameter b).compose σ p = .ok e ↔ .parameter b = e := by
  simp [compose, pure_eq_ok_iff]

theorem compose_subQuery_eq_ok_iff {q : SubQuery} {e : Sql.Expr} :
    (subQuery q).compose σ p = .ok e ↔ ∃ s, q.compose σ p (some 1) = .ok s ∧ .subQuery s = e := by
  simp [compose, map_eq_ok_iff]

theorem compose_pattern_eq_ok_iff {parts : List PatternPart} {e : Sql.Expr} :
    (pattern parts).compose σ p = .ok e ↔ .parameter (.text (σ.patternText parts)) = e := by
  simp [compose, pure_eq_ok_iff]

theorem composeAll_eq_mapM (os : List Operand) : composeAll σ p os = os.mapM (·.compose σ p) := by
  induction os with
  | nil => simp [composeAll]
  | cons o os ih => simp [composeAll, ih]

end Operand

namespace OperandPair

theorem compose_eq_ok_iff {o : OperandPair} {e : Sql.ExprPair} :
    o.compose σ p = .ok e ↔
      ∃ a, o.first.compose σ p = .ok a ∧ ∃ b, o.second.compose σ p = .ok b ∧ ⟨a, b⟩ = e := by
  obtain ⟨first, second⟩ := o
  simp [compose, bind_eq_ok_iff, map_eq_ok_iff]

theorem composeAll_eq_mapM (os : List OperandPair) :
    composeAll σ p os = os.mapM (·.compose σ p) := by
  induction os with
  | nil => simp [composeAll]
  | cons o os ih => simp [composeAll, ih]

/-- The comparison of a pair with one of the values. -/
def expand (σ : Setting) (p : Position) (first second : Except Error Sql.Expr) (o : OperandPair) :
    Except Error Sql.Condition := do
  let a ← first
  let x ← o.first.compose σ p
  let b ← second
  let y ← o.second.compose σ p
  return .bothEqual a x b y

theorem expandAll_eq_mapM (first second : Except Error Sql.Expr) (os : List OperandPair) :
    expandAll σ p first second os = os.mapM (expand σ p first second) := by
  induction os with
  | nil => simp [expandAll]
  | cons o os ih =>
    obtain ⟨x, y⟩ := o
    simp [expandAll, expand, ih]

theorem expand_eq_ok_iff {first second : Except Error Sql.Expr} {o : OperandPair}
    {c : Sql.Condition} :
    o.expand σ p first second = .ok c ↔
      ∃ a, first = .ok a ∧ ∃ x, o.first.compose σ p = .ok x ∧ ∃ b, second = .ok b ∧
        ∃ y, o.second.compose σ p = .ok y ∧ .bothEqual a x b y = c := by
  simp [expand, bind_eq_ok_iff, map_eq_ok_iff]

end OperandPair

namespace Criterion

theorem composeAll_eq_mapM (cs : List Criterion) :
    composeAll σ p cs = cs.mapM (·.compose σ p) := by
  induction cs with
  | nil => simp [composeAll]
  | cons c cs ih => simp [composeAll, ih]

variable {e : Sql.Condition}

theorem compose_compare_eq_ok_iff {op : Comparison} {left right : Operand} :
    (compare op left right).compose σ p = .ok e ↔
      ∃ l, left.compose σ p = .ok l ∧ ∃ r, right.compose σ p = .ok r ∧ .compare op l r = e := by
  simp [compose, bind_eq_ok_iff, map_eq_ok_iff]

theorem compose_isNull_eq_ok_iff {negated : Bool} {o : Operand} :
    (isNull negated o).compose σ p = .ok e ↔ ∃ a, o.compose σ p = .ok a ∧ .isNull negated a = e := by
  simp [compose, map_eq_ok_iff]

theorem compose_like_eq_ok_iff {negated : Bool} {o pattern : Operand} {option : LikeOption} :
    (like negated o pattern option).compose σ p = .ok e ↔
      ∃ a, o.compose σ p = .ok a ∧
        ((∃ parts, pattern.patternParts? option = some parts ∧
            .like negated a (.parameter (.text (σ.patternText parts))) (σ.escapeClause parts) = e) ∨
          pattern.patternParts? option = none ∧
            ∃ b, pattern.compose σ p = .ok b ∧ .like negated a b none = e) := by
  cases h : pattern.patternParts? option <;>
    simp [compose, bind_eq_ok_iff, map_eq_ok_iff, h]

theorem compose_between_eq_ok_iff {negated : Bool} {o low high : Operand} :
    (between negated o low high).compose σ p = .ok e ↔
      ∃ a, o.compose σ p = .ok a ∧ ∃ l, low.compose σ p = .ok l ∧
        ∃ h, high.compose σ p = .ok h ∧ .between negated a l h = e := by
  simp [compose, bind_eq_ok_iff, map_eq_ok_iff]

theorem compose_inList_nil {negated : Bool} {o : Operand} :
    (inList negated o []).compose σ p = .ok (.constant negated) := rfl

theorem compose_inList_eq_ok_iff {negated : Bool} {o : Operand} {values : List Operand}
    (hne : values ≠ []) :
    (inList negated o values).compose σ p = .ok e ↔
      ∃ a, o.compose σ p = .ok a ∧ ∃ vs,
        List.Forall₂ (fun o e => o.compose σ p = .ok e) values vs ∧ .inList negated a vs = e := by
  simp [compose, bind_eq_ok_iff, map_eq_ok_iff, hne, Operand.composeAll_eq_mapM, mapM_eq_ok_iff]

theorem compose_inSubQuery_eq_ok_iff {negated : Bool} {o : Operand} {query : SubQuery} :
    (inSubQuery negated o query).compose σ p = .ok e ↔
      ∃ a, o.compose σ p = .ok a ∧ ∃ s, query.compose σ p (some 1) = .ok s ∧
        .inSubQuery negated a s = e := by
  simp [compose, bind_eq_ok_iff, map_eq_ok_iff]

theorem compose_pairInList_nil {negated : Bool} {pair : OperandPair} :
    (pairInList negated pair []).compose σ p = .ok (.constant negated) := by
  obtain ⟨first, second⟩ := pair
  rfl

theorem compose_pairInList_eq_ok_iff {negated : Bool} {pair : OperandPair}
    {values : List OperandPair} (hne : values ≠ []) (hrow : σ.dialect.rowValueInList = true) :
    (pairInList negated pair values).compose σ p = .ok e ↔
      ∃ row, pair.compose σ p = .ok row ∧ ∃ vs,
        List.Forall₂ (fun o e => o.compose σ p = .ok e) values vs ∧
          .rowInList negated row vs = e := by
  obtain ⟨first, second⟩ := pair
  simp only [compose, List.isEmpty_iff, hne, if_false, hrow, if_true, bind_eq_ok_iff,
    pure_eq_ok_iff, OperandPair.composeAll_eq_mapM, mapM_eq_ok_iff, OperandPair.compose_eq_ok_iff]
  constructor
  · rintro ⟨a, ha, b, hb, vs, hvs, rfl⟩
    exact ⟨_, ⟨a, ha, b, hb, rfl⟩, vs, hvs, rfl⟩
  · rintro ⟨_, ⟨a, ha, b, hb, rfl⟩, vs, hvs, rfl⟩
    exact ⟨a, ha, b, hb, vs, hvs, rfl⟩

theorem compose_pairInList_expanded_eq_ok_iff {negated : Bool} {pair : OperandPair}
    {values : List OperandPair} (hne : values ≠ []) (hrow : σ.dialect.rowValueInList = false) :
    (pairInList negated pair values).compose σ p = .ok e ↔
      ∃ cs, List.Forall₂ (fun o c =>
          o.expand σ p (pair.first.compose σ p) (pair.second.compose σ p) = .ok c) values cs ∧
        .expandedRows negated cs = e := by
  obtain ⟨first, second⟩ := pair
  simp [compose, map_eq_ok_iff, hne, hrow, OperandPair.expandAll_eq_mapM, mapM_eq_ok_iff]

theorem compose_pairInSubQuery_eq_ok_iff {negated : Bool} {pair : OperandPair} {query : SubQuery} :
    (pairInSubQuery negated pair query).compose σ p = .ok e ↔
      σ.dialect.rowValueInSubQuery = true ∧ ∃ row, pair.compose σ p = .ok row ∧
        ∃ s, query.compose σ p (some 2) = .ok s ∧ .rowInSubQuery negated row s = e := by
  simp [compose, bind_eq_ok_iff, map_eq_ok_iff, Setting.require_eq_ok_iff]

theorem compose_exists_eq_ok_iff {negated : Bool} {query : SubQuery} :
    (Criterion.exists negated query).compose σ p = .ok e ↔
      ∃ s, query.compose σ p none = .ok s ∧ .exists negated s = e := by
  simp [compose, map_eq_ok_iff]

theorem compose_all_eq_ok_iff {children : List Criterion} :
    (all children).compose σ p = .ok e ↔
      ∃ cs, List.Forall₂ (fun c e => c.compose σ p = .ok e) children cs ∧ .group .and cs = e := by
  simp [compose, map_eq_ok_iff, composeAll_eq_mapM, mapM_eq_ok_iff]

theorem compose_any_eq_ok_iff {children : List Criterion} :
    (any children).compose σ p = .ok e ↔
      ∃ cs, List.Forall₂ (fun c e => c.compose σ p = .ok e) children cs ∧ .group .or cs = e := by
  simp [compose, map_eq_ok_iff, composeAll_eq_mapM, mapM_eq_ok_iff]

theorem compose_not_eq_ok_iff {children : List Criterion} :
    (Criterion.not children).compose σ p = .ok e ↔
      ∃ cs, List.Forall₂ (fun c e => c.compose σ p = .ok e) children cs ∧ .negation cs = e := by
  simp [compose, map_eq_ok_iff, composeAll_eq_mapM, mapM_eq_ok_iff]

theorem composeWhere_eq_ok_iff {cs : List Criterion} {filter : Option Sql.Condition} :
    composeWhere σ p cs = .ok filter ↔
      ∃ es, List.Forall₂ (fun c e => c.compose σ p = .ok e) cs es ∧
        Sql.Condition.conjunction? es = filter := by
  simp [composeWhere, map_eq_ok_iff, composeAll_eq_mapM, mapM_eq_ok_iff]

end Criterion

namespace SelectItem

theorem compose_column_eq_ok_iff {c : Column} {i : Sql.SelectItem} :
    (column c).compose σ p = .ok i ↔ ∃ n, c.qualify p.visible false = .ok n ∧ .column n = i := by
  simp [compose, map_eq_ok_iff]

theorem compose_subQuery_eq_ok_iff {q : SubQuery} {i : Sql.SelectItem} :
    (subQuery q).compose σ p = .ok i ↔ ∃ s, q.compose σ p (some 1) = .ok s ∧ .subQuery s = i := by
  simp [compose, map_eq_ok_iff]

theorem composeAll_eq_mapM (is : List SelectItem) :
    composeAll σ p is = is.mapM (·.compose σ p) := by
  induction is with
  | nil => simp [composeAll]
  | cons i is ih => simp [composeAll, ih]

end SelectItem

namespace Projection

theorem compose_allColumns_eq_ok_iff {target : Table} {items : List Sql.SelectItem} :
    allColumns.compose σ p target = .ok items ↔
      List.Forall₂ (fun c i => ∃ n, c.qualify p.visible false = .ok n ∧ .column n = i)
        target.columns items := by
  simp [compose, map_eq_ok_iff, mapM_eq_ok_iff]

theorem compose_explicit_eq_ok_iff {target : Table} {is : List SelectItem}
    {items : List Sql.SelectItem} :
    (explicit is).compose σ p target = .ok items ↔
      List.Forall₂ (fun i e => i.compose σ p = .ok e) is items := by
  simp [compose, SelectItem.composeAll_eq_mapM, mapM_eq_ok_iff]

end Projection

namespace Join

theorem compose_eq_ok_iff {j : Join} {e : Sql.Join} :
    j.compose σ p = .ok e ↔
      ∃ item, j.table.item p.scope.level = .ok item ∧
        ∃ cs, List.Forall₂ (fun c e => c.compose σ p = .ok e) j.on cs ∧
          ⟨j.kind, item, (Sql.Condition.conjunction? cs).getD (.constant true)⟩ = e := by
  obtain ⟨kind, table, on⟩ := j
  simp [compose, bind_eq_ok_iff, map_eq_ok_iff, Criterion.composeAll_eq_mapM, mapM_eq_ok_iff]

theorem composeAll_eq_mapM (js : List Join) : composeAll σ p js = js.mapM (·.compose σ p) := by
  induction js with
  | nil => simp [composeAll]
  | cons j js ih => simp [composeAll, ih]

end Join

theorem Select.compose_eq_ok_iff {s : Select} {q : Sql.Select} :
    s.compose σ p = .ok q ↔
      s.tables.Nodup ∧
        ∃ items, s.projection.compose σ p s.target = .ok items ∧
        ∃ source, s.target.item p.scope.level = .ok source ∧
        ∃ joins, List.Forall₂ (fun j e => j.compose σ p = .ok e) s.joins joins ∧
        ∃ conditions, List.Forall₂ (fun c e => c.compose σ p = .ok e) s.filter conditions ∧
        ∃ order, List.Forall₂ (fun i o => i.compose σ p = .ok o) s.orderBy order ∧
        ∃ lock, s.lock.mapM σ.lock = .ok lock ∧
          ⟨s.distinct, items, source, joins, Sql.Condition.conjunction? conditions, order,
            σ.paging (!s.orderBy.isEmpty) s.offset s.limit, lock⟩ = q := by
  cases s with
  | mk target joins filter projection distinct orderBy offset limit lock options =>
    simp [compose, tables, bind_eq_ok_iff, map_eq_ok_iff, checkTables_eq_ok_iff,
      Join.composeAll_eq_mapM, Criterion.composeAll_eq_mapM, mapM_eq_ok_iff]

/-- A sub-query is composed one level down, at the level that its number has there. -/
theorem SubQuery.compose_eq_ok_iff {q : SubQuery} {width : Option Nat} {s : Sql.Select} :
    q.compose σ p width = .ok s ↔
      (∀ w ∈ width, q.select.width = w) ∧
        ∃ child, p.scope.child? q.id = some child ∧
          q.select.compose σ ⟨child, p.visible⟩ = .ok s := by
  obtain ⟨id, select⟩ := q
  simp only [compose, bind_eq_ok_iff, Select.checkWidth_eq_ok_iff, Position.enter?]
  cases p.scope.child? id <;> simp

end

section

variable {σ : Setting} {p : Position}

theorem Assignment.composeUpdate_eq_ok_iff {target : Table} {a : Assignment} {i : Sql.SetItem} :
    a.composeUpdate σ p target = .ok i ↔
      a.column.table = target ∧ ∃ o, a.value = .operand o ∧
        ∃ e, o.compose σ p = .ok e ∧ ⟨a.column, .expr e⟩ = i := by
  obtain ⟨column, value⟩ := a
  by_cases h : column.table = target
  · cases value <;> simp [composeUpdate, h, map_eq_ok_iff]
  · simp [composeUpdate, h, bind_eq_ok_iff]

theorem Assignment.composeUpsert_eq_ok_iff {a : Assignment} {i : Sql.SetItem} :
    a.composeUpsert σ p = .ok i ↔
      (∃ o, a.value = .operand o ∧ ∃ e, o.compose σ p = .ok e ∧ ⟨a.column, .expr e⟩ = i) ∨
        ∃ c, a.value = .incoming c ∧ ⟨a.column, .incoming c⟩ = i := by
  obtain ⟨column, value⟩ := a
  cases value <;> simp [composeUpsert, map_eq_ok_iff, pure_eq_ok_iff]

end

end SqlCompose
