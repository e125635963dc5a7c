import SqlCompose.Proofs.Payload.Composing

/-! Updates, deletes and inserts are composed like their blanked forms. The rows of an insert count
by their columns alone. -/

namespace SqlCompose

section

variable {σ : Setting} {p : Position}

theorem Assignment.subQueries_blank (a : Assignment) :
    a.blank.subQueries = a.subQueries.map SubQuery.blank := by
  obtain ⟨column, value⟩ := a
  cases value with
  | operand o => exact o.subQueries_blank
  | incoming c => rfl

theorem Assignment.composeUpdate_blank (target : Table) (a : Assignment) :
    SameOutcome Sql.SetItem.Same (a.composeUpdate σ p target) (a.blank.composeUpdate σ p target) := by
  obtain ⟨column, value⟩ := a
  refine .check ?_
  cases value with
  | operand o =>
    refine (Operand.compose_blank fun q _ => q.select.composedAlike σ).bind fun e e' he => .ok ?_
    exact fun style => .cons _ (.cons _ he)
  | incoming c => exact .error _

theorem Assignment.composeUpsert_blank (a : Assignment) :
    SameOutcome Sql.SetItem.Same (a.composeUpsert σ p) (a.blank.composeUpsert σ p) := by
  obtain ⟨column, value⟩ := a
  cases value with
  | operand o =>
    refine (Operand.compose_blank fun q _ => q.select.composedAlike σ).bind fun e e' he => .ok ?_
    exact fun style => .cons _ (.cons _ he)
  | incoming c => exact .ok fun style => .refl _

theorem Criterion.forall_composeWhere_blank (cs : List Criterion) :
    SameOutcome (fun f f' => Piece.Same (Sql.Condition.wherePieces f) (Sql.Condition.wherePieces f'))
      (composeWhere σ p cs) (composeWhere σ p (cs.map blank)) := by
  rw [composeWhere, composeWhere, ← blankAll_eq_map]
  refine (forall_compose_blank fun q _ => q.select.composedAlike σ).bind fun es es' hes => .ok ?_
  exact Sql.Condition.Same.wherePieces hes

end

section

variable {d : Dialect} {options : QueryOptions}

theorem UpdateQuery.subQueries_blank (q : UpdateQuery) :
    q.blank.subQueries = q.subQueries.map SubQuery.blank := by
  rw [subQueries, subQueries, blank, List.map_append,
    flatMap_map_of fun (a : Assignment) _ => a.subQueries_blank,
    flatMap_map_of fun (c : Criterion) _ => c.subQueries_blank]

theorem DeleteQuery.subQueries_blank (q : DeleteQuery) :
    q.blank.subQueries = q.subQueries.map SubQuery.blank :=
  flatMap_map_of fun c _ => c.subQueries_blank

theorem InsertQuery.subQueries_blank (q : InsertQuery) :
    q.blank.subQueries = q.subQueries.map SubQuery.blank := by
  obtain ⟨target, conflict, returning, options⟩ := q
  match conflict with
  | none => rfl
  | some ⟨keys, .ignore⟩ => rfl
  | some ⟨keys, .update .allColumns⟩ => rfl
  | some ⟨keys, .update (.assignments items)⟩ =>
    exact flatMap_map_of fun a _ => a.subQueries_blank

theorem ScopeTree.ofTarget_blank (target : Table) (qs : List SubQuery) :
    ofTarget target (qs.map SubQuery.blank) = ofTarget target qs := by
  rw [ofTarget_eq_grow, ofTarget_eq_grow, grow_blank]

theorem UpdateQuery.compose_blank (q : UpdateQuery) :
    SameOutcome (fun u u' => Piece.Same u.pieces u'.pieces) (q.compose d options)
      (q.blank.compose d options) := by
  have hscope : ScopeTree.ofTarget q.target q.blank.subQueries =
      ScopeTree.ofTarget q.target q.subQueries := by
    rw [subQueries_blank, ScopeTree.ofTarget_blank]
  obtain ⟨target, assignments, filter, own⟩ := q
  simp only [compose, blank, List.isEmpty_map] at *
  refine .check (.check ?_)
  rw [hscope]
  refine (SameOutcome.mapM (List.forall₂_map_right_iff.mpr
    (List.forall₂_same.mpr fun a _ => a.composeUpdate_blank target))).bind
    fun items items' hitems => ?_
  refine (Criterion.forall_composeWhere_blank filter).bind fun f f' hf => .ok ?_
  exact Sql.Update.same hitems hf

theorem DeleteQuery.compose_blank (q : DeleteQuery) :
    SameOutcome (fun u u' => Piece.Same u.pieces u'.pieces) (q.compose d options)
      (q.blank.compose d options) := by
  have hscope : ScopeTree.ofTarget q.target q.blank.subQueries =
      ScopeTree.ofTarget q.target q.subQueries := by
    rw [subQueries_blank, ScopeTree.ofTarget_blank]
  obtain ⟨target, filter, own⟩ := q
  simp only [compose, blank, List.isEmpty_map] at *
  refine .check ?_
  rw [hscope]
  exact (Criterion.forall_composeWhere_blank filter).bind fun f f' hf => .ok (Sql.Delete.same hf)

end

namespace OnConflict

theorem assignments_blank (target : Table) (o : OnConflict) :
    SameOutcome (fun as as' => as' = as.map Assignment.blank) (o.assignments target)
      (o.blank.assignments target) := by
  obtain ⟨keys, policy⟩ := o
  match policy with
  | .ignore => exact .ok rfl
  | .update .allColumns =>
    refine .bind_left fun keys => .ok ?_
    rw [List.map_map]
    rfl
  | .update (.assignments items) =>
    have hforM : ∀ f : Assignment → Except Error Unit, (∀ a, f a.blank = f a) →
        (items.map Assignment.blank).forM f = items.forM f := by
      intro f hf
      induction items with
      | nil => rfl
      | cons a as _ => simp [hf]
    simp only [assignments, blank, ConflictPolicy.blank]
    rw [hforM]
    · exact .bind_left fun _ => .ok rfl
    · intro a
      obtain ⟨column, value⟩ := a
      cases value <;> rfl

theorem checkKeys_blank (target : Table) (keys : List Column) (o : OnConflict) :
    o.blank.checkKeys target keys = o.checkKeys target keys := by
  obtain ⟨known, policy⟩ := o
  match policy with
  | .ignore => rfl
  | .update .allColumns => rfl
  | .update (.assignments items) => rfl

end OnConflict

/-- Rows whose cells belong to the same columns, one by one. -/
def Cell.SameColumns : List Cell → List Cell → Prop := List.Forall₂ fun c c' => c.column = c'.column

theorem Cell.SameColumns.rowValues {columns : List Column} {row row' : List Cell}
    (h : SameColumns row row') :
    List.Forall₂ (fun b b' : Bound => b.type = b'.type) (rowValues columns row)
      (rowValues columns row') := by
  induction h with
  | nil => exact .nil
  | @cons c c' cs cs' hc _ ih =>
    by_cases hmem : c.column ∈ columns
    · have hmem' : c'.column ∈ columns := hc ▸ hmem
      simp only [SqlCompose.rowValues, List.filter_cons, hmem, hmem', decide_true, if_true,
        List.map_cons]
      exact .cons (congrArg Column.type hc) ih
    · have hmem' : c'.column ∉ columns := hc ▸ hmem
      simp only [SqlCompose.rowValues, List.filter_cons, hmem, hmem', decide_false,
        Bool.false_eq_true, if_false]
      exact ih

theorem Cell.SameColumns.rows {columns : List Column} {rows rows' : List (List Cell)}
    (h : List.Forall₂ SameColumns rows rows') :
    Sql.SameRows (rows.map (SqlCompose.rowValues columns))
      (rows'.map (SqlCompose.rowValues columns)) :=
  List.forall₂_map_left_iff.mpr (List.forall₂_map_right_iff.mpr (h.imp fun _ _ hr => hr.rowValues))

namespace OnConflict

variable {σ : Setting} {p : Position}

theorem mapM_composeUpsert_blank {as as' : List Assignment} (h : as' = as.map Assignment.blank) :
    SameOutcome (List.Forall₂ Sql.SetItem.Same) (as.mapM (·.composeUpsert σ p))
      (as'.mapM (·.composeUpsert σ p)) := by
  subst h
  exact .mapM (List.forall₂_map_right_iff.mpr
    (List.forall₂_same.mpr fun a _ => a.composeUpsert_blank))

variable (target : Table) (o : OnConflict) {rows rows' : List (List Cell)}
  (h : List.Forall₂ Cell.SameColumns rows rows')

include h

theorem composeOnConflict_blank : SameOutcome Sql.WriteBody.Same
    (o.composeOnConflict σ p target rows) (o.blank.composeOnConflict σ p target rows') := by
  simp only [composeOnConflict, checkKeys_blank]
  refine .bind_left fun keys => ?_
  refine (o.assignments_blank target).bind fun as as' has => ?_
  refine .bind_left fun _ => ?_
  refine (mapM_composeUpsert_blank has).bind fun items items' hi => .ok ?_
  exact Sql.Insert.same (Cell.SameColumns.rows h) (.some (Sql.ConflictClause.Same.onConflict _ hi))

theorem composeOnDuplicateKey_blank : SameOutcome Sql.WriteBody.Same
    (o.composeOnDuplicateKey σ p target rows) (o.blank.composeOnDuplicateKey σ p target rows') := by
  simp only [composeOnDuplicateKey]
  refine (o.assignments_blank target).bind fun as as' has => ?_
  refine (mapM_composeUpsert_blank has).bind fun items items' hi => .ok ?_
  rw [Sql.SetItem.Same.isEmpty_eq hi]
  by_cases hempty : items'.isEmpty = true
  · simp only [hempty, if_true]
    exact Sql.Insert.same (Cell.SameColumns.rows h) .none
  · simp only [hempty, if_false, Bool.false_eq_true]
    exact Sql.Insert.same (Cell.SameColumns.rows h)
      (.some (Sql.ConflictClause.Same.onDuplicateKey hi))

theorem composeMerge_blank (terminated : Bool) : SameOutcome Sql.WriteBody.Same
    (o.composeMerge σ p terminated target rows)
    (o.blank.composeMerge σ p terminated target rows') := by
  simp only [composeMerge]
  refine .bind_left fun keys => .check ?_
  refine (o.assignments_blank target).bind fun as as' has => ?_
  refine .bind_left fun names => ?_
  refine (mapM_composeUpsert_blank has).bind fun items items' hi => .ok ?_
  exact Sql.Merge.same (Cell.SameColumns.rows h) hi

theorem compose_blank : SameOutcome Sql.WriteBody.Same (o.compose σ p target rows)
    (o.blank.compose σ p target rows') := by
  unfold compose
  cases σ.dialect.conflict with
  | onConflict => exact composeOnConflict_blank target o h
  | onDuplicateKey => exact composeOnDuplicateKey_blank target o h
  | merge terminated => exact composeMerge_blank target o h terminated
  | absent => exact .error _

end OnConflict

section

variable {d : Dialect} {options : QueryOptions}

theorem InsertQuery.compose_blank (q : InsertQuery) {rows rows' : List (List Cell)}
    (h : List.Forall₂ Cell.SameColumns rows rows') :
    SameOutcome (fun w w' => Piece.Same w.pieces w'.pieces) (q.compose d options rows)
      (q.blank.compose d options rows') := by
  have hbody : SameOutcome Sql.WriteBody.Same (q.composeBody (.of d options) rows)
      (q.blank.composeBody (.of d options) rows') := by
    have hscope : ScopeTree.ofTarget q.target q.blank.subQueries =
        ScopeTree.ofTarget q.target q.subQueries := by
      rw [subQueries_blank, ScopeTree.ofTarget_blank]
    obtain ⟨target, conflict, returning, own⟩ := q
    cases conflict with
    | none => exact .ok (Sql.Insert.same (Cell.SameColumns.rows h) .none)
    | some o =>
      simp only [composeBody, blank, Option.map_some] at *
      rw [hscope]
      exact o.compose_blank target h
  obtain ⟨target, conflict, returning, own⟩ := q
  refine .check (hbody.bind fun body body' hb => ?_)
  cases returning with
  | false => exact .ok (Sql.Write.same hb none)
  | true => exact .bind_left fun _ => .ok (Sql.Write.same hb _)

end

end SqlCompose
