import SqlCompose.Proofs.Renaming.Levels
import SqlCompose.Proofs.Renaming.Outcomes

/-! A renamed select is composed like the select itself at every position that is renamed with it.
Every alias is found again, every check compares what it compared before, and what is printed of a
column or a table does not include its number. -/

namespace SqlCompose

section

variable {ρ : Renaming} {σ : Setting} {p : Position}

theorem Column.qualify_rename (c : Column) (levels : List Level) (outer : Bool) :
    Recomposed (fun n n' => n'.column = n.column.rename ρ ∧ n.pieces = n'.pieces)
      (c.qualify levels outer) ((c.rename ρ).qualify (levels.map (Level.rename ρ)) outer) := by
  have hresolve : Level.resolve? (levels.map (Level.rename ρ)) (c.rename ρ).table =
      Level.resolve? levels c.table := Level.resolve?_rename levels c.table
  rw [qualify, qualify, hresolve]
  cases Level.resolve? levels c.table with
  | some name => exact .ok ⟨rfl, rfl⟩
  | none => exact .error (by simp [Error.Drafting])

theorem Column.qualify_visible (c : Column) :
    Recomposed (fun n n' => n'.column = n.column.rename ρ ∧ n.pieces = n'.pieces)
      (c.qualify p.visible false) ((c.rename ρ).qualify (p.rename ρ).visible false) := by
  rw [Position.visible_rename]
  exact c.qualify_rename p.visible false

theorem Table.item_rename (t : Table) (level : Level) :
    Recomposed (Printed Sql.TableItem.pieces) (t.item level)
      ((t.rename ρ).item (level.rename ρ)) := by
  rw [item, item, Level.lookup_rename]
  cases level.lookup t with
  | some name => exact .ok rfl
  | none => exact .error (by simp [Error.Drafting])

theorem SortItem.compose_rename (i : SortItem) :
    Recomposed (Printed Sql.OrderItem.pieces) (i.compose σ p)
      ((i.rename ρ).compose σ (p.rename ρ)) := by
  obtain ⟨column, descending, nulls⟩ := i
  refine column.qualify_visible.bind fun n n' hn => ?_
  have hitem : ∀ nulls, Printed Sql.OrderItem.pieces ⟨n, descending, nulls⟩
      ⟨n', descending, nulls⟩ := fun nulls => by
    simp only [Printed, Sql.OrderItem.pieces, hn.2]
  cases nulls with
  | none => exact .ok (hitem none)
  | some order => exact (σ.require_recomposed _ _).bind fun _ _ _ => .ok (hitem (some order))

theorem Aggregate.compose_rename (a : Aggregate) :
    Recomposed (Printed Sql.SelectItem.pieces) (a.compose p)
      ((a.rename ρ).compose (p.rename ρ)) := by
  have hcolumn : ∀ (f : Sql.AggregateFunction) (c : Column),
      Recomposed (Printed Sql.SelectItem.pieces)
        (Sql.SelectItem.aggregate f <$> c.qualify p.visible false)
        (Sql.SelectItem.aggregate f <$> (c.rename ρ).qualify (p.rename ρ).visible false) :=
    fun f c => c.qualify_visible.map fun n n' hn => by
      simp only [Printed, Sql.SelectItem.pieces, hn.2]
  cases a with
  | countAll => exact .ok rfl
  | count c => exact hcolumn .count c
  | max c => exact hcolumn .max c
  | min c => exact hcolumn .min c

namespace Select

theorem firstRepeated?_rename (seen ts : List Table) :
    firstRepeated? (seen.map (Table.rename ρ)) (ts.map (Table.rename ρ)) =
      (firstRepeated? seen ts).map (Table.rename ρ) := by
  induction ts generalizing seen with
  | nil => rfl
  | cons t ts ih =>
    have hmem : t.rename ρ ∈ seen.map (Table.rename ρ) ↔ t ∈ seen :=
      List.mem_map_of_injective Table.rename_injective
    have hseen : seen.map (Table.rename ρ) ++ [t.rename ρ] =
        (seen ++ [t]).map (Table.rename ρ) := by
      rw [List.map_append, List.map_singleton]
    rw [List.map_cons, firstRepeated?, firstRepeated?, hseen, ih]
    by_cases h : t ∈ seen
    · rw [if_pos h, if_pos (hmem.mpr h), Option.map_some]
    · rw [if_neg h, if_neg fun h' => h (hmem.mp h')]

theorem checkTables_rename (ts : List Table) :
    Recomposed Eq (checkTables ts) (checkTables (ts.map (Table.rename ρ))) := by
  have hfirst : firstRepeated? [] (ts.map (Table.rename ρ)) =
      (firstRepeated? [] ts).map (Table.rename ρ) := firstRepeated?_rename [] ts
  rw [checkTables, checkTables, hfirst]
  cases firstRepeated? [] ts with
  | none => exact .ok rfl
  | some t => exact .error (by simp [Error.Drafting])

/-- The select and its renamed form are composed alike wherever they stand. -/
def Renames (ρ : Renaming) (σ : Setting) (s : Select) : Prop :=
  ∀ p : Position, Recomposed (Printed Sql.Select.pieces) (s.compose σ p)
    ((s.rename ρ).compose σ (p.rename ρ))

end Select

theorem SubQuery.compose_rename {q : SubQuery} (h : q.select.Renames ρ σ) (width : Option Nat) :
    Recomposed (Printed Sql.Select.pieces) (q.compose σ p width)
      ((q.rename ρ).compose σ (p.rename ρ) width) := by
  obtain ⟨id, select⟩ := q
  rw [rename, compose, compose, Select.width_rename, Position.enter?_rename]
  refine (Select.checkWidth_failsOnly _ _).recomposed.bind fun _ _ _ => ?_
  cases p.enter? id with
  | none => exact .error (by simp [Error.Drafting])
  | some below => exact h below

theorem Operand.compose_rename {o : Operand} (h : ∀ q ∈ o.subQueries, q.select.Renames ρ σ) :
    Recomposed (Printed Sql.Expr.pieces) (o.compose σ p) ((o.rename ρ).compose σ (p.rename ρ)) := by
  cases o with
  | column c =>
    rw [rename, compose, compose]
    exact c.qualify_visible.map fun _ _ hn => hn.2
  | outer c =>
    rw [rename, compose, compose]
    exact (c.qualify_rename p.outer true).map fun _ _ hn => hn.2
  | parameter b => exact .ok rfl
  | subQuery q =>
    rw [rename, compose, compose]
    refine (SubQuery.compose_rename (h q List.mem_cons_self) (some 1)).map fun s s' hs => ?_
    simp only [Printed, Sql.Expr.pieces, hs]
  | pattern parts => exact .ok rfl

theorem Operand.composeAll_rename {os : List Operand}
    (h : ∀ q ∈ os.flatMap subQueries, q.select.Renames ρ σ) :
    Recomposed (List.Forall₂ (Printed Sql.Expr.pieces)) (composeAll σ p os)
      (composeAll σ (p.rename ρ) (os.map (rename ρ))) := by
  rw [composeAll_eq_mapM, composeAll_eq_mapM]
  exact .mapM_map fun o ho => compose_rename fun q hq => h q (subset_flatMap_of_mem ho hq)

theorem OperandPair.compose_rename {o : OperandPair}
    (h : ∀ q ∈ o.subQueries, q.select.Renames ρ σ) :
    Recomposed (Printed Sql.ExprPair.pieces) (o.compose σ p)
      ((o.rename ρ).compose σ (p.rename ρ)) := by
  obtain ⟨first, second⟩ := o
  rw [rename, compose, compose]
  refine (Operand.compose_rename fun q hq => h q (List.mem_append_left _ hq)).bind
    fun a a' ha => ?_
  refine (Operand.compose_rename fun q hq => h q (List.mem_append_right _ hq)).bind
    fun b b' hb => .ok ?_
  simp only [Printed, Sql.ExprPair.pieces, ha, hb]

theorem OperandPair.composeAll_rename {os : List OperandPair}
    (h : ∀ q ∈ os.flatMap subQueries, q.select.Renames ρ σ) :
    Recomposed (List.Forall₂ (Printed Sql.ExprPair.pieces)) (composeAll σ p os)
      (composeAll σ (p.rename ρ) (os.map (rename ρ))) := by
  rw [composeAll_eq_mapM, composeAll_eq_mapM]
  exact .mapM_map fun o ho => compose_rename fun q hq => h q (subset_flatMap_of_mem ho hq)

theorem OperandPair.expandAll_rename {first first' second second' : Except Error Sql.Expr}
    (hfirst : Recomposed (Printed Sql.Expr.pieces) first first')
    (hsecond : Recomposed (Printed Sql.Expr.pieces) second second') {os : List OperandPair}
    (h : ∀ q ∈ os.flatMap subQueries, q.select.Renames ρ σ) :
    Recomposed (List.Forall₂ (Printed Sql.Condition.pieces)) (expandAll σ p first second os)
      (expandAll σ (p.rename ρ) first' second' (os.map (rename ρ))) := by
  rw [expandAll_eq_mapM, expandAll_eq_mapM]
  refine .mapM_map fun o ho => ?_
  obtain ⟨x, y⟩ := o
  have hsub : ∀ q ∈ x.subQueries ++ y.subQueries, q.select.Renames ρ σ := fun q hq =>
    h q (subset_flatMap_of_mem ho hq)
  have hx : Recomposed (Printed Sql.Expr.pieces) (x.compose σ p)
      ((x.rename ρ).compose σ (p.rename ρ)) :=
    Operand.compose_rename fun q hq => hsub q (List.mem_append_left _ hq)
  have hy : Recomposed (Printed Sql.Expr.pieces) (y.compose σ p)
      ((y.rename ρ).compose σ (p.rename ρ)) :=
    Operand.compose_rename fun q hq => hsub q (List.mem_append_right _ hq)
  refine hfirst.bind fun a a' ha => hx.bind fun b b' hb => ?_
  refine hsecond.bind fun c c' hc => hy.bind fun d d' hd => .ok ?_
  simp only [Printed, Sql.Condition.bothEqual, Sql.Condition.pieces, Sql.Condition.eachPieces, ha,
    hb, hc, hd]

theorem Operand.patternParts?_rename (option : LikeOption) (o : Operand) :
    (o.rename ρ).patternParts? option = o.patternParts? option := by
  cases o <;> rfl

namespace Criterion

theorem composeAll_rename_of {cs : List Criterion}
    (h : ∀ c ∈ cs, Recomposed (Printed Sql.Condition.pieces) (c.compose σ p)
      ((c.rename ρ).compose σ (p.rename ρ))) :
    Recomposed (List.Forall₂ (Printed Sql.Condition.pieces)) (composeAll σ p cs)
      (composeAll σ (p.rename ρ) (cs.map (rename ρ))) := by
  rw [composeAll_eq_mapM, composeAll_eq_mapM]
  exact .mapM_map h

theorem compose_pairInList_rename {negated : Bool} {pair : OperandPair}
    {values : List OperandPair} (hpair : ∀ q ∈ pair.subQueries, q.select.Renames ρ σ)
    (hvalues : ∀ q ∈ values.flatMap OperandPair.subQueries, q.select.Renames ρ σ) :
    Recomposed (Printed Sql.Condition.pieces) ((pairInList negated pair values).compose σ p)
      (((pairInList negated pair values).rename ρ).compose σ (p.rename ρ)) := by
  obtain ⟨first, second⟩ := pair
  have hfirst : Recomposed (Printed Sql.Expr.pieces) (first.compose σ p)
      ((first.rename ρ).compose σ (p.rename ρ)) :=
    Operand.compose_rename fun q hq => hpair q (List.mem_append_left _ hq)
  have hsecond : Recomposed (Printed Sql.Expr.pieces) (second.compose σ p)
      ((second.rename ρ).compose σ (p.rename ρ)) :=
    Operand.compose_rename fun q hq => hpair q (List.mem_append_right _ hq)
  rw [rename, OperandPair.rename, compose, compose, OperandPair.renameAll_eq_map,
    List.isEmpty_map]
  by_cases hnil : values.isEmpty = true
  · rw [if_pos hnil, if_pos hnil]
    exact .ok rfl
  rw [if_neg hnil, if_neg hnil]
  by_cases hrow : σ.dialect.rowValueInList = true
  · rw [if_pos hrow, if_pos hrow]
    refine hfirst.bind fun a a' ha => hsecond.bind fun b b' hb => ?_
    refine (OperandPair.composeAll_rename hvalues).bind fun es es' hes => .ok ?_
    simp only [Printed, Sql.Condition.pieces, Sql.ExprPair.pieces,
      Sql.ExprPair.eachPieces_eq_map, ha, hb, Printed.map_eq hes]
  · rw [if_neg hrow, if_neg hrow]
    exact (OperandPair.expandAll_rename hfirst hsecond hvalues).map fun cs cs' hcs =>
      Sql.Condition.pieces_expandedRows negated hcs

theorem compose_rename {c : Criterion} (h : ∀ q ∈ c.subQueries, q.select.Renames ρ σ) :
    Recomposed (Printed Sql.Condition.pieces) (c.compose σ p)
      ((c.rename ρ).compose σ (p.rename ρ)) := by
  induction c with
  | compare op left right =>
    rw [rename, compose, compose]
    refine (Operand.compose_rename fun q hq => h q (List.mem_append_left _ hq)).bind
      fun l l' hl => ?_
    refine (Operand.compose_rename fun q hq => h q (List.mem_append_right _ hq)).bind
      fun r r' hr => .ok ?_
    simp only [Printed, Sql.Condition.pieces, hl, hr]
  | isNull negated o =>
    rw [rename, compose, compose]
    refine (Operand.compose_rename h).map fun e e' he => ?_
    simp only [Printed, Sql.Condition.pieces, he]
  | like negated o pattern option =>
    rw [rename, compose, compose, Operand.patternParts?_rename]
    refine (Operand.compose_rename fun q hq => h q (List.mem_append_left _ hq)).bind
      fun e e' he => ?_
    cases pattern.patternParts? option with
    | some parts =>
      refine .ok ?_
      simp only [Printed, Sql.Condition.pieces, he]
    | none =>
      refine (Operand.compose_rename fun q hq => h q (List.mem_append_right _ hq)).map
        fun b b' hb => ?_
      simp only [Printed, Sql.Condition.pieces, he, hb]
  | between negated o low high =>
    rw [rename, compose, compose]
    simp only [subQueries, List.mem_append, or_assoc] at h
    refine (Operand.compose_rename fun q hq => h q (.inl hq)).bind fun e e' he => ?_
    refine (Operand.compose_rename fun q hq => h q (.inr (.inl hq))).bind fun l l' hl => ?_
    refine (Operand.compose_rename fun q hq => h q (.inr (.inr hq))).bind fun u u' hu => .ok ?_
    simp only [Printed, Sql.Condition.pieces, he, hl, hu]
  | inList negated o values =>
    rw [rename, compose, compose, Operand.renameAll_eq_map, List.isEmpty_map]
    by_cases hnil : values.isEmpty = true
    · rw [if_pos hnil, if_pos hnil]
      exact .ok rfl
    · rw [if_neg hnil, if_neg hnil]
      refine (Operand.compose_rename fun q hq => h q (List.mem_append_left _ hq)).bind
        fun e e' he => ?_
      refine (Operand.composeAll_rename fun q hq => h q (List.mem_append_right _ hq)).bind
        fun es es' hes => .ok ?_
      simp only [Printed, Sql.Condition.pieces, Sql.Expr.eachPieces_eq_map, he,
        Printed.map_eq hes]
  | inSubQuery negated o query =>
    rw [rename, compose, compose]
    refine (Operand.compose_rename fun q hq => h q (List.mem_append_left _ hq)).bind
      fun e e' he => ?_
    have hquery := h query (List.mem_append_right _ List.mem_cons_self)
    refine (SubQuery.compose_rename hquery (some 1)).bind fun s s' hs => .ok ?_
    simp only [Printed, Sql.Condition.pieces, he, hs]
  | pairInList negated pair values =>
    exact compose_pairInList_rename (fun q hq => h q (List.mem_append_left _ hq))
      fun q hq => h q (List.mem_append_right _ hq)
  | pairInSubQuery negated pair query =>
    rw [rename, compose, compose]
    refine (σ.require_recomposed _ _).bind fun _ _ _ => ?_
    refine (OperandPair.compose_rename fun q hq => h q (List.mem_append_left _ hq)).bind
      fun row row' hrow => ?_
    have hquery := h query (List.mem_append_right _ List.mem_cons_self)
    refine (SubQuery.compose_rename hquery (some 2)).bind fun s s' hs => .ok ?_
    simp only [Printed, Sql.Condition.pieces, hrow, hs]
  | exists_ negated query =>
    rw [rename, compose, compose]
    refine (SubQuery.compose_rename (h query List.mem_cons_self) none).map fun s s' hs => ?_
    simp only [Printed, Sql.Condition.pieces, hs]
  | all children ih =>
    rw [subQueries_all] at h
    rw [rename, compose, compose, renameAll_eq_map]
    have hmembers := composeAll_rename_of fun c hc => ih c hc fun q hq =>
      h q (subset_flatMap_of_mem hc hq)
    exact hmembers.map fun _ _ hcs => Sql.Condition.pieces_group .and hcs
  | any children ih =>
    rw [subQueries_any] at h
    rw [rename, compose, compose, renameAll_eq_map]
    have hmembers := composeAll_rename_of fun c hc => ih c hc fun q hq =>
      h q (subset_flatMap_of_mem hc hq)
    exact hmembers.map fun _ _ hcs => Sql.Condition.pieces_group .or hcs
  | not children ih =>
    rw [subQueries_not] at h
    rw [rename, compose, compose, renameAll_eq_map]
    have hmembers := composeAll_rename_of fun c hc => ih c hc fun q hq =>
      h q (subset_flatMap_of_mem hc hq)
    exact hmembers.map fun _ _ hcs => Sql.Condition.pieces_negation hcs

theorem composeAll_rename {cs : List Criterion}
    (h : ∀ q ∈ cs.flatMap subQueries, q.select.Renames ρ σ) :
    Recomposed (List.Forall₂ (Printed Sql.Condition.pieces)) (composeAll σ p cs)
      (composeAll σ (p.rename ρ) (cs.map (rename ρ))) :=
  composeAll_rename_of fun _ hc => compose_rename fun q hq => h q (subset_flatMap_of_mem hc hq)

end Criterion

theorem SelectItem.compose_rename {i : SelectItem}
    (h : ∀ q ∈ i.subQueries, q.select.Renames ρ σ) :
    Recomposed (Printed Sql.SelectItem.pieces) (i.compose σ p)
      ((i.rename ρ).compose σ (p.rename ρ)) := by
  cases i with
  | column c =>
    rw [rename, compose, compose]
    exact c.qualify_visible.map fun _ _ hn => hn.2
  | aggregate a =>
    rw [rename, compose, compose]
    exact a.compose_rename
  | subQuery q =>
    rw [rename, compose, compose]
    refine (SubQuery.compose_rename (h q List.mem_cons_self) (some 1)).map fun s s' hs => ?_
    simp only [Printed, Sql.SelectItem.pieces, hs]

theorem Projection.compose_rename {j : Projection} (target : Table)
    (h : ∀ q ∈ j.subQueries, q.select.Renames ρ σ) :
    Recomposed (List.Forall₂ (Printed Sql.SelectItem.pieces)) (j.compose σ p target)
      ((j.rename ρ).compose σ (p.rename ρ) (target.rename ρ)) := by
  cases j with
  | allColumns =>
    rw [rename, compose, compose, Table.columns_rename]
    exact .mapM_map fun c _ => c.qualify_visible.map fun _ _ hn => hn.2
  | explicit items =>
    rw [rename, compose, compose, SelectItem.composeAll_eq_mapM, SelectItem.composeAll_eq_mapM,
      SelectItem.renameAll_eq_map]
    exact .mapM_map fun i hi => SelectItem.compose_rename fun q hq =>
      h q (subset_flatMap_of_mem hi hq)

theorem Join.compose_rename {j : Join}
    (h : ∀ q ∈ j.on.flatMap Criterion.subQueries, q.select.Renames ρ σ) :
    Recomposed (Printed Sql.Join.pieces) (j.compose σ p) ((j.rename ρ).compose σ (p.rename ρ)) := by
  obtain ⟨kind, table, on⟩ := j
  have hlevel : (p.rename ρ).scope.level = p.scope.level.rename ρ := p.scope.level_rename
  rw [rename, compose, compose, hlevel, Criterion.renameAll_eq_map]
  refine (table.item_rename _).bind fun item item' hitem => ?_
  refine (Criterion.composeAll_rename h).bind fun cs cs' hcs => .ok ?_
  simp only [Printed, Sql.Join.pieces, hitem, Sql.Condition.pieces_conjunction?_getD true hcs]

theorem Join.composeAll_rename {js : List Join}
    (h : ∀ q ∈ (js.flatMap (·.on)).flatMap Criterion.subQueries, q.select.Renames ρ σ) :
    Recomposed (List.Forall₂ (Printed Sql.Join.pieces)) (composeAll σ p js)
      (composeAll σ (p.rename ρ) (js.map (rename ρ))) := by
  rw [composeAll_eq_mapM, composeAll_eq_mapM]
  rw [List.flatMap_assoc] at h
  exact .mapM_map fun j hj => compose_rename fun q hq => h q (subset_flatMap_of_mem hj hq)

theorem Select.pieces_mk {distinct : Bool} {items items' : List Sql.SelectItem}
    {source source' : Sql.TableItem} {joins joins' : List Sql.Join}
    {conditions conditions' : List Sql.Condition} {order order' : List Sql.OrderItem}
    (hitems : List.Forall₂ (Printed Sql.SelectItem.pieces) items items')
    (hsource : source.pieces = source'.pieces)
    (hjoins : List.Forall₂ (Printed Sql.Join.pieces) joins joins')
    (hconditions : List.Forall₂ (Printed Sql.Condition.pieces) conditions conditions')
    (horder : List.Forall₂ (Printed Sql.OrderItem.pieces) order order') (paging : Sql.Paging)
    (lock : Option LockWait) :
    Printed Sql.Select.pieces
      ⟨distinct, items, source, joins, Sql.Condition.conjunction? conditions, order, paging, lock⟩
      ⟨distinct, items', source', joins', Sql.Condition.conjunction? conditions', order', paging,
        lock⟩ := by
  have hempty : order.isEmpty = order'.isEmpty := by
    cases horder <;> rfl
  simp only [Printed, Sql.Select.pieces, Sql.SelectItem.eachPieces_eq_map,
    Sql.Join.eachPieces_eq_map, Sql.orderPieces, Printed.map_eq hitems, hsource,
    Printed.map_eq hjoins, Sql.Condition.wherePieces_conjunction? hconditions,
    Printed.map_eq horder, hempty]

/-- A select is composed like its renamed form when the selects that it mentions are. -/
theorem Select.renames_of {s : Select} (h : ∀ q ∈ s.subQueries, q.select.Renames ρ σ) :
    s.Renames ρ σ := by
  intro p
  cases s with
  | mk target joins filter projection distinct orderBy offset limit lock options =>
    simp only [subQueries, criteria, List.flatMap_append, List.mem_append] at h
    have htables : target.rename ρ :: (joins.map (Join.rename ρ)).map (·.table) =
        (target :: joins.map (·.table)).map (Table.rename ρ) := by
      simp only [List.map_cons, List.map_map, List.cons.injEq, true_and]
      refine List.map_congr_left fun j _ => ?_
      obtain ⟨kind, table, on⟩ := j
      rfl
    have hlevel : (p.rename ρ).scope.level = p.scope.level.rename ρ := p.scope.level_rename
    have hlock : Recomposed Eq (lock.mapM σ.lock) (lock.mapM σ.lock) := by
      cases lock with
      | none => exact .ok rfl
      | some mode => exact (σ.lock_recomposed mode).map fun _ _ he => congrArg some he
    rw [rename, compose, compose, Join.renameAll_eq_map, Criterion.renameAll_eq_map, htables,
      hlevel, List.isEmpty_map]
    refine (checkTables_rename _).bind fun _ _ _ => ?_
    refine (Projection.compose_rename target fun q hq => h q (.inl hq)).bind
      fun items items' hitems => ?_
    refine (target.item_rename _).bind fun source source' hsource => ?_
    refine (Join.composeAll_rename fun q hq => h q (.inr (.inl hq))).bind
      fun joined joined' hjoined => ?_
    refine (Criterion.composeAll_rename fun q hq => h q (.inr (.inr hq))).bind
      fun conditions conditions' hconditions => ?_
    refine (Recomposed.mapM_map fun i _ => i.compose_rename).bind fun order order' horder => ?_
    refine hlock.bind fun locked _ he => .ok ?_
    subst he
    exact pieces_mk hitems hsource hjoined hconditions horder _ _

end

theorem Select.renames (ρ : Renaming) (σ : Setting) (s : Select) : s.Renames ρ σ := by
  induction s with
  | step s ih => exact renames_of ih

end SqlCompose
