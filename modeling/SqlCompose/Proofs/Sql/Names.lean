import SqlCompose.Proofs.Sql.Operands
import SqlCompose.Proofs.Sql.Pieces

/-! The names that a command writes, traced to where they stand in its tree: every name belongs to
an operand, to a table of the from list, or to a column of the table that is written to. -/

namespace SqlCompose

namespace Piece

/-- Every name among the pieces has the property. -/
def Named (P : Identifier → Prop) (ps : List Piece) : Prop := ∀ i, .name i ∈ ps → P i

variable {P : Identifier → Prop} {ps qs : List Piece}

@[simp] theorem named_nil : Named P [] := by simp [Named]

@[simp] theorem named_text {t : String} : Named P (.text t :: ps) ↔ Named P ps := by simp [Named]

@[simp] theorem named_parameter {b : Bound} : Named P (.parameter b :: ps) ↔ Named P ps := by
  simp [Named]

@[simp] theorem named_name {i : Identifier} : Named P (.name i :: ps) ↔ P i ∧ Named P ps := by
  simp [Named]

@[simp] theorem named_append : Named P (ps ++ qs) ↔ Named P ps ∧ Named P qs := by
  simp only [Named, List.mem_append, or_imp, forall_and]

@[simp] theorem named_enclosed : Named P (enclosed ps) ↔ Named P ps := by simp [enclosed]

@[simp] theorem named_separated {s : String} {parts : List (List Piece)} :
    Named P (separated s parts) ↔ ∀ ps ∈ parts, Named P ps := by
  induction parts with
  | nil => simp
  | cons ps parts ih =>
    cases parts with
    | nil => simp
    | cons qs parts => simp [ih]

theorem named_flatten {parts : List (List Piece)} :
    Named P parts.flatten ↔ ∀ ps ∈ parts, Named P ps := by
  induction parts with
  | nil => simp
  | cons ps parts ih => simp [ih]

end Piece

namespace Sql

open Piece (Named)

variable {P : Identifier → Prop}

@[simp] theorem named_choose {negated : Bool} {a b : String} {ps : List Piece} :
    Named P (choose negated a b :: ps) ↔ Named P ps := Piece.named_text

theorem named_columnList {cs : List Column} (h : ∀ c ∈ cs, P c.ident) :
    Named P (columnList cs) := by
  simpa [columnList] using h

theorem ExprPair.named {p : ExprPair} (h : ∀ e ∈ p.operands, Named P e.pieces) :
    Named P p.pieces := by
  obtain ⟨first, second⟩ := p
  simpa [ExprPair.pieces] using h

theorem Condition.each_named {cs : List Condition}
    (ih : ∀ c ∈ cs, (∀ e ∈ c.operands, Named P e.pieces) → Named P c.pieces)
    (h : ∀ e ∈ cs.flatMap operands, Named P e.pieces) :
    ∀ ps ∈ cs.map pieces, Named P ps := by
  intro ps hps
  obtain ⟨c, hc, rfl⟩ := List.mem_map.mp hps
  exact ih c hc fun e he => h e (List.mem_flatMap.mpr ⟨c, hc, he⟩)

theorem Condition.named {c : Condition} (h : ∀ e ∈ c.operands, Named P e.pieces) :
    Named P c.pieces := by
  match c with
  | .constant _ => simp [Condition.pieces]
  | .compare _ l r => simpa [Condition.pieces] using h
  | .isNull _ e => simpa [Condition.pieces] using h
  | .like _ e pattern escape =>
    cases escape <;> simpa [Condition.pieces] using h
  | .between _ e low high => simpa [Condition.pieces] using h
  | .inList _ e values => simpa [Condition.pieces, Expr.eachPieces_eq_map] using h
  | .inSubQuery _ e query => simpa [Condition.pieces, Expr.pieces] using h
  | .rowInList _ row values =>
    simp only [operands, List.mem_append, or_imp, forall_and] at h
    simp only [Condition.pieces, Piece.named_append, named_choose, Piece.named_enclosed,
      Piece.named_separated, ExprPair.eachPieces_eq_map]
    refine ⟨ExprPair.named h.1, fun ps hps => ?_⟩
    obtain ⟨v, hv, rfl⟩ := List.mem_map.mp hps
    exact ExprPair.named fun e he => h.2 e (List.mem_flatMap.mpr ⟨v, hv, he⟩)
  | .rowInSubQuery _ row query =>
    simp only [operands, List.mem_append, or_imp, forall_and] at h
    simp only [Condition.pieces, Piece.named_append, named_choose, Piece.named_enclosed]
    exact ⟨ExprPair.named h.1, by simpa [Expr.pieces] using h.2⟩
  | .exists _ query => simpa [Condition.pieces, Expr.pieces] using h
  | .chain op parts =>
    rw [operands, listOperands_eq_flatMap] at h
    rw [Condition.pieces, Piece.named_separated, eachPieces_eq_map]
    exact each_named (fun c hc => Condition.named) h
  | .parenthesized inner =>
    rw [Condition.pieces, Piece.named_enclosed]
    exact Condition.named h
  | .not inner =>
    rw [Condition.pieces, Piece.named_text]
    exact Condition.named h
termination_by sizeOf c
decreasing_by
  · have := List.sizeOf_lt_of_mem hc
    simp only [Condition.chain.sizeOf_spec]
    omega
  all_goals simp

theorem Condition.named_where {filter : Option Condition}
    (h : ∀ e ∈ filter.toList.flatMap operands, Named P e.pieces) :
    Named P (wherePieces filter) := by
  cases filter with
  | none => simp [wherePieces]
  | some c =>
    rw [wherePieces, Piece.named_text]
    exact Condition.named (by simpa using h)

theorem SelectItem.named {i : SelectItem} (h : ∀ e ∈ i.operands, Named P e.pieces) :
    Named P i.pieces := by
  cases i with
  | countAll => simp [SelectItem.pieces]
  | _ => simpa [SelectItem.pieces, Expr.pieces] using h

theorem tablePieces_named {t : Table} (hname : P t.definition.name)
    (hschema : ∀ s ∈ t.definition.schema, P s) : Named P (tablePieces t) := by
  unfold tablePieces
  cases hs : t.definition.schema with
  | none => simpa using hname
  | some schema => simpa using ⟨hschema schema hs, hname⟩

theorem orderPieces_named {items : List OrderItem}
    (h : ∀ i ∈ items, Named P i.name.pieces) : Named P (orderPieces items) := by
  unfold orderPieces
  split
  · simp
  · rw [Piece.named_text, Piece.named_separated]
    intro ps hps
    obtain ⟨i, hi, rfl⟩ := List.mem_map.mp hps
    unfold OrderItem.pieces
    cases i.nulls with
    | none => simpa using h i hi
    | some nulls => cases nulls <;> simpa using h i hi

theorem Paging.named (p : Paging) : Named P p.pieces := by
  cases p with
  | limitOffset limit offset => cases limit <;> cases offset <;> simp [Paging.pieces]
  | offsetFetch ordered offset fetch => cases ordered <;> cases fetch <;> simp [Paging.pieces]

theorem Select.named {q : Select} (hoperands : ∀ e ∈ q.operands, Named P e.pieces)
    (htables : ∀ i ∈ q.source :: q.joins.map (·.table), Named P i.pieces) :
    Named P q.pieces := by
  obtain ⟨distinct, items, source, joins, filter, orderBy, paging, lock⟩ := q
  simp only [Select.operands, List.mem_append, or_imp, forall_and] at hoperands
  obtain ⟨⟨⟨hitems, hjoins⟩, hfilter⟩, horder⟩ := hoperands
  have hlist : Named P (Piece.separated ", " (SelectItem.eachPieces items)) := by
    rw [Piece.named_separated, SelectItem.eachPieces_eq_map]
    intro ps hps
    obtain ⟨i, hi, rfl⟩ := List.mem_map.mp hps
    exact SelectItem.named fun e he => hitems e (List.mem_flatMap.mpr ⟨i, hi, he⟩)
  have hjoined : Named P (Join.eachPieces joins).flatten := by
    rw [Piece.named_flatten, Join.eachPieces_eq_map]
    intro ps hps
    obtain ⟨j, hj, rfl⟩ := List.mem_map.mp hps
    have htable := htables j.table (List.mem_cons_of_mem _ (List.mem_map_of_mem hj))
    have hon := Condition.named fun e he => hjoins e (List.mem_flatMap.mpr ⟨j, hj, he⟩)
    obtain ⟨kind, table, on⟩ := j
    simpa [Join.pieces] using ⟨htable, hon⟩
  have hsorted : Named P (orderPieces orderBy) :=
    orderPieces_named fun i hi => horder _ (List.mem_map_of_mem hi)
  have hlock : ∀ mode, Named P (lockPieces mode) := fun mode => by
    cases mode <;> simp [lockPieces]
  have hsource : Named P source.pieces := htables source List.mem_cons_self
  have hwhere := Condition.named_where hfilter
  have hpaging := paging.named (P := P)
  cases distinct <;> cases lock <;>
    simp [Select.pieces, hlist, hsource, hjoined, hwhere, hsorted, hpaging, hlock]

theorem incomingPieces_named {style : IncomingStyle} {c : Column} (h : P c.ident) :
    Named P (incomingPieces style c) := by
  cases style <;> simpa [incomingPieces] using h

/-- The columns that an item writes and reads. -/
def SetItem.columns (i : SetItem) : List Column :=
  i.target :: match i.source with
    | .expr _ => []
    | .incoming c => [c]

theorem setPieces_named {style : IncomingStyle} {items : List SetItem}
    (hoperands : ∀ e ∈ items.flatMap SetItem.operands, Named P e.pieces)
    (hcolumns : ∀ c ∈ items.flatMap SetItem.columns, P c.ident) :
    Named P (setPieces style items) := by
  rw [setPieces, Piece.named_separated]
  intro ps hps
  obtain ⟨i, hi, rfl⟩ := List.mem_map.mp hps
  have htarget : P i.target.ident :=
    hcolumns _ (List.mem_flatMap.mpr ⟨i, hi, List.mem_cons_self⟩)
  rw [SetItem.pieces, Piece.named_name, Piece.named_text]
  refine ⟨htarget, ?_⟩
  cases hs : i.source with
  | expr e => exact hoperands e (List.mem_flatMap.mpr ⟨i, hi, by simp [SetItem.operands, hs]⟩)
  | incoming c =>
    exact incomingPieces_named
      (hcolumns c (List.mem_flatMap.mpr ⟨i, hi, by simp [SetItem.columns, hs]⟩))

theorem rowPieces_named (rows : List (List Bound)) : Named P (rowPieces rows) := by
  simp [rowPieces]

theorem ConflictClause.onConflict_named {keys : List Column} {items : List SetItem}
    (hkeys : ∀ c ∈ keys, P c.ident) (hset : Named P (setPieces .qualified items)) :
    Named P (onConflict keys items).pieces := by
  have hlist := named_columnList hkeys
  by_cases hk : keys.isEmpty = true <;> by_cases hi : items.isEmpty = true <;>
    simp [ConflictClause.pieces, hk, hi, hlist, hset]

theorem Insert.pieces_named {i : Insert} (htable : Named P (tablePieces i.table))
    (hcolumns : ∀ c ∈ i.columns, P c.ident) (hconflict : ∀ c ∈ i.conflict, Named P c.pieces) :
    Named P i.pieces := by
  have hlist := named_columnList hcolumns
  cases hc : i.conflict with
  | none => simp [Insert.pieces, hc, htable, hlist, rowPieces_named]
  | some c => simp [Insert.pieces, hc, htable, hlist, rowPieces_named, hconflict c hc]

theorem Merge.pieces_named {m : Merge} (htable : Named P (tablePieces m.table))
    (hsource : ∀ c ∈ m.source, P c.ident) (hkeys : ∀ n ∈ m.keys, Named P (keyPieces n))
    (hset : Named P (setPieces .qualified m.items)) (hcolumns : ∀ c ∈ m.columns, P c.ident) :
    Named P m.pieces := by
  have hsources := named_columnList hsource
  have hlist := named_columnList hcolumns
  have hvalues : ∀ c ∈ m.columns, Named P (incomingPieces .qualified c) := fun c hc =>
    incomingPieces_named (hcolumns c hc)
  by_cases hi : m.items.isEmpty = true <;> cases ht : m.terminated <;>
    simpa [Merge.pieces, hi, ht, htable, hsources, hset, hlist, rowPieces_named]
      using ⟨hkeys, hvalues⟩

theorem Update.pieces_named {u : Update} (htable : Named P (tablePieces u.table))
    (hset : Named P (setPieces .qualified u.items))
    (hwhere : Named P (Condition.wherePieces u.filter)) : Named P u.pieces := by
  simp [Update.pieces, htable, hset, hwhere]

theorem Delete.pieces_named {u : Delete} (htable : Named P (tablePieces u.table))
    (hwhere : Named P (Condition.wherePieces u.filter)) : Named P u.pieces := by
  simp [Delete.pieces, htable, hwhere]

theorem Write.pieces_named {w : Write} (hbody : Named P w.body.pieces)
    (hreturning : ∀ cs ∈ w.returning, ∀ c ∈ cs, P c.ident) : Named P w.pieces := by
  cases hw : w.returning with
  | none => simpa [Write.pieces, hw] using hbody
  | some cs => simpa [Write.pieces, hw, hbody] using hreturning cs hw

end Sql

end SqlCompose
