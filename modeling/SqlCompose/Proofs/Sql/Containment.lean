import SqlCompose.Compose.Select
import SqlCompose.Proofs.Sql.Operands
import SqlCompose.Proofs.Sql.Pieces

/-! Parts of a statement that stand in one stretch. What a tree holds is printed as a stretch of what
the tree is printed as. -/

namespace SqlCompose

open List (infix_rfl infix_cons infix_append_of_infix_left infix_append_of_infix_right)

namespace Piece

theorem infix_enclosed (ps : List Piece) : ps <:+: enclosed ps :=
  ⟨[.text "("], [.text ")"], rfl⟩

theorem infix_separated (s : String) {ps : List Piece} {parts : List (List Piece)}
    (h : ps ∈ parts) : ps <:+: separated s parts := by
  induction parts with
  | nil => exact absurd h List.not_mem_nil
  | cons qs rest ih =>
    cases rest with
    | nil =>
      have hps : ps = qs := List.mem_singleton.mp h
      simp [hps]
    | cons rs rest =>
      rw [separated_cons_cons]
      rcases List.mem_cons.mp h with rfl | h
      · exact infix_append_of_infix_left infix_rfl
      · exact infix_append_of_infix_right (infix_cons (ih h))

theorem infix_flatten {ps : List Piece} {parts : List (List Piece)} (h : ps ∈ parts) :
    ps <:+: parts.flatten := by
  obtain ⟨before, after, rfl⟩ := List.append_of_mem h
  rw [List.flatten_append, List.flatten_cons]
  exact List.infix_append' _ _ _

end Piece

namespace Sql

theorem ExprPair.infix_pieces {r : ExprPair} {x : Expr} (h : x ∈ r.operands) :
    x.pieces <:+: r.pieces := by
  obtain ⟨first, second⟩ := r
  refine List.IsInfix.trans (Piece.infix_separated ", " ?_) (Piece.infix_enclosed _)
  simp only [operands, List.mem_cons, List.not_mem_nil, or_false] at h
  rcases h with rfl | rfl
  · exact List.mem_cons_self
  · exact List.mem_cons_of_mem _ List.mem_cons_self

theorem ExprPair.infix_enclosed_pieces {rs : List ExprPair} {x : Expr}
    (h : x ∈ rs.flatMap operands) :
    x.pieces <:+: Piece.enclosed (Piece.separated ", " (eachPieces rs)) := by
  obtain ⟨r, hr, hx⟩ := List.mem_flatMap.mp h
  have hrow : r.pieces ∈ eachPieces rs := by
    rw [eachPieces_eq_map]
    exact List.mem_map_of_mem hr
  exact (infix_pieces hx).trans ((Piece.infix_separated ", " hrow).trans (Piece.infix_enclosed _))

mutual

theorem Condition.infix_pieces : ∀ {c : Condition} {x : Expr}, x ∈ c.operands →
    x.pieces <:+: c.pieces
  | .constant _, x, h => absurd h List.not_mem_nil
  | .compare op l r, x, h => by
    simp only [Condition.operands, List.mem_cons, List.not_mem_nil, or_false] at h
    rcases h with rfl | rfl
    · exact infix_append_of_infix_left infix_rfl
    · exact infix_append_of_infix_right (infix_cons infix_rfl)
  | .isNull negated e, x, h => by
    rw [List.mem_singleton.mp h]
    exact infix_append_of_infix_left infix_rfl
  | .like negated e pattern escape, x, h => by
    simp only [Condition.operands, List.mem_cons, List.not_mem_nil, or_false] at h
    rcases h with rfl | rfl
    · exact infix_append_of_infix_left (infix_append_of_infix_left infix_rfl)
    · exact infix_append_of_infix_left (infix_append_of_infix_right (infix_cons infix_rfl))
  | .between negated e low high, x, h => by
    simp only [Condition.operands, List.mem_cons, List.not_mem_nil, or_false] at h
    rcases h with rfl | rfl | rfl
    · exact infix_append_of_infix_left (infix_append_of_infix_left infix_rfl)
    · exact infix_append_of_infix_left (infix_append_of_infix_right (infix_cons infix_rfl))
    · exact infix_append_of_infix_right (infix_cons infix_rfl)
  | .inList negated e values, x, h => by
    rcases List.mem_cons.mp h with rfl | h
    · exact infix_append_of_infix_left infix_rfl
    · have hmem : x.pieces ∈ Expr.eachPieces values := by
        rw [Expr.eachPieces_eq_map]
        exact List.mem_map_of_mem h
      have hlist := (Piece.infix_separated ", " hmem).trans (Piece.infix_enclosed _)
      exact infix_append_of_infix_right (infix_cons hlist)
  | .inSubQuery negated e query, x, h => by
    simp only [Condition.operands, List.mem_cons, List.not_mem_nil, or_false] at h
    rcases h with rfl | rfl
    · exact infix_append_of_infix_left infix_rfl
    · exact infix_append_of_infix_right (infix_cons infix_rfl)
  | .rowInList negated row values, x, h => by
    rcases List.mem_append.mp h with h | h
    · exact infix_append_of_infix_left (ExprPair.infix_pieces h)
    · exact infix_append_of_infix_right (infix_cons (ExprPair.infix_enclosed_pieces h))
  | .rowInSubQuery negated row query, x, h => by
    rcases List.mem_append.mp h with h | h
    · exact infix_append_of_infix_left (ExprPair.infix_pieces h)
    · rw [List.mem_singleton.mp h]
      exact infix_append_of_infix_right (infix_cons infix_rfl)
  | .exists negated query, x, h => by
    rw [List.mem_singleton.mp h]
    exact infix_cons infix_rfl
  | .chain op parts, x, h => by
    obtain ⟨ps, hps, hx⟩ := Condition.exists_infix_each h
    exact hx.trans (Piece.infix_separated _ hps)
  | .parenthesized inner, x, h =>
    (Condition.infix_pieces (c := inner) h).trans (Piece.infix_enclosed _)
  | .not inner, x, h => infix_cons (Condition.infix_pieces (c := inner) h)

theorem Condition.exists_infix_each : ∀ {cs : List Condition} {x : Expr},
    x ∈ Condition.listOperands cs → ∃ ps ∈ Condition.eachPieces cs, x.pieces <:+: ps
  | [], x, h => absurd h List.not_mem_nil
  | c :: cs, x, h => by
    rcases List.mem_append.mp h with h | h
    · exact ⟨c.pieces, List.mem_cons_self, Condition.infix_pieces h⟩
    · obtain ⟨ps, hps, hx⟩ := Condition.exists_infix_each h
      exact ⟨ps, List.mem_cons_of_mem _ hps, hx⟩

end

namespace Condition

variable {c : Condition} {cs : List Condition}

theorem infix_chain (op : Connective) (h : c ∈ cs) : c.pieces <:+: (chain op cs).pieces := by
  rw [pieces, eachPieces_eq_map]
  exact Piece.infix_separated _ (List.mem_map_of_mem h)

theorem infix_group (op : Connective) (h : c ∈ cs) : c.pieces <:+: (group op cs).pieces := by
  match cs, h with
  | [d], h =>
    rw [List.mem_singleton.mp h]
    exact infix_rfl
  | d :: d' :: cs, h => exact (infix_chain op h).trans (Piece.infix_enclosed _)

theorem infix_negation (h : c ∈ cs) : c.pieces <:+: (negation cs).pieces := by
  obtain ⟨d, ds, rfl⟩ := List.exists_cons_of_ne_nil (List.ne_nil_of_mem h)
  exact infix_cons ((infix_chain .and h).trans (Piece.infix_enclosed _))

theorem infix_conjunction_getD (truth : Bool) (h : c ∈ cs) :
    c.pieces <:+: ((conjunction? cs).getD (.constant truth)).pieces := by
  obtain ⟨d, ds, rfl⟩ := List.exists_cons_of_ne_nil (List.ne_nil_of_mem h)
  exact infix_chain .and h

theorem infix_wherePieces (h : c ∈ cs) : c.pieces <:+: wherePieces (conjunction? cs) := by
  obtain ⟨d, ds, rfl⟩ := List.exists_cons_of_ne_nil (List.ne_nil_of_mem h)
  exact infix_cons (infix_chain .and h)

end Condition

theorem Join.infix_pieces (j : Join) : j.on.pieces <:+: j.pieces := by
  obtain ⟨kind, table, on⟩ := j
  exact infix_append_of_infix_right (infix_cons infix_rfl)

namespace Select

variable {distinct : Bool} {items : List SelectItem} {source : TableItem} {joins : List Join}
  {conditions : List Condition} {order : List OrderItem} {paging : Paging} {lock : Option LockWait}

theorem infix_item {i : SelectItem} (h : i ∈ items) (filter : Option Condition) :
    i.pieces <:+: (Select.mk distinct items source joins filter order paging lock).pieces := by
  have hlist : i.pieces <:+: Piece.separated ", " (SelectItem.eachPieces items) := by
    rw [SelectItem.eachPieces_eq_map]
    exact Piece.infix_separated ", " (List.mem_map_of_mem h)
  simp only [pieces]
  iterate 6 refine infix_append_of_infix_left ?_
  exact infix_append_of_infix_right hlist

theorem infix_join {j : Join} (h : j ∈ joins) (filter : Option Condition) :
    j.on.pieces <:+: (Select.mk distinct items source joins filter order paging lock).pieces := by
  have hlist : j.on.pieces <:+: (Join.eachPieces joins).flatten := by
    rw [Join.eachPieces_eq_map]
    exact j.infix_pieces.trans (Piece.infix_flatten (List.mem_map_of_mem h))
  simp only [pieces]
  iterate 4 refine infix_append_of_infix_left ?_
  exact infix_append_of_infix_right hlist

theorem infix_condition {c : Condition} (h : c ∈ conditions) :
    c.pieces <:+: (Select.mk distinct items source joins (Condition.conjunction? conditions) order
      paging lock).pieces := by
  simp only [pieces]
  iterate 3 refine infix_append_of_infix_left ?_
  exact infix_append_of_infix_right (Condition.infix_wherePieces h)

end Select

theorem SelectItem.infix_pieces {i : SelectItem} {x : Expr} (h : x ∈ i.operands) :
    x.pieces <:+: i.pieces := by
  cases i with
  | countAll => exact absurd h List.not_mem_nil
  | column n =>
    rw [List.mem_singleton.mp h]
    exact infix_rfl
  | aggregate f n =>
    rw [List.mem_singleton.mp h]
    exact infix_append_of_infix_left (infix_cons infix_rfl)
  | subQuery query =>
    rw [List.mem_singleton.mp h]
    exact infix_rfl

theorem Condition.infix_where {filter : Option Condition} {x : Expr}
    (h : x ∈ filter.toList.flatMap operands) : x.pieces <:+: wherePieces filter := by
  cases filter with
  | none => exact absurd h List.not_mem_nil
  | some c => exact infix_cons (infix_pieces (by simpa using h))

theorem infix_orderPieces {items : List OrderItem} {i : OrderItem} (h : i ∈ items) :
    i.name.pieces <:+: orderPieces items := by
  have hne : items.isEmpty = false := List.isEmpty_eq_false_iff.mpr (List.ne_nil_of_mem h)
  have hitem : i.name.pieces <:+: i.pieces :=
    infix_append_of_infix_left (infix_append_of_infix_left infix_rfl)
  rw [orderPieces, hne]
  exact infix_cons (hitem.trans (Piece.infix_separated ", " (List.mem_map_of_mem h)))

theorem Select.infix_pieces {s : Select} {x : Expr} (h : x ∈ s.operands) :
    x.pieces <:+: s.pieces := by
  obtain ⟨distinct, items, source, joins, filter, order, paging, lock⟩ := s
  simp only [operands, List.mem_append] at h
  rcases h with ((hitem | hjoin) | hfilter) | horder
  · obtain ⟨i, hi, hx⟩ := List.mem_flatMap.mp hitem
    exact (SelectItem.infix_pieces hx).trans (infix_item hi filter)
  · obtain ⟨j, hj, hx⟩ := List.mem_flatMap.mp hjoin
    exact (Condition.infix_pieces hx).trans (infix_join hj filter)
  · simp only [pieces]
    iterate 3 refine infix_append_of_infix_left ?_
    exact infix_append_of_infix_right (Condition.infix_where hfilter)
  · obtain ⟨i, hi, rfl⟩ := List.mem_map.mp horder
    simp only [pieces]
    iterate 2 refine infix_append_of_infix_left ?_
    exact infix_append_of_infix_right (infix_orderPieces hi)

theorem SetItem.infix_pieces {i : SetItem} {x : Expr} (h : x ∈ i.operands)
    (style : IncomingStyle) : x.pieces <:+: i.pieces style := by
  obtain ⟨target, source⟩ := i
  cases source with
  | incoming c => exact absurd h List.not_mem_nil
  | expr e =>
    rw [List.mem_singleton.mp h]
    exact infix_cons (infix_cons infix_rfl)

theorem SetItem.infix_setPieces {items : List SetItem} {i : SetItem} (h : i ∈ items)
    (style : IncomingStyle) : i.pieces style <:+: setPieces style items :=
  Piece.infix_separated ", " (List.mem_map_of_mem h)

theorem Update.infix_item {u : Update} {i : SetItem} (h : i ∈ u.items) :
    i.pieces .qualified <:+: u.pieces :=
  infix_append_of_infix_left (infix_append_of_infix_right
    (infix_cons (SetItem.infix_setPieces h .qualified)))

theorem Update.infix_condition {table : Table} {items : List SetItem} {c : Condition}
    {cs : List Condition} (h : c ∈ cs) :
    c.pieces <:+: (Update.mk table items (Condition.conjunction? cs)).pieces :=
  infix_append_of_infix_right (Condition.infix_wherePieces h)

theorem Delete.infix_condition {table : Table} {c : Condition} {cs : List Condition} (h : c ∈ cs) :
    c.pieces <:+: (Delete.mk table (Condition.conjunction? cs)).pieces :=
  infix_append_of_infix_right (Condition.infix_wherePieces h)

theorem ConflictClause.infix_onConflict {items : List SetItem} {i : SetItem} (h : i ∈ items)
    (keys : List Column) : i.pieces .qualified <:+: (onConflict keys items).pieces := by
  have hne : items.isEmpty = false := List.isEmpty_eq_false_iff.mpr (List.ne_nil_of_mem h)
  simp only [pieces, hne, Bool.false_eq_true, if_false]
  exact infix_append_of_infix_right (infix_cons (SetItem.infix_setPieces h .qualified))

theorem ConflictClause.infix_onDuplicateKey {items : List SetItem} {i : SetItem} (h : i ∈ items) :
    i.pieces .valuesFunction <:+: (onDuplicateKey items).pieces :=
  infix_cons (SetItem.infix_setPieces h .valuesFunction)

theorem Insert.infix_conflict (ignoring : Bool) (table : Table) (columns : List Column)
    (rows : List (List Bound)) (clause : ConflictClause) :
    clause.pieces <:+: (Insert.mk ignoring table columns rows (some clause)).pieces :=
  infix_append_of_infix_right infix_rfl

theorem Merge.infix_item {m : Merge} {i : SetItem} (h : i ∈ m.items) :
    i.pieces .qualified <:+: m.pieces := by
  have hne : m.items.isEmpty = false := List.isEmpty_eq_false_iff.mpr (List.ne_nil_of_mem h)
  simp only [pieces, hne, Bool.false_eq_true, if_false]
  iterate 3 refine infix_append_of_infix_left ?_
  exact infix_append_of_infix_right (infix_cons (infix_cons (SetItem.infix_setPieces h .qualified)))

theorem Merge.infix_key {m : Merge} {n : ColumnName} (h : n ∈ m.keys) : n.pieces <:+: m.pieces := by
  have hkey : n.pieces <:+: keyPieces n := infix_append_of_infix_left infix_rfl
  unfold pieces
  iterate 4 refine infix_append_of_infix_left ?_
  exact infix_append_of_infix_right
    (infix_cons (hkey.trans (Piece.infix_separated " and " (List.mem_map_of_mem h))))

theorem WriteBody.infix_pieces {b : WriteBody} {x : Expr} (h : x ∈ b.operands) :
    x.pieces <:+: b.pieces := by
  cases b with
  | insert i =>
    obtain ⟨ignoring, table, columns, rows, conflict⟩ := i
    cases conflict with
    | none => exact absurd h List.not_mem_nil
    | some clause =>
      refine List.IsInfix.trans ?_ (Insert.infix_conflict ignoring table columns rows clause)
      cases clause with
      | onConflict keys items =>
        obtain ⟨i, hi, hx⟩ := List.mem_flatMap.mp h
        exact (SetItem.infix_pieces hx _).trans (ConflictClause.infix_onConflict hi keys)
      | onDuplicateKey items =>
        obtain ⟨i, hi, hx⟩ := List.mem_flatMap.mp h
        exact (SetItem.infix_pieces hx _).trans (ConflictClause.infix_onDuplicateKey hi)
  | merge m =>
    rcases List.mem_append.mp h with hkey | hitem
    · obtain ⟨n, hn, rfl⟩ := List.mem_map.mp hkey
      exact Merge.infix_key hn
    · obtain ⟨i, hi, hx⟩ := List.mem_flatMap.mp hitem
      exact (SetItem.infix_pieces hx _).trans (Merge.infix_item hi)

theorem Command.infix_pieces {c : Command} {x : Expr} (h : x ∈ c.operands) :
    x.pieces <:+: c.pieces := by
  cases c with
  | select s => exact Select.infix_pieces h
  | update u =>
    rcases List.mem_append.mp h with hitem | hfilter
    · obtain ⟨i, hi, hx⟩ := List.mem_flatMap.mp hitem
      exact (SetItem.infix_pieces hx _).trans (Update.infix_item hi)
    · exact infix_append_of_infix_right (Condition.infix_where hfilter)
  | delete d => exact infix_append_of_infix_right (Condition.infix_where h)
  | write w => exact infix_append_of_infix_left (WriteBody.infix_pieces h)

end Sql

end SqlCompose
