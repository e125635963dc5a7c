import SqlCompose.Sql.Printer

/-! The shape of printed lists: what each member writes, with one separator between neighbours. -/

namespace SqlCompose

namespace Piece

@[simp] theorem separated_nil (s : String) : separated s [] = [] := rfl

@[simp] theorem separated_singleton (s : String) (ps : List Piece) : separated s [ps] = ps :=
  List.intercalate_singleton

@[simp] theorem separated_cons_cons (s : String) (ps qs : List Piece) (rest : List (List Piece)) :
    separated s (ps :: qs :: rest) = ps ++ .text s :: separated s (qs :: rest) := by
  simp [separated, List.intercalate_cons_cons]

theorem separated_append (s : String) {xs ys : List (List Piece)} (hxs : xs ≠ []) (hys : ys ≠ []) :
    separated s (xs ++ ys) = separated s xs ++ .text s :: separated s ys := by
  induction xs with
  | nil => exact absurd rfl hxs
  | cons x xs ih =>
    cases xs with
    | nil =>
      obtain ⟨y, ys, rfl⟩ := List.exists_cons_of_ne_nil hys
      simp
    | cons x' xs =>
      have hrest := ih (List.cons_ne_nil _ _)
      rw [List.cons_append, List.cons_append, separated_cons_cons, separated_cons_cons,
        ← List.cons_append, hrest, List.append_assoc, List.cons_append]

/-- What holds of nothing and of two lists around a separator holds of separated lists. -/
theorem separated_induction {P : List Piece → Prop} {s : String} (hnil : P [])
    (hjoin : ∀ ps qs, P ps → P qs → P (ps ++ .text s :: qs)) {parts : List (List Piece)}
    (h : ∀ ps ∈ parts, P ps) : P (separated s parts) := by
  induction parts with
  | nil => exact hnil
  | cons ps parts ih =>
    have hps := h ps List.mem_cons_self
    cases parts with
    | nil => simpa using hps
    | cons qs parts =>
      rw [separated_cons_cons]
      exact hjoin ps _ hps (ih fun r hr => h r (List.mem_cons_of_mem _ hr))

/-- What maps pieces one by one passes through separators. -/
theorem map_separated (f : Piece → Piece) (s : String) (parts : List (List Piece)) :
    (separated s parts).map f = List.intercalate [f (.text s)] (parts.map (List.map f)) := by
  induction parts with
  | nil => rfl
  | cons ps rest ih =>
    cases rest with
    | nil => simp
    | cons qs rest =>
      rw [separated_cons_cons, List.map_append, List.map_cons, ih]
      simp [List.intercalate_cons_cons]

end Piece

namespace Sql

theorem Expr.eachPieces_eq_map (es : List Expr) : eachPieces es = es.map pieces := by
  induction es with
  | nil => rfl
  | cons e es ih => simp [eachPieces, ih]

theorem ExprPair.eachPieces_eq_map (ps : List ExprPair) : eachPieces ps = ps.map pieces := by
  induction ps with
  | nil => rfl
  | cons p ps ih => simp [eachPieces, ih]

theorem Condition.eachPieces_eq_map (cs : List Condition) : eachPieces cs = cs.map pieces := by
  induction cs with
  | nil => rfl
  | cons c cs ih => simp [eachPieces, ih]

theorem SelectItem.eachPieces_eq_map (is : List SelectItem) : eachPieces is = is.map pieces := by
  induction is with
  | nil => rfl
  | cons i is ih => simp [eachPieces, ih]

theorem Join.eachPieces_eq_map (js : List Join) : eachPieces js = js.map pieces := by
  induction js with
  | nil => rfl
  | cons j js ih => simp [eachPieces, ih]

/-- What stands before the where clause of a select. -/
def Select.openingPieces (distinct : Bool) (items : List SelectItem) (source : TableItem)
    (joins : List Join) : List Piece :=
  .text "select " :: (if distinct then [.text "distinct "] else []) ++
    Piece.separated ", " (items.map SelectItem.pieces) ++ .text " from " :: source.pieces ++
    (joins.map Join.pieces).flatten

/-- Without an order, paging and locking a select ends in its where clause. -/
theorem Select.pieces_eq_opening (distinct : Bool) (items : List SelectItem) (source : TableItem)
    (joins : List Join) (filter : Option Condition) :
    (Select.mk distinct items source joins filter [] (.limitOffset none none) none).pieces =
      openingPieces distinct items source joins ++ Condition.wherePieces filter := by
  simp [pieces, openingPieces, orderPieces, Paging.pieces, SelectItem.eachPieces_eq_map,
    Join.eachPieces_eq_map]

end Sql

end SqlCompose
