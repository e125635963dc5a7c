import Mathlib.Data.List.Forall2
import SqlCompose.Build
import SqlCompose.Proofs.Sql.Pieces

/-! Results that agree: the same error, or trees that print the same pieces once the values of the
parameters are taken away. Such trees have the same SQL. -/

namespace SqlCompose

/-- Both results are one error, or both succeed with related values. -/
inductive SameOutcome {ε α β : Type} (R : α → β → Prop) : Except ε α → Except ε β → Prop where
  | error (e : ε) : SameOutcome R (.error e) (.error e)
  | ok {a : α} {b : β} (h : R a b) : SameOutcome R (.ok a) (.ok b)

namespace SameOutcome

variable {ε α β γ δ : Type} {R : α → β → Prop} {S : γ → δ → Prop}

theorem refl {R : α → α → Prop} (h : ∀ a, R a a) (x : Except ε α) : SameOutcome R x x := by
  cases x with
  | error e => exact .error e
  | ok a => exact .ok (h a)

theorem bind {x : Except ε α} {y : Except ε β} {f : α → Except ε γ} {g : β → Except ε δ}
    (h : SameOutcome R x y) (hf : ∀ a b, R a b → SameOutcome S (f a) (g b)) :
    SameOutcome S (x >>= f) (y >>= g) := by
  cases h with
  | error e => exact .error e
  | ok h => exact hf _ _ h

theorem bind_left {x : Except ε α} {f : α → Except ε γ} {g : α → Except ε δ}
    (hf : ∀ a, SameOutcome S (f a) (g a)) : SameOutcome S (x >>= f) (x >>= g) :=
  (refl (fun _ => rfl) x).bind fun a _ hab => hab ▸ hf a

theorem map {x : Except ε α} {y : Except ε β} {f : α → γ} {g : β → δ} (h : SameOutcome R x y)
    (hf : ∀ a b, R a b → S (f a) (g b)) : SameOutcome S (f <$> x) (g <$> y) := by
  cases h with
  | error e => exact .error e
  | ok h => exact .ok (hf _ _ h)

theorem check {c : Prop} [Decidable c] {e : ε} {f : PUnit → Except ε γ} {g : PUnit → Except ε δ}
    {x : Except ε γ} {y : Except ε δ} (h : SameOutcome S x y) :
    SameOutcome S (if c then throw e >>= f else x) (if c then throw e >>= g else y) := by
  by_cases hc : c
  · simp only [hc, if_true]
    exact .error e
  · simp only [hc, if_false]
    exact h

theorem mapM {ι κ : Type} {f : ι → Except ε α} {g : κ → Except ε β} {xs : List ι} {ys : List κ}
    (h : List.Forall₂ (fun x y => SameOutcome R (f x) (g y)) xs ys) :
    SameOutcome (List.Forall₂ R) (xs.mapM f) (ys.mapM g) := by
  induction h with
  | nil => exact .ok .nil
  | cons hxy _ ih =>
    rw [List.mapM_cons, List.mapM_cons]
    exact hxy.bind fun a b hab => ih.bind fun as bs habs => .ok (.cons hab habs)

/-- Results that agree look the same to whoever sees only what related values share. -/
theorem map_eq {x : Except ε α} {y : Except ε β} {f : α → γ} {g : β → γ}
    (h : SameOutcome R x y) (hf : ∀ a b, R a b → f a = g b) : x.map f = y.map g := by
  cases h with
  | error e => rfl
  | ok h => exact congrArg Except.ok (hf _ _ h)

theorem trans {T : α → γ → Prop} {U : β → γ → Prop} {x : Except ε α} {y : Except ε β}
    {z : Except ε γ} (hxy : SameOutcome R x y) (hyz : SameOutcome U y z)
    (h : ∀ a b c, R a b → U b c → T a c) : SameOutcome T x z := by
  cases hxy with
  | error e =>
    cases hyz with
    | error => exact .error e
  | ok hab =>
    cases hyz with
    | ok hbc => exact .ok (h _ _ _ hab hbc)

theorem symm {T : β → α → Prop} {x : Except ε α} {y : Except ε β} (h : SameOutcome R x y)
    (hT : ∀ a b, R a b → T b a) : SameOutcome T y x := by
  cases h with
  | error e => exact .error e
  | ok h => exact .ok (hT _ _ h)

end SameOutcome

namespace Piece

/-- The piece without the value of a parameter, whose type stays. -/
def hollow : Piece → Piece
  | .parameter b => .parameter (.null b.type)
  | .text t => .text t
  | .name i => .name i

/-- The pieces differ in the values of their parameters at most. -/
def Same (ps qs : List Piece) : Prop := ps.map hollow = qs.map hollow

theorem sqlAfter_hollow (d : Dialect) (count : Nat) (ps : List Piece) :
    sqlAfter d count (ps.map hollow) = sqlAfter d count ps := by
  induction ps generalizing count with
  | nil => rfl
  | cons p ps ih => cases p <;> simp [hollow, sqlAfter, ih]

theorem values_hollow (ps : List Piece) :
    values (ps.map hollow) = (values ps).map fun b => .null b.type := by
  induction ps with
  | nil => rfl
  | cons p ps ih => cases p <;> simp [hollow, values, ih]

namespace Same

theorem refl (ps : List Piece) : Same ps ps := rfl

theorem append {ps qs ps' qs' : List Piece} (h : Same ps ps') (h' : Same qs qs') :
    Same (ps ++ qs) (ps' ++ qs') := by
  simp only [Same, List.map_append] at *
  rw [h, h']

theorem cons (p : Piece) {ps ps' : List Piece} (h : Same ps ps') : Same (p :: ps) (p :: ps') :=
  append (refl [p]) h

theorem enclosed {ps ps' : List Piece} (h : Same ps ps') :
    Same (Piece.enclosed ps) (Piece.enclosed ps') := (h.append (refl _)).cons _

theorem separated (s : String) {α β : Type} {f : α → List Piece} {g : β → List Piece} {xs : List α}
    {ys : List β} (h : List.Forall₂ (fun x y => Same (f x) (g y)) xs ys) :
    Same (Piece.separated s (xs.map f)) (Piece.separated s (ys.map g)) := by
  have hparts : (xs.map f).map (List.map hollow) = (ys.map g).map (List.map hollow) := by
    induction h with
    | nil => rfl
    | cons hxy _ ih =>
      simp only [Same, List.map_cons] at *
      rw [hxy, ih]
  rw [Same, map_separated, map_separated, hparts]

theorem flatten {α β : Type} {f : α → List Piece} {g : β → List Piece} {xs : List α}
    {ys : List β} (h : List.Forall₂ (fun x y => Same (f x) (g y)) xs ys) :
    Same (xs.map f).flatten (ys.map g).flatten := by
  induction h with
  | nil => rfl
  | cons hxy _ ih => exact append hxy ih

theorem sql_eq {ps qs : List Piece} (h : Same ps qs) (d : Dialect) (count : Nat) :
    sqlAfter d count ps = sqlAfter d count qs := by
  rw [← sqlAfter_hollow, h, sqlAfter_hollow]

theorem length_values_eq {ps qs : List Piece} (h : Same ps qs) :
    (values ps).length = (values qs).length := by
  have hv := congrArg (List.length ∘ values) h
  simpa [values_hollow] using hv

end Same

end Piece

namespace Sql

open Piece (Same)

def Expr.Same (e f : Expr) : Prop := Piece.Same e.pieces f.pieces

def ExprPair.Same (e f : ExprPair) : Prop := Piece.Same e.pieces f.pieces

def Condition.Same (c d : Condition) : Prop := Piece.Same c.pieces d.pieces

def SelectItem.Same (i j : SelectItem) : Prop := Piece.Same i.pieces j.pieces

def Join.Same (i j : Join) : Prop := Piece.Same i.pieces j.pieces

def Select.Same (s t : Select) : Prop := Piece.Same s.pieces t.pieces

def SetItem.Same (i j : SetItem) : Prop := ∀ style, Piece.Same (i.pieces style) (j.pieces style)

def WriteBody.Same (b c : WriteBody) : Prop := Piece.Same b.pieces c.pieces

theorem ExprPair.Same.mk {a a' b b' : Expr} (ha : a.Same a') (hb : b.Same b') :
    ExprPair.Same ⟨a, b⟩ ⟨a', b'⟩ := by
  simp only [ExprPair.Same, pieces, Piece.separated_cons_cons, Piece.separated_singleton]
  exact (Piece.Same.append ha (.cons _ hb)).enclosed

namespace Condition

variable {cs ds : List Condition}

theorem Same.chain (op : Connective) (h : List.Forall₂ Condition.Same cs ds) :
    (Condition.chain op cs).Same (.chain op ds) := by
  simp only [Condition.Same, pieces, eachPieces_eq_map]
  exact .separated _ h

theorem Same.parenthesized {c d : Condition} (h : c.Same d) :
    (Condition.parenthesized c).Same (.parenthesized d) := by
  simp only [Condition.Same, pieces]
  exact Piece.Same.enclosed h

theorem Same.not {c d : Condition} (h : c.Same d) : (Condition.not c).Same (.not d) := by
  simp only [Condition.Same, pieces]
  exact Piece.Same.cons _ h

theorem Same.group (op : Connective) (h : List.Forall₂ Condition.Same cs ds) :
    (Condition.group op cs).Same (.group op ds) := by
  cases h with
  | nil => rfl
  | cons hc hcs =>
    cases hcs with
    | nil => exact hc
    | cons hd hds => exact (Same.chain op (.cons hc (.cons hd hds))).parenthesized

theorem Same.negation (h : List.Forall₂ Condition.Same cs ds) :
    (Condition.negation cs).Same (.negation ds) := by
  cases h with
  | nil => rfl
  | cons hc hcs => exact (Same.chain .and (.cons hc hcs)).parenthesized.not

theorem Same.wherePieces (h : List.Forall₂ Condition.Same cs ds) :
    Piece.Same (Condition.wherePieces (conjunction? cs)) (Condition.wherePieces (conjunction? ds)) := by
  cases h with
  | nil => rfl
  | cons hc hcs =>
    simp only [conjunction?, Condition.wherePieces]
    exact Piece.Same.cons _ (Same.chain .and (.cons hc hcs))

theorem Same.conjunction_getD (truth : Bool) (h : List.Forall₂ Condition.Same cs ds) :
    ((conjunction? cs).getD (.constant truth)).Same ((conjunction? ds).getD (.constant truth)) := by
  cases h with
  | nil => rfl
  | cons hc hcs => exact Same.chain .and (.cons hc hcs)

theorem Same.expandedRows (negated : Bool) (h : List.Forall₂ Condition.Same cs ds) :
    (Condition.expandedRows negated cs).Same (.expandedRows negated ds) := by
  cases negated with
  | false => exact (Same.chain .or h).parenthesized
  | true => exact (Same.chain .or h).parenthesized.not

end Condition

theorem Select.Same.mk {distinct : Bool} {items items' : List SelectItem} {source : TableItem}
    {joins joins' : List Join} {conditions conditions' : List Condition}
    {order : List OrderItem} {paging : Paging} {lock : Option LockWait}
    (hitems : List.Forall₂ SelectItem.Same items items')
    (hjoins : List.Forall₂ Join.Same joins joins')
    (hconditions : List.Forall₂ Condition.Same conditions conditions') :
    Select.Same
      ⟨distinct, items, source, joins, Condition.conjunction? conditions, order, paging, lock⟩
      ⟨distinct, items', source, joins', Condition.conjunction? conditions', order, paging,
        lock⟩ := by
  simp only [Select.Same, pieces, SelectItem.eachPieces_eq_map, Join.eachPieces_eq_map]
  have hhead := (Piece.Same.refl (.text "select " :: if distinct then [.text "distinct "] else []))
    |>.append (.separated ", " hitems)
  have hfrom := (hhead.append (.refl (.text " from " :: source.pieces))).append (.flatten hjoins)
  exact (((hfrom.append (Condition.Same.wherePieces hconditions)).append (.refl _)).append
    (.refl _)).append (.refl _)

theorem SetItem.Same.setPieces {items items' : List SetItem}
    (h : List.Forall₂ SetItem.Same items items') (style : IncomingStyle) :
    Piece.Same (Sql.setPieces style items) (Sql.setPieces style items') :=
  .separated ", " (h.imp fun _ _ hi => hi style)

theorem Update.same {table : Table} {items items' : List SetItem} {f f' : Option Condition}
    (hitems : List.Forall₂ SetItem.Same items items')
    (hf : Piece.Same (Condition.wherePieces f) (Condition.wherePieces f')) :
    Piece.Same (Update.pieces ⟨table, items, f⟩) (Update.pieces ⟨table, items', f'⟩) :=
  ((Piece.Same.refl _).append ((SetItem.Same.setPieces hitems .qualified).cons _)).append hf

theorem Delete.same {table : Table} {f f' : Option Condition}
    (hf : Piece.Same (Condition.wherePieces f) (Condition.wherePieces f')) :
    Piece.Same (Delete.pieces ⟨table, f⟩) (Delete.pieces ⟨table, f'⟩) :=
  (Piece.Same.refl _).append hf

/-- Rows of parameters whose types agree one by one. -/
def SameRows : List (List Bound) → List (List Bound) → Prop :=
  List.Forall₂ (List.Forall₂ fun b c => b.type = c.type)

theorem SameRows.rowPieces {rows rows' : List (List Bound)} (h : SameRows rows rows') :
    Piece.Same (Sql.rowPieces rows) (Sql.rowPieces rows') := by
  refine .separated ", " (h.imp fun row row' hrow => .enclosed (.separated ", " (hrow.imp ?_)))
  intro b c hbc
  simp [Piece.Same, Piece.hollow, hbc]

theorem SetItem.Same.isEmpty_eq {items items' : List SetItem}
    (h : List.Forall₂ SetItem.Same items items') : items.isEmpty = items'.isEmpty := by
  cases h with
  | nil => rfl
  | cons _ _ => rfl

theorem ConflictClause.Same.onConflict {items items' : List SetItem} (keys : List Column)
    (h : List.Forall₂ SetItem.Same items items') :
    Piece.Same (ConflictClause.onConflict keys items).pieces
      (ConflictClause.onConflict keys items').pieces := by
  simp only [ConflictClause.pieces, SetItem.Same.isEmpty_eq h]
  refine (Piece.Same.refl _).append ?_
  by_cases hempty : items'.isEmpty = true
  · simp only [hempty, if_true]
    exact .refl _
  · simp only [hempty, if_false, Bool.false_eq_true]
    exact (SetItem.Same.setPieces h .qualified).cons _

theorem ConflictClause.Same.onDuplicateKey {items items' : List SetItem}
    (h : List.Forall₂ SetItem.Same items items') :
    Piece.Same (ConflictClause.onDuplicateKey items).pieces
      (ConflictClause.onDuplicateKey items').pieces :=
  (SetItem.Same.setPieces h .valuesFunction).cons _

theorem Insert.same {ignoring : Bool} {table : Table} {columns : List Column}
    {rows rows' : List (List Bound)} {conflict conflict' : Option ConflictClause}
    (hrows : SameRows rows rows')
    (hconflict : Option.Rel (fun c c' => Piece.Same c.pieces c'.pieces) conflict conflict') :
    Piece.Same (Insert.pieces ⟨ignoring, table, columns, rows, conflict⟩)
      (Insert.pieces ⟨ignoring, table, columns, rows', conflict'⟩) := by
  refine ((Piece.Same.refl _).append (hrows.rowPieces.cons _)).append ?_
  cases hconflict with
  | some h => exact h
  | none => exact .refl _

theorem Merge.same {table : Table} {source columns : List Column}
    {rows rows' : List (List Bound)} {keys : List ColumnName} {items items' : List SetItem}
    {terminated : Bool} (hrows : SameRows rows rows')
    (hitems : List.Forall₂ SetItem.Same items items') :
    Piece.Same (Merge.pieces ⟨table, source, rows, keys, items, columns, terminated⟩)
      (Merge.pieces ⟨table, source, rows', keys, items', columns, terminated⟩) := by
  simp only [Merge.pieces, SetItem.Same.isEmpty_eq hitems]
  have hmatched : Piece.Same
      (if items'.isEmpty then [] else
        .text " when matched then update set " :: Sql.setPieces .qualified items)
      (if items'.isEmpty then [] else
        .text " when matched then update set " :: Sql.setPieces .qualified items') := by
    by_cases hempty : items'.isEmpty = true
    · simp only [hempty, if_true]
      exact .refl _
    · simp only [hempty, if_false, Bool.false_eq_true]
      exact (SetItem.Same.setPieces hitems .qualified).cons _
  have hhead := ((Piece.Same.refl (.text "merge into " :: tablePieces table)).append
    (hrows.rowPieces.cons (.text " using (values "))).append
    (.refl (.text ") as excluded " :: columnList source))
  exact ((((hhead.append (.refl _)).append (hmatched.cons _)).append (.refl _)).append
    (.refl _)).append (.refl _)

theorem Write.same {body body' : WriteBody} (h : body.Same body')
    (returning : Option (List Column)) :
    Piece.Same (Write.pieces ⟨body, returning⟩) (Write.pieces ⟨body', returning⟩) :=
  h.append (.refl _)

end Sql

end SqlCompose
