import Mathlib.Data.List.Forall2
import SqlCompose.Proofs.Compose.Commands
import SqlCompose.Proofs.Compose.Flaws
import SqlCompose.Proofs.Sql.Pieces

/-! Two computations of one thing under different numbers: they fail with one error, or what they
give prints the same pieces. Composing finds no fault that is left to the calls of an insert. -/

namespace SqlCompose

/-- What calls out of place are refused with, and nothing else. -/
def Error.Drafting (e : Error) : Prop := ∃ call, e = .validation (.misuse call)

/-- Both computations fail with one error of composing, or both succeed with related results. -/
inductive Recomposed {α β : Type} (R : α → β → Prop) : Except Error α → Except Error β → Prop where
  | error {e : Error} (h : ¬e.Drafting) : Recomposed R (.error e) (.error e)
  | ok {a : α} {b : β} (h : R a b) : Recomposed R (.ok a) (.ok b)

namespace Recomposed

variable {α β γ δ : Type} {R : α → β → Prop} {S : γ → δ → Prop}

theorem bind {x : Except Error α} {y : Except Error β} {f : α → Except Error γ}
    {g : β → Except Error δ} (h : Recomposed R x y) (hf : ∀ a b, R a b → Recomposed S (f a) (g b)) :
    Recomposed S (x >>= f) (y >>= g) := by
  cases h with
  | error he => exact .error he
  | ok hab => exact hf _ _ hab

theorem imp {S : α → β → Prop} {x : Except Error α} {y : Except Error β} (h : Recomposed R x y)
    (hS : ∀ a b, R a b → S a b) : Recomposed S x y := by
  cases h with
  | error he => exact .error he
  | ok hab => exact .ok (hS _ _ hab)

theorem map {x : Except Error α} {y : Except Error β} {f : α → γ} {g : β → δ}
    (h : Recomposed R x y) (hf : ∀ a b, R a b → S (f a) (g b)) :
    Recomposed S (f <$> x) (g <$> y) := by
  cases h with
  | error he => exact .error he
  | ok hab => exact .ok (hf _ _ hab)

theorem check {c c' : Prop} [Decidable c] [Decidable c'] {e : Error} {f : PUnit → Except Error α}
    {g : PUnit → Except Error β} {x : Except Error α} {y : Except Error β} (hc : c ↔ c')
    (he : ¬e.Drafting) (h : Recomposed R x y) :
    Recomposed R (if c then throw e >>= f else x) (if c' then throw e >>= g else y) := by
  by_cases hc' : c'
  · rw [if_pos hc', if_pos (hc.mpr hc')]
    exact .error he
  · rw [if_neg hc', if_neg fun h => hc' (hc.mp h)]
    exact h

theorem mapM {ι κ : Type} {f : ι → Except Error α} {g : κ → Except Error β} {xs : List ι}
    {ys : List κ} (h : List.Forall₂ (fun x y => Recomposed R (f x) (g y)) xs ys) :
    Recomposed (List.Forall₂ R) (xs.mapM f) (ys.mapM g) := by
  induction h with
  | nil => exact .ok .nil
  | cons hxy _ ih =>
    rw [List.mapM_cons, List.mapM_cons]
    exact hxy.bind fun a b hab => ih.bind fun as bs habs => .ok (.cons hab habs)

theorem mapM_map {ι κ : Type} {f : ι → Except Error α} {g : κ → Except Error β} {h : ι → κ}
    {xs : List ι} (hx : ∀ x ∈ xs, Recomposed R (f x) (g (h x))) :
    Recomposed (List.Forall₂ R) (xs.mapM f) ((xs.map h).mapM g) :=
  mapM (List.forall₂_map_right_iff.mpr (List.forall₂_same.mpr hx))

theorem forM_map {ι κ : Type} {f : ι → Except Error Unit} {g : κ → Except Error Unit} {h : ι → κ}
    {xs : List ι} (hx : ∀ x ∈ xs, Recomposed Eq (f x) (g (h x))) :
    Recomposed Eq (xs.forM f) ((xs.map h).forM g) := by
  induction xs with
  | nil => exact .ok rfl
  | cons x xs ih =>
    have hrest := ih fun y hy => hx y (List.mem_cons_of_mem _ hy)
    exact (hx x List.mem_cons_self).bind fun _ _ _ => hrest

theorem eq {x y : Except Error α} (h : Recomposed Eq x y) : x = y := by
  cases h with
  | error _ => rfl
  | ok hab => rw [hab]

theorem not_drafting {x : Except Error α} {y : Except Error β} (h : Recomposed R x y) {e : Error}
    (he : x = .error e) : ¬e.Drafting := by
  cases h with
  | error hd => exact Except.error.inj he ▸ hd
  | ok _ => cases he

end Recomposed

theorem Setting.require_recomposed (σ : Setting) (has : Bool) (feature : Feature) :
    Recomposed Eq (σ.require has feature) (σ.require has feature) := by
  cases has with
  | true => exact .ok rfl
  | false => exact .error (by simp [Error.Drafting])

theorem Setting.lock_recomposed (σ : Setting) (mode : LockWait) :
    Recomposed Eq (σ.lock mode) (σ.lock mode) := by
  unfold lock
  cases σ.dialect.locking with
  | supported => exact .ok rfl
  | refusedBy name => exact .error (by simp [Error.Drafting])

theorem Error.Flaw.not_drafting {e : Error} (h : e.Flaw) : ¬e.Drafting := by
  cases h with
  | unknownTable table column => simp [Error.Drafting]
  | validation _ hcall => simpa [Error.Drafting] using hcall

/-- What fails for flaws of the query only fails with them under all numbers. -/
theorem FailsOnly.recomposed {α : Type} {x : Except Error α} (h : FailsOnly Error.Flaw x) :
    Recomposed Eq x x := by
  cases x with
  | error e => exact .error (h e rfl).not_drafting
  | ok a => exact .ok rfl

/-- The trees differ in numbers at most, which are never printed. -/
abbrev Printed {α : Type} (pieces : α → List Piece) (x y : α) : Prop := pieces x = pieces y

theorem Printed.map_eq {α : Type} {pieces : α → List Piece} {xs ys : List α}
    (h : List.Forall₂ (Printed pieces) xs ys) : xs.map pieces = ys.map pieces := by
  induction h with
  | nil => rfl
  | cons hxy _ ih => rw [List.map_cons, List.map_cons, hxy, ih]

namespace Sql.Condition

variable {cs ds : List Condition}

theorem pieces_chain (op : Connective) (h : List.Forall₂ (Printed pieces) cs ds) :
    (chain op cs).pieces = (chain op ds).pieces := by
  simp only [pieces, eachPieces_eq_map, Printed.map_eq h]

theorem pieces_group (op : Connective) (h : List.Forall₂ (Printed pieces) cs ds) :
    (group op cs).pieces = (group op ds).pieces := by
  cases h with
  | nil => rfl
  | cons hc hcs =>
    cases hcs with
    | nil => exact hc
    | cons hd hds =>
      have hchain := pieces_chain op (.cons hc (.cons hd hds))
      simp only [group, pieces] at hchain ⊢
      rw [hchain]

theorem pieces_negation (h : List.Forall₂ (Printed pieces) cs ds) :
    (negation cs).pieces = (negation ds).pieces := by
  cases h with
  | nil => rfl
  | cons hc hcs =>
    have hchain := pieces_chain .and (.cons hc hcs)
    simp only [negation, pieces] at hchain ⊢
    rw [hchain]

theorem pieces_expandedRows (negated : Bool) (h : List.Forall₂ (Printed pieces) cs ds) :
    (expandedRows negated cs).pieces = (expandedRows negated ds).pieces := by
  have hchain := pieces_chain .or h
  cases negated with
  | false =>
    simp only [expandedRows, pieces, Bool.false_eq_true, if_false] at hchain ⊢
    rw [hchain]
  | true =>
    simp only [expandedRows, pieces, if_true] at hchain ⊢
    rw [hchain]

theorem wherePieces_conjunction? (h : List.Forall₂ (Printed pieces) cs ds) :
    wherePieces (conjunction? cs) = wherePieces (conjunction? ds) := by
  cases h with
  | nil => rfl
  | cons hc hcs =>
    have hchain := pieces_chain .and (.cons hc hcs)
    simp only [conjunction?, wherePieces, hchain]

theorem pieces_conjunction?_getD (truth : Bool) (h : List.Forall₂ (Printed pieces) cs ds) :
    ((conjunction? cs).getD (.constant truth)).pieces =
      ((conjunction? ds).getD (.constant truth)).pieces := by
  cases h with
  | nil => rfl
  | cons hc hcs => exact pieces_chain .and (.cons hc hcs)

end Sql.Condition

end SqlCompose
