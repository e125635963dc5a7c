import SqlCompose.Proofs.Payload.Agreement

/-! Results for two dialects. A construct that one of them lacks may refuse a query early, whatever
else is wrong with it. Without such a refusal the results are one error or agree. -/

namespace SqlCompose

theorem flatMap_eq_of_forall₂ {α β γ : Type} {f : α → List γ} {g : β → List γ} {xs : List α}
    {ys : List β} (h : List.Forall₂ (fun x y => f x = g y) xs ys) : xs.flatMap f = ys.flatMap g := by
  induction h with
  | nil => rfl
  | cons hxy _ ih => rw [List.flatMap_cons, List.flatMap_cons, hxy, ih]

/-- One of the results is that a construct is missing, or they agree. -/
inductive UpToSupport {α β : Type} (R : α → β → Prop) : Except Error α → Except Error β → Prop where
  | left {e : Error} (he : e.isUnsupported = true) (y : Except Error β) :
      UpToSupport R (.error e) y
  | right (x : Except Error α) {e : Error} (he : e.isUnsupported = true) :
      UpToSupport R x (.error e)
  | same {x : Except Error α} {y : Except Error β} (h : SameOutcome R x y) : UpToSupport R x y

namespace UpToSupport

variable {α β γ δ : Type} {R : α → β → Prop} {S : γ → δ → Prop}

theorem ok {a : α} {b : β} (h : R a b) : UpToSupport R (.ok a) (.ok b) := .same (.ok h)

theorem error (e : Error) : UpToSupport R (.error e) (.error e) := .same (.error e)

theorem refl {R : α → α → Prop} (h : ∀ a, R a a) (x : Except Error α) : UpToSupport R x x :=
  .same (.refl h x)

theorem bind {x : Except Error α} {y : Except Error β} {f : α → Except Error γ}
    {g : β → Except Error δ} (h : UpToSupport R x y)
    (hf : ∀ a b, R a b → UpToSupport S (f a) (g b)) : UpToSupport S (x >>= f) (y >>= g) := by
  cases h with
  | left he y => exact .left he _
  | right x he => exact .right _ he
  | same h =>
    cases h with
    | error e => exact .error e
    | ok hab => exact hf _ _ hab

theorem bind_left {x : Except Error α} {f : α → Except Error γ} {g : α → Except Error δ}
    (hf : ∀ a, x = .ok a → UpToSupport S (f a) (g a)) : UpToSupport S (x >>= f) (x >>= g) := by
  cases x with
  | error e => exact .error e
  | ok a => exact hf a rfl

theorem map {x : Except Error α} {y : Except Error β} {f : α → γ} {g : β → δ}
    (h : UpToSupport R x y) (hf : ∀ a b, R a b → S (f a) (g b)) :
    UpToSupport S (f <$> x) (g <$> y) := by
  cases h with
  | left he y => exact .left he _
  | right x he => exact .right _ he
  | same h => exact .same (h.map hf)

theorem check {c : Prop} [Decidable c] {e : Error} {f : PUnit → Except Error γ}
    {g : PUnit → Except Error δ} {x : Except Error γ} {y : Except Error δ}
    (h : UpToSupport S x y) :
    UpToSupport S (if c then throw e >>= f else x) (if c then throw e >>= g else y) := by
  by_cases hc : c
  · simp only [hc, if_true]
    exact .error e
  · simp only [hc, if_false]
    exact h

theorem mapM {ι κ : Type} {f : ι → Except Error α} {g : κ → Except Error β} {xs : List ι}
    {ys : List κ} (h : List.Forall₂ (fun x y => UpToSupport R (f x) (g y)) xs ys) :
    UpToSupport (List.Forall₂ R) (xs.mapM f) (ys.mapM g) := by
  induction h with
  | nil => exact .ok .nil
  | cons hxy _ ih =>
    rw [List.mapM_cons, List.mapM_cons]
    exact hxy.bind fun a b hab => ih.bind fun as bs habs => .ok (.cons hab habs)

theorem sameOutcome {x : Except Error α} {y : Except Error β} (h : UpToSupport R x y)
    (hx : ∀ e, x = .error e → e.isUnsupported = false)
    (hy : ∀ e, y = .error e → e.isUnsupported = false) : SameOutcome R x y := by
  cases h with
  | left he _ => exact absurd he (by simp [hx _ rfl])
  | right _ he => exact absurd he (by simp [hy _ rfl])
  | same h => exact h

end UpToSupport

section

variable {σ σ' : Setting}

/-- What either dialect may lack can fail in no other way. -/
theorem Setting.require_upToSupport (has has' : Bool) (feature : Feature) :
    UpToSupport (fun _ _ => True) (σ.require has feature) (σ'.require has' feature) := by
  cases has with
  | false => exact .left rfl _
  | true =>
    cases has' with
    | false => exact .right _ rfl
    | true => exact .ok trivial

theorem Setting.lock_upToSupport (mode : LockWait) :
    UpToSupport (fun _ _ => True) (σ.lock mode) (σ'.lock mode) := by
  unfold lock
  cases σ.dialect.locking with
  | refusedBy name => exact .left rfl _
  | supported =>
    cases σ'.dialect.locking with
    | refusedBy name => exact .right _ rfl
    | supported => exact .ok trivial

end

end SqlCompose
