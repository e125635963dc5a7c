import SqlCompose.Compose.Select

/-! What is collected from conditions part by part, such as their operands or the values that they
bind. It does not depend on how the conditions are joined. -/

namespace SqlCompose.Sql.Condition

/-- Connectives and parentheses add nothing to what their parts give. -/
structure Collects {α : Type} (f : Condition → List α) : Prop where
  constant (truth : Bool) : f (.constant truth) = []
  chain (op : Connective) (cs : List Condition) : f (.chain op cs) = cs.flatMap f
  parenthesized (c : Condition) : f (.parenthesized c) = f c
  not (c : Condition) : f (.not c) = f c

namespace Collects

variable {α : Type} {f : Condition → List α}

theorem group (h : Collects f) (op : Connective) (cs : List Condition) :
    f (Condition.group op cs) = cs.flatMap f := by
  match cs with
  | [] => exact h.constant _
  | [c] => rw [Condition.group, List.flatMap_singleton]
  | c :: d :: cs => exact (h.parenthesized _).trans (h.chain op _)

theorem negation (h : Collects f) (cs : List Condition) :
    f (Condition.negation cs) = cs.flatMap f := by
  cases cs with
  | nil => exact h.constant false
  | cons c cs => exact (h.not _).trans ((h.parenthesized _).trans (h.chain .and _))

theorem conjunction? (h : Collects f) (cs : List Condition) :
    (Condition.conjunction? cs).toList.flatMap f = cs.flatMap f := by
  cases cs with
  | nil => rfl
  | cons c cs => exact (List.flatMap_singleton _ _).trans (h.chain .and _)

theorem conjunction_getD (h : Collects f) (cs : List Condition) (truth : Bool) :
    f ((Condition.conjunction? cs).getD (.constant truth)) = cs.flatMap f := by
  cases cs with
  | nil => exact h.constant truth
  | cons c cs => exact h.chain .and _

theorem expandedRows (h : Collects f) (negated : Bool) (cs : List Condition) :
    f (Condition.expandedRows negated cs) = cs.flatMap f := by
  have hrows : f (.parenthesized (.chain .or cs)) = cs.flatMap f :=
    (h.parenthesized _).trans (h.chain .or cs)
  cases negated with
  | false => exact hrows
  | true => exact (h.not _).trans hrows

end Collects

end SqlCompose.Sql.Condition
