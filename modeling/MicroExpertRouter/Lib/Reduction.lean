import Mathlib.Data.List.Perm.Basic

/-! A parallel reduction: results of tasks and identity elements, combined in some order and
bracketing. -/
namespace MicroExpertRouter

inductive Reduction
  | identity
  | task (index : ℕ)
  | combine (left right : Reduction)

namespace Reduction

/-- The tasks whose results are combined. -/
def tasks : Reduction → List ℕ
  | identity => []
  | task index => [index]
  | combine left right => left.tasks++right.tasks

variable {β : Type}

def eval (unit : β) (op : β → β → β) (result : ℕ → β) : Reduction → β
  | identity => unit
  | task index => result index
  | combine left right => op (left.eval unit op result) (right.eval unit op result)

/-- What the results say about their tasks, the reduction says about all of them, when the
operation joins it. -/
theorem eval_spec {unit : β} {op : β → β → β} {result : ℕ → β} {Says : List ℕ → β → Prop}
    (hunit : Says [] unit) (htask : ∀ index, Says [index] (result index))
    (hop : ∀ xs ys a b, Says xs a → Says ys b → Says (xs++ys) (op a b)) (self : Reduction) :
    Says self.tasks (self.eval unit op result) := by
  induction self with
  | identity => exact hunit
  | task index => exact htask index
  | combine left right hleft hright => exact hop _ _ _ _ hleft hright

end Reduction

/-- How the results of any number of tasks are combined: each of them once. -/
structure Schedule where
  reduction : ℕ → Reduction
  complete : ∀ count, ((reduction count).tasks).Perm (List.range count)

namespace Schedule

/-- The results one after the other. -/
def inOrder : Schedule where
  reduction count := (List.range count).foldr (fun index rest => .combine (.task index) rest) .identity
  complete count := by
    have h (xs : List ℕ) : (xs.foldr (fun index rest => Reduction.combine (.task index) rest)
        .identity).tasks = xs := by
      induction xs with
      | nil => rfl
      | cons x xs ih => exact congrArg (x::·) ih
    rw [h]

end Schedule
end MicroExpertRouter
