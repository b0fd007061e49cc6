import Mathlib.Tactic

/-! A table of cells that are filled once, each with the value a function has at its index. -/
namespace MicroExpertRouter.OnceTable
variable {α : Type}

/-- `get_or_init` of the cell at an index; without a cell the value is computed and not kept. -/
def getOrInit (cells : List (Option α)) (compute : ℕ → α) (index : ℕ) : α × List (Option α) :=
  match cells[index]? with
  | some (some value) => (value,cells)
  | some none => (compute index,cells.set index (some (compute index)))
  | none => (compute index,cells)

/-- What is filled holds the value of the function. -/
def Holds (cells : List (Option α)) (compute : ℕ → α) : Prop :=
  ∀ index value, cells[index]? = some (some value) → value = compute index

lemma holds_replicate (n : ℕ) (compute : ℕ → α) : Holds (List.replicate n none) compute := by
  intro index value h
  rw [List.getElem?_replicate] at h
  split_ifs at h
  cases Option.some.inj h

variable {cells : List (Option α)} {compute : ℕ → α}

/-- Filled or not, the value is that of the function. -/
theorem Holds.getOrInit_fst (h : Holds cells compute) (index : ℕ) :
    (getOrInit cells compute index).1 = compute index := by
  unfold getOrInit
  split
  case h_1 value hcell => exact h index value hcell
  case h_2 => rfl
  case h_3 => rfl

theorem Holds.getOrInit_snd (h : Holds cells compute) (index : ℕ) :
    Holds (getOrInit cells compute index).2 compute := by
  unfold getOrInit
  split
  case h_1 => exact h
  case h_2 =>
    intro other value hother
    rw [List.getElem?_set] at hother
    split_ifs at hother with heq hlt
    · exact heq ▸ (Option.some.inj (Option.some.inj hother)).symm
    · exact h other value hother
  case h_3 => exact h

end MicroExpertRouter.OnceTable
