import Mathlib.Tactic

/-! Spans in a row that tile an interval: each starts where the one before it ends. -/
namespace MicroExpertRouter.Tiling
variable {α : Type} (start count : α → ℕ)

/-- The spans are nonempty, consecutive, begin at `low` and end at `high`. -/
def Tiles : ℕ → List α → ℕ → Prop
  | low, [], high => low = high
  | low, span::spans, high => start span = low ∧ 0<count span ∧ Tiles (low+count span) spans high

def covers (place : ℕ) (span : α) : Bool :=
  decide (start span ≤ place ∧ place<start span+count span)

variable {start count}

lemma Tiles.snoc {spans : List α} {span : α} {low high : ℕ}
    (h : Tiles start count low spans high) (hstart : start span = high) (hcount : 0<count span) :
    Tiles start count low (spans++[span]) (high+count span) := by
  induction spans generalizing low with
  | nil =>
    obtain rfl : low = high := h
    exact ⟨hstart,hcount,rfl⟩
  | cons first spans ih =>
    obtain ⟨hfirst,hpos,hrest⟩ := h
    exact ⟨hfirst,hpos,ih hrest⟩

lemma Tiles.not_covers {spans : List α} {low high place : ℕ}
    (h : Tiles start count low spans high) (hplace : place<low) :
    spans.countP (covers start count place) = 0 := by
  induction spans generalizing low with
  | nil => rfl
  | cons span spans ih =>
    obtain ⟨rfl,-,hrest⟩ := h
    rw [List.countP_cons, ih hrest (by omega)]
    simp [covers, Nat.not_le.mpr hplace]

/-- Every place of a tiled interval lies in exactly one span. -/
theorem Tiles.countP_covers {spans : List α} {low high place : ℕ}
    (h : Tiles start count low spans high) (hlow : low ≤ place) (hhigh : place<high) :
    spans.countP (covers start count place) = 1 := by
  induction spans generalizing low with
  | nil =>
    obtain rfl : low = high := h
    omega
  | cons span spans ih =>
    obtain ⟨rfl,-,hrest⟩ := h
    rw [List.countP_cons]
    by_cases hfirst : place<start span+count span
    · rw [hrest.not_covers hfirst]
      simp [covers, hlow, hfirst]
    · rw [ih hrest (by omega)]
      simp [covers, hfirst]

end MicroExpertRouter.Tiling
