import MicroExpertRouter.Lib.Machine

/-! Binary search for the last number of an interval that passes a test. The test may fail, and
then the search fails with it. -/
namespace MicroExpertRouter.Search
variable {ε : Type}

/-- The loop `while low < high`, which keeps the half of the interval that the upper middle
belongs to. Each turn shortens the interval, so that as many turns as it is long suffice. -/
def last (fits : ℕ → Except ε Bool) : ℕ → ℕ → ℕ → Except ε ℕ
  | 0, low, _ => .ok low
  | turns+1, low, high =>
    if low<high then do
      let middle := low+(high-low+1)/2
      if ← fits middle then last fits turns middle high else last fits turns low (middle-1)
    else .ok low

/-- The last number that passes, given that the numbers that pass come first. -/
structure IsLast (test : ℕ → Prop) (low high found : ℕ) : Prop where
  low_le : low ≤ found
  le_high : found ≤ high
  passes : low<found → test found
  fails : ∀ n, found<n → n ≤ high → ¬ test n

variable {fits : ℕ → Except ε Bool} {test : ℕ → Prop}

theorem last_spec {turns low high : ℕ}
    (hfits : ∀ n, low<n → n ≤ high → ∃ b, fits n = .ok b ∧ (b = true ↔ test n))
    (hdown : ∀ m n, low < m → m ≤ n → n ≤ high → test n → test m) (hle : low ≤ high)
    (hturns : high-low ≤ turns) :
    ∃ found, last fits turns low high = .ok found ∧ IsLast test low high found := by
  induction turns generalizing low high with
  | zero => exact ⟨low,rfl,le_rfl,hle,fun h => absurd h (lt_irrefl _),fun n hlt hn => by omega⟩
  | succ turns ih =>
    unfold last
    by_cases hlt : low<high
    swap
    · rw [if_neg hlt]
      exact ⟨low,rfl,le_rfl,hle,fun h => absurd h (lt_irrefl _),fun n hlt hn => by omega⟩
    rw [if_pos hlt]
    dsimp only
    obtain ⟨b,hb,htest⟩ := hfits (low+(high-low+1)/2) (by omega) (by omega)
    rw [hb]
    cases b with
    | true =>
      have hmiddle := htest.mp rfl
      obtain ⟨found,hfound,hlast⟩ := @ih (low+(high-low+1)/2) high
        (fun n hn => hfits n (by omega)) (fun m n hm => hdown m n (by omega)) (by omega) (by omega)
      refine ⟨found,hfound,by have := hlast.low_le; omega,hlast.le_high,fun _ => ?_,hlast.fails⟩
      rcases hlast.low_le.lt_or_eq with hlt | heq
      · exact hlast.passes hlt
      · rw [← heq]
        exact hmiddle
    | false =>
      have hmiddle : ¬ test (low+(high-low+1)/2) := fun h => by simpa using htest.mpr h
      obtain ⟨found,hfound,hlast⟩ := @ih low (low+(high-low+1)/2-1)
        (fun n hn hle => hfits n hn (by omega)) (fun m n hm hmn hn => hdown m n hm hmn (by omega))
        (by omega) (by omega)
      refine ⟨found,hfound,hlast.low_le,by have := hlast.le_high; omega,hlast.passes,
        fun n hn hle h => ?_⟩
      by_cases hshort : n ≤ low+(high-low+1)/2-1
      · exact hlast.fails n hn hshort h
      · exact hmiddle (hdown _ n (by omega) (by omega) hle h)

/-- With the first number passing, the search finds the greatest one that passes. -/
lemma IsLast.isGreatest {low high found : ℕ} (h : IsLast test low high found) (hlow : test low) :
    IsGreatest {n | low ≤ n ∧ n ≤ high ∧ test n} found := by
  refine ⟨⟨h.low_le,h.le_high,?_⟩,?_⟩
  · rcases h.low_le.lt_or_eq with hlt | rfl
    · exact h.passes hlt
    · exact hlow
  · rintro n ⟨-,hn,htest⟩
    by_contra hlt
    exact h.fails n (Nat.not_le.mp hlt) hn htest

end MicroExpertRouter.Search
