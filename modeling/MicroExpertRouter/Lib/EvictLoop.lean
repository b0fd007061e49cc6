import Mathlib.Tactic

/-! The loop `while !fits { evict? }`, with its bound made explicit. `none` is the iteration
that finds no victim, which each caller reports in its own way. -/
namespace MicroExpertRouter

section
variable {σ : Type*}

def evictUntil (fits : σ → Bool) (evict : σ → Option σ) : ℕ → σ → Option σ
  | 0, s => if fits s then some s else none
  | fuel+1, s => if fits s then some s else (evict s).bind (evictUntil fits evict fuel)

variable {fits : σ → Bool} {evict : σ → Option σ}

@[simp] lemma evictUntil_of_fits {s : σ} (h : fits s = true) (fuel : ℕ) :
    evictUntil fits evict fuel s = some s := by
  cases fuel <;> simp [evictUntil,h]

lemma evictUntil_succ_of_not_fits {s : σ} (h : fits s = false) (fuel : ℕ) :
    evictUntil fits evict (fuel+1) s = (evict s).bind (evictUntil fits evict fuel) := by
  simp [evictUntil,h]

/-- Partial correctness: the result fits and every invariant of one eviction holds of it. -/
theorem evictUntil_spec {I : σ → Prop}
    (hstep : ∀ s t, I s → fits s = false → evict s = some t → I t) {fuel : ℕ} {s t : σ}
    (hs : I s) (h : evictUntil fits evict fuel s = some t) : I t ∧ fits t = true := by
  induction fuel generalizing s with
  | zero =>
    by_cases hf : fits s = true
    · simp only [evictUntil, hf, if_true, Option.some.injEq] at h
      exact h ▸ ⟨hs,hf⟩
    · simp [evictUntil,hf] at h
  | succ fuel ih =>
    by_cases hf : fits s = true
    · simp only [evictUntil, hf, if_true, Option.some.injEq] at h
      exact h ▸ ⟨hs,hf⟩
    · rw [evictUntil_succ_of_not_fits (by simpa using hf)] at h
      obtain ⟨u,hu,ht⟩ := Option.bind_eq_some_iff.mp h
      exact ih (hstep s u hs (by simpa using hf) hu) ht

/-- Total correctness: when every misfit has a victim and the measure bounds the loop,
the loop ends with a state that fits. -/
theorem evictUntil_total {I : σ → Prop} (size : σ → ℕ)
    (hstep : ∀ s, I s → fits s = false → ∃ t, evict s = some t ∧ I t ∧ size t < size s)
    {fuel : ℕ} {s : σ} (hs : I s) (hfuel : size s ≤ fuel) :
    ∃ t, evictUntil fits evict fuel s = some t := by
  induction fuel generalizing s with
  | zero =>
    by_cases hf : fits s = true
    · exact ⟨s,by simp [hf]⟩
    · obtain ⟨t,_,_,ht⟩ := hstep s hs (by simpa using hf)
      omega
  | succ fuel ih =>
    by_cases hf : fits s = true
    · exact ⟨s,by simp [hf]⟩
    · obtain ⟨t,het,hIt,ht⟩ := hstep s hs (by simpa using hf)
      obtain ⟨u,hu⟩ := ih hIt (by omega)
      exact ⟨u,by rw [evictUntil_succ_of_not_fits (by simpa using hf), het]; exact hu⟩

end

end MicroExpertRouter
