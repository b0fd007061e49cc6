import Mathlib.Order.Lattice
import Mathlib.Data.Nat.Notation
import Mathlib.Tactic.SplitIfs

/-! Circuit breakers that let a probe through from time to time. A breaker is open when enough
operations have failed since the last success. It is stamped when a failure finds or leaves it
open, and when it admits a probe, which it does only a gap after its stamp. Outcomes and times are
listed from the newest. -/
namespace MicroExpertRouter.CircuitBreaker

/-- The failures since the last success. -/
def streak (outcomes : List Bool) : ℕ := (outcomes.takeWhile (!·)).length

@[simp] lemma streak_nil : streak [] = 0 := rfl
@[simp] lemma streak_success (outcomes : List Bool) : streak (true :: outcomes) = 0 := rfl
@[simp] lemma streak_failure (outcomes : List Bool) :
    streak (false :: outcomes) = streak outcomes+1 := rfl

/-- Consecutive times are a gap apart. -/
def Spaced (gap : ℕ) : List ℕ → Prop
  | later :: earlier :: times => earlier+gap ≤ later ∧ Spaced gap (earlier :: times)
  | _ => True

/-- The life of a breaker up to a time: its outcomes, the times of its probes and its stamp. -/
inductive Life (threshold gap : ℕ) : ℕ → List Bool → List ℕ → ℕ → Prop
  | new (now : ℕ) : Life threshold gap now [] [] 0
  | later {now now' stamp : ℕ} {outcomes : List Bool} {probes : List ℕ} (hle : now ≤ now')
      (h : Life threshold gap now outcomes probes stamp) : Life threshold gap now' outcomes probes stamp
  | success {now stamp : ℕ} {outcomes : List Bool} {probes : List ℕ}
      (h : Life threshold gap now outcomes probes stamp) :
      Life threshold gap now (true :: outcomes) probes stamp
  | failure {now stamp : ℕ} {outcomes : List Bool} {probes : List ℕ}
      (hclosed : streak outcomes+1<threshold) (h : Life threshold gap now outcomes probes stamp) :
      Life threshold gap now (false :: outcomes) probes stamp
  | trip {now stamp : ℕ} {outcomes : List Bool} {probes : List ℕ}
      (hopen : threshold ≤ streak outcomes+1) (h : Life threshold gap now outcomes probes stamp) :
      Life threshold gap now (false :: outcomes) probes now
  | probe {now stamp : ℕ} {outcomes : List Bool} {probes : List ℕ}
      (hopen : threshold ≤ streak outcomes) (hgap : stamp+gap ≤ now)
      (h : Life threshold gap now outcomes probes stamp) :
      Life threshold gap now outcomes (now :: probes) now

section Life
variable {threshold gap now stamp : ℕ} {outcomes : List Bool} {probes : List ℕ}

/-- A stamp is in the past. -/
lemma Life.stamp_le (h : Life threshold gap now outcomes probes stamp) : stamp ≤ now := by
  induction h with
  | new => exact Nat.zero_le _
  | later hle _ ih => exact ih.trans hle
  | success _ ih => exact ih
  | failure _ _ ih => exact ih
  | trip => exact le_rfl
  | probe => exact le_rfl

/-- Probes are in the past. -/
lemma Life.probe_le (h : Life threshold gap now outcomes probes stamp) :
    ∀ p ∈ probes.head?, p ≤ now := by
  induction h with
  | new => exact fun p hp => by cases hp
  | later hle _ ih => exact fun p hp => (ih p hp).trans hle
  | success _ ih => exact ih
  | failure _ _ ih => exact ih
  | trip _ _ ih => exact ih
  | probe => exact fun p hp => (Option.some.inj hp).ge

/-- An open breaker has not admitted a probe after its stamp. -/
lemma Life.probe_le_stamp (h : Life threshold gap now outcomes probes stamp)
    (hopen : threshold ≤ streak outcomes) : ∀ p ∈ probes.head?, p ≤ stamp := by
  induction h with
  | new => exact fun p hp => by cases hp
  | later _ _ ih => exact ih hopen
  | success _ ih => exact ih (hopen.trans (Nat.zero_le _))
  | failure hclosed => exact absurd hopen (Nat.not_le.mpr hclosed)
  | trip _ h => exact h.probe_le
  | probe => exact fun p hp => (Option.some.inj hp).ge

/-- The probes of a breaker are a gap apart, whatever happened between them. -/
lemma Life.spaced (h : Life threshold gap now outcomes probes stamp) : Spaced gap probes := by
  induction h with
  | new => exact trivial
  | later _ _ ih => exact ih
  | success _ ih => exact ih
  | failure _ _ ih => exact ih
  | trip _ _ ih => exact ih
  | @probe now stamp outcomes probes hopen hgap h ih =>
    cases probes with
    | nil => exact trivial
    | cons earlier times =>
      exact ⟨(Nat.add_le_add_right (h.probe_le_stamp hopen earlier rfl) gap).trans hgap,ih⟩

end Life

/-- Of two breakers in series, the second lets through what the first admits when it was stamped
no later. -/
lemma admits_series {gap first second now now' : ℕ} (hstamp : second ≤ first)
    (hgrant : first+gap ≤ now) (hle : now ≤ now') : second+gap ≤ now' :=
  ((Nat.add_le_add_right hstamp gap).trans hgrant).trans hle

end MicroExpertRouter.CircuitBreaker
