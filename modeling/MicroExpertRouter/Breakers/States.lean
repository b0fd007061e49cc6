import MicroExpertRouter.Breakers.Reads
import MicroExpertRouter.Lib.CircuitBreaker
import Mathlib.Tactic.SplitIfs

/-! Each breaker follows the life of a circuit breaker: its counter is that of the failures since
the last success, as far as it can count, and its stamp is the last one while it is open. -/
namespace MicroExpertRouter.Breakers
open CircuitBreaker

lemma toNat_saturatingIncrementU32 (cur : UInt32) :
    (saturatingIncrementU32 cur).toNat = min (cur.toNat+1) (2^32-1) := by
  have hcur := cur.toNat_lt
  unfold saturatingIncrementU32
  split_ifs with h
  · subst h
    rfl
  · have hne : cur.toNat ≠ 2^32-1 := by
      intro hval
      exact h (UInt32.toNat_inj.mp hval)
    rw [UInt32.toNat_add]
    change (cur.toNat+1) % 2^32 = min (cur.toNat+1) (2^32-1)
    omega

/-- A breaker with the life it has had up to a time. -/
structure Follows (threshold : UInt32) (now : ℕ) (outcomes : List Bool) (probes : List ℕ)
    (b : BreakerState) : Prop where
  failures : b.consecutiveFailures.toNat = min (streak outcomes) (2^32-1)
  tripped : b.tripped = true ↔ threshold.toNat ≤ streak outcomes
  life : ∃ stamp, Life threshold.toNat storageBreakerProbeInterval now outcomes probes stamp ∧
    (b.tripped = true → b.trippedAtMs = stamp ∧ 0<stamp)

section Follows
variable {threshold : UInt32} {now : ℕ} {outcomes : List Bool} {probes : List ℕ} {b : BreakerState}

lemma Follows.default (hthreshold : 0<threshold.toNat) (now : ℕ) :
    Follows threshold now [] [] .default := by
  refine ⟨rfl,?_,0,.new now,fun h => by cases h⟩
  exact iff_of_false (fun h => by cases h) (Nat.not_le.mpr hthreshold)

lemma Follows.later {now' : ℕ} (h : Follows threshold now outcomes probes b) (hle : now ≤ now') :
    Follows threshold now' outcomes probes b := by
  obtain ⟨stamp,hlife,hstamp⟩ := h.life
  exact ⟨h.failures,h.tripped,stamp,hlife.later hle,hstamp⟩

lemma Follows.trippedAtMs_le (h : Follows threshold now outcomes probes b)
    (htripped : b.tripped = true) : b.trippedAtMs ≤ now := by
  obtain ⟨stamp,hlife,hstamp⟩ := h.life
  rw [(hstamp htripped).1]
  exact hlife.stamp_le

lemma Follows.spaced (h : Follows threshold now outcomes probes b) :
    Spaced storageBreakerProbeInterval probes := by
  obtain ⟨_,hlife,_⟩ := h.life
  exact hlife.spaced

lemma Follows.noteSuccess (hthreshold : 0<threshold.toNat)
    (h : Follows threshold now outcomes probes b) :
    Follows threshold now (true :: outcomes) probes b.noteSuccess := by
  obtain ⟨stamp,hlife,_⟩ := h.life
  refine ⟨rfl,?_,stamp,hlife.success,fun h => by cases h⟩
  exact iff_of_false (fun h => by cases h) (Nat.not_le.mpr hthreshold)

/-- A failure reads the clock when it finds or leaves the breaker open. -/
lemma noteFailure_readings (clock : Clock) (readings : ℕ) :
    readings ≤ (b.noteFailure threshold clock readings).2 := by
  unfold BreakerState.noteFailure
  dsimp only
  split_ifs
  · exact Nat.le_succ _
  · exact le_rfl

lemma Follows.noteFailure {clock : Clock} {readings : ℕ}
    (h : Follows threshold (clock.now readings) outcomes probes b) :
    Follows threshold (clock.now readings) (false :: outcomes) probes
      (b.noteFailure threshold clock readings).1 := by
  obtain ⟨stamp,hlife,hstamp⟩ := h.life
  have hcount := toNat_saturatingIncrementU32 b.consecutiveFailures
  have hbound := threshold.toNat_lt
  rw [h.failures] at hcount
  have hfailures : (saturatingIncrementU32 b.consecutiveFailures).toNat =
      min (streak (false :: outcomes)) (2^32-1) := by
    rw [hcount, streak_failure]
    omega
  have hle : threshold ≤ saturatingIncrementU32 b.consecutiveFailures ↔
      threshold.toNat ≤ streak outcomes+1 := by
    rw [UInt32.le_iff_toNat_le, hcount]
    omega
  unfold BreakerState.noteFailure
  dsimp only
  split_ifs with hopen
  · refine ⟨hfailures,iff_of_true rfl (hle.mp hopen),_,hlife.trip (hle.mp hopen),fun _ => ?_⟩
    exact ⟨rfl,clock.now_pos readings⟩
  · have hclosed : streak outcomes+1<threshold.toNat := Nat.not_le.mp fun h => hopen (hle.mpr h)
    refine ⟨hfailures,?_,stamp,hlife.failure hclosed,hstamp⟩
    rw [h.tripped, streak_failure]
    exact iff_of_false (by omega) (Nat.not_le.mpr hclosed)

/-- A failure that leaves the breaker open has stamped it. -/
lemma Follows.trippedAtMs_noteFailure {clock : Clock} {readings : ℕ}
    (h : Follows threshold (clock.now readings) outcomes probes b)
    (htripped : (b.noteFailure threshold clock readings).1.tripped = true) :
    (b.noteFailure threshold clock readings).1.trippedAtMs = clock.now readings := by
  unfold BreakerState.noteFailure at htripped ⊢
  dsimp only at htripped ⊢
  split_ifs at htripped ⊢ with hopen
  · rfl
  · refine absurd ?_ hopen
    have hstreak := h.tripped.mp htripped
    have hbound := threshold.toNat_lt
    rw [UInt32.le_iff_toNat_le, toNat_saturatingIncrementU32, h.failures]
    omega

/-- What an open breaker admits comes a probe interval after its stamp. -/
lemma tryAdmitProbe_eq_some {now trippedAtMs stamp : ℕ} (hpos : 0<trippedAtMs)
    (h : tryAdmitProbe now trippedAtMs = some stamp) :
    stamp = now ∧ trippedAtMs+storageBreakerProbeInterval ≤ now := by
  unfold tryAdmitProbe at h
  split_ifs at h with hrefuse
  have hgap : storageBreakerProbeInterval ≤ now-trippedAtMs :=
    Nat.not_lt.mp fun hlt => hrefuse ⟨Nat.ne_of_gt hpos,hlt⟩
  have hinterval : 0<storageBreakerProbeInterval := Nat.le_of_ble_eq_true rfl
  exact ⟨(Option.some.inj h).symm,by omega⟩

lemma tryAdmitProbe_of_le {now trippedAtMs : ℕ}
    (h : trippedAtMs+storageBreakerProbeInterval ≤ now) :
    tryAdmitProbe now trippedAtMs = some now :=
  if_neg fun hrefuse => by omega

lemma Follows.pos (h : Follows threshold now outcomes probes b) (htripped : b.tripped = true) :
    0<b.trippedAtMs := by
  obtain ⟨stamp,_,hstamp⟩ := h.life
  rw [(hstamp htripped).1]
  exact (hstamp htripped).2

lemma Follows.probe {stamp : ℕ} (h : Follows threshold now outcomes probes b)
    (htripped : b.tripped = true) (hgrant : tryAdmitProbe now b.trippedAtMs = some stamp) :
    Follows threshold now outcomes (now :: probes) { b with trippedAtMs := stamp } := by
  obtain ⟨rfl,hgap⟩ := tryAdmitProbe_eq_some (h.pos htripped) hgrant
  obtain ⟨last,hlife,hlast⟩ := h.life
  rw [(hlast htripped).1] at hgap
  refine ⟨h.failures,h.tripped,_,hlife.probe (h.tripped.mp htripped) hgap,fun _ => ⟨rfl,?_⟩⟩
  have hlastPos := (hlast htripped).2
  omega

end Follows

end MicroExpertRouter.Breakers
