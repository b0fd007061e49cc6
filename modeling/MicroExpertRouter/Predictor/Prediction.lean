import MicroExpertRouter.Predictor.SecondOrder

/-! When the predictions name the most observed successors, whatever the order of the maps. -/
namespace MicroExpertRouter.Predictor

/-- No call of the history meets a saturated count of first order. -/
def BelowSaturation (history : List Call) : Prop :=
  ∀ source successor, observed history source successor ≤ u32Max

namespace PredictiveLoader
variable {P : Type} [LinearOrder P] (p : Probabilities P) (loader : PredictiveLoader)

/-- The predictions do not depend on the orders of the maps; the first-order one has at most `fanout`
distinct experts, none of them observed less than one that is missing. -/
structure MostObserved (history : List Call) (prevPrev source : ℕ) : Prop where
  first : ∀ order order', loader.predictNext p order source = loader.predictNext p order' source
  length : ∀ order, (loader.predictNext p order source).length ≤ loader.fanout
  distinct : ∀ order, ((loader.predictNext p order source).map Prod.fst).Nodup
  inRange : ∀ order, ∀ id ∈ (loader.predictNext p order source).map Prod.fst, id<loader.numExperts
  missing : ∀ order, ∀ missing<loader.numExperts,
    missing ∉ (loader.predictNext p order source).map Prod.fst →
    ∀ id ∈ (loader.predictNext p order source).map Prod.fst,
      observed history source missing ≤ observed history source id
  second : ∀ order order2 orderCombined order' order2' orderCombined',
    loader.predictNext2 p order order2 orderCombined prevPrev source
      = loader.predictNext2 p order' order2' orderCombined' prevPrev source

/-- Successors of one count, and experts of one blend, stand behind the cut, and no unseen expert
fills the place of an observed one below the threshold. -/
def Decisive (prevPrev source : ℕ) : Prop :=
  loader.numExperts ≤ source ∨ loader.fanout = 0
    ∨ StableSort.TieFree Prod.snd loader.fanout (loader.kept p (loader.row source))
      ∧ (loader.filling p (loader.row source) = []
        ∨ ∀ entry ∈ (loader.row source).counts.entries, loader.passes p (loader.row source) entry)
      ∧ (loader.numExperts ≤ prevPrev ∨ (loader.pairRow prevPrev source).totalObserved = 0
        ∨ StableSort.TieFree Prod.snd loader.fanout
          (loader.candidates p (loader.row source) (loader.pairRow prevPrev source)))

variable {p loader}

lemma Counted.getD {log : List (ℕ × ℕ)} (h : loader.Counted log) {source : ℕ}
    (hsource : source<loader.numExperts) (hbelow : ∀ id, log.count (source,id) ≤ u32Max) {id : ℕ}
    (hid : id<loader.numExperts) :
    ((loader.row source).counts.get id).getD 0 = log.count (source,id) := by
  rw [h.counts source hsource id hid, stored]
  split_ifs with hzero
  · rw [hzero]
    rfl
  · exact Nat.min_eq_left (hbelow id)

lemma Counted.sound {log : List (ℕ × ℕ)} (h : loader.Counted log) {source : ℕ}
    (hsource : source<loader.numExperts) (hbelow : ∀ id, log.count (source,id) ≤ u32Max) :
    (loader.row source).Sound loader.numExperts := by
  intro id count hget
  have hid : id<loader.numExperts := (h.inRange source).lt (KeyMap.mem_entries.mpr hget)
  rw [h.counts source hsource id hid, stored_eq_some (hbelow id)] at hget
  exact ⟨hid,hget.2,hget.1 ▸ hbelow id⟩

lemma Counted.pairRow {log : List (ℕ × ℕ)} (h : loader.Counted log) (prevPrev source : ℕ) :
    (loader.pairRow prevPrev source).InRange loader.numExperts := by
  unfold PredictiveLoader.pairRow
  cases hget : loader.rows2.get (loader.pairKey prevPrev source) with
  | none => exact Row.inRange_new _
  | some row2 => exact h.inRange2 _ _ hget

lemma predictNext_of_out {source : ℕ} (h : loader.numExperts ≤ source ∨ loader.fanout = 0)
    (order : HashOrder) : loader.predictNext p order source = [] := if_pos h

/-- Outside of the experts, and without fanout, nothing is predicted. -/
lemma mostObserved_of_out {history : List Call} {prevPrev source : ℕ}
    (h : loader.numExperts ≤ source ∨ loader.fanout = 0) :
    loader.MostObserved p history prevPrev source := by
  have hnext := predictNext_of_out (p := p) h
  have hnext2 (order order2 orderCombined : HashOrder) :
      loader.predictNext2 p order order2 orderCombined prevPrev source = [] :=
    (if_pos (.inr h)).trans (hnext order)
  refine ⟨fun _ _ => ?_,fun _ => ?_,fun _ => ?_,fun _ _ hmem => ?_,fun _ _ _ _ _ hmem => ?_,
    fun _ _ _ _ _ _ => ?_⟩
  · rw [hnext, hnext]
  · rw [hnext]
    exact Nat.zero_le _
  · rw [hnext]
    exact List.nodup_nil
  · rw [hnext] at hmem
    cases hmem
  · rw [hnext] at hmem
    cases hmem
  · rw [hnext2, hnext2]

/-- With the counts of the calls, the predictions are right exactly when the rows are decisive. -/
lemma Counted.mostObserved_iff {history : List Call}
    (h : loader.Counted (history.flatMap Call.transitions)) (prevPrev source : ℕ)
    (hbelow : ∀ successor, observed history source successor ≤ u32Max) :
    loader.MostObserved p history prevPrev source ↔ loader.Decisive p prevPrev source := by
  by_cases hout : loader.numExperts ≤ source ∨ loader.fanout = 0
  · exact iff_of_true (mostObserved_of_out hout) (hout.elim .inl fun h => .inr (.inl h))
  · obtain ⟨hsource,hfanout⟩ := not_or.mp hout
    have hlt : source<loader.numExperts := not_le.mp hsource
    have hpos : 0<loader.fanout := Nat.pos_of_ne_zero hfanout
    have hsound := h.sound hlt hbelow
    have hcount {id : ℕ} (hid : id<loader.numExperts) :
        ((loader.row source).counts.get id).getD 0 = observed history source id :=
      h.getD hlt hbelow hid
    have hmissing := missing_le_iff (p := p) hlt hpos hsound
    unfold Decisive
    rw [or_iff_right hsource, or_iff_right hfanout]
    constructor
    · intro hright
      have htie := (orderFree_predictNext_iff hlt hpos hsound).mp hright.first
      refine ⟨htie,hmissing.mp fun order missing hmem hnot id hid => ?_,
        (orderFree_predictNext2_iff hlt hpos hsound htie (h.pairRow prevPrev source)).mp hright.second⟩
      rw [hcount hmem, hcount (hright.inRange order id hid)]
      exact hright.missing order missing hmem hnot id hid
    · rintro ⟨htie,hfilling,hblend⟩
      have hrange (order : HashOrder) (id : ℕ)
          (hid : id ∈ (loader.predictNext p order source).map Prod.fst) : id<loader.numExperts :=
        lt_of_mem_predictNext hlt hpos hsound hid
      refine ⟨(orderFree_predictNext_iff hlt hpos hsound).mpr htie,
        length_predictNext_le hlt hpos hsound,nodup_predictNext hlt hpos hsound,hrange,
        fun order missing hmem hnot id hid => ?_,
        (orderFree_predictNext2_iff hlt hpos hsound htie (h.pairRow prevPrev source)).mpr hblend⟩
      rw [← hcount hmem, ← hcount (hrange order id hid)]
      exact hmissing.mpr hfilling order missing hmem hnot id hid

/-- After any calls below saturation, the predictions name the most observed successors, whatever
the orders of the maps, exactly when the rows are decisive. -/
theorem predictions_most_observed_iff {P : Type} [LinearOrder P] (p : Probabilities P)
    (numExperts fanout : ℕ) (history : List Call) (prevPrev source : ℕ)
    (hbelow : BelowSaturation history) :
    ((new numExperts fanout).run history).MostObserved p history prevPrev source
      ↔ ((new numExperts fanout).run history).Decisive p prevPrev source :=
  (counted_run numExperts fanout history).mostObserved_iff prevPrev source (hbelow source)

end PredictiveLoader

/-- Exact probabilities. -/
def rational (minProb : ℚ) : Probabilities ℚ where
  prob count total := (count+1)/total
  atLeast prob := decide (minProb ≤ prob)
  half prob := 1/2*prob
  zero := 0
  add a b := a+b
  prob_lt {a b total} hab _ htotal := by
    have hab' : (a : ℚ)<b := Nat.cast_lt.mpr hab
    exact div_lt_div_of_pos_right (by linarith) (Nat.cast_pos.mpr htotal)
  atLeast_mono {a b total} hab _ htotal ha := by
    have hab' : (a : ℚ) ≤ b := Nat.cast_le.mpr hab
    have hle : ((a+1)/total : ℚ) ≤ (b+1)/total :=
      div_le_div_of_nonneg_right (by linarith) (Nat.cast_pos.mpr htotal).le
    exact decide_eq_true ((of_decide_eq_true ha).trans hle)

namespace PredictiveLoader

theorem predictions_most_observed_iff_one : BelowSaturation [.observe 0 5,.observe 0 5]
    ∧ ((new 6 3).run [.observe 0 5,.observe 0 5]).MostObserved (rational (1/16))
      [.observe 0 5,.observe 0 5] 0 0 := by
  have hbelow : BelowSaturation [.observe 0 5,.observe 0 5] := fun source successor =>
    (List.count_le_length (l := [(0,5),(0,5)])).trans (by decide)
  refine ⟨hbelow,(predictions_most_observed_iff (rational (1/16)) 6 3 _ 0 0 hbelow).mpr
    (.inr (.inr ⟨fun a ha b hb hne => ?_,.inr (by decide +kernel),.inr (.inl (by decide +kernel))⟩))⟩
  have hkept : ((new 6 3).run [.observe 0 5,.observe 0 5]).kept (rational (1/16))
      (((new 6 3).run [.observe 0 5,.observe 0 5]).row 0) = [(5,2)] := by decide +kernel
  rw [hkept, List.mem_singleton] at ha hb
  exact absurd (ha.trans hb.symm) hne

/-- The observed successor does not pass the threshold, and unseen experts fill the list. -/
theorem predictNext_leaves_out_observed : ¬((new 63 2).run [.observe 0 5]).MostObserved
    (rational (1/16)) [.observe 0 5] 0 0 := by
  intro h
  have hids : (((new 63 2).run [.observe 0 5]).predictNext (rational (1/16)) (HashOrder.first 0) 0).map
      Prod.fst = [0,1] := by decide +kernel
  have hle := h.missing (HashOrder.first 0) 5 (by decide) (by rw [hids]; decide) 0
    (by rw [hids]; decide)
  revert hle
  decide

end PredictiveLoader
end MicroExpertRouter.Predictor
