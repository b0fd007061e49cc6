import MicroExpertRouter.Predictor.Loader

/-! The counts of a row are those of the calls made. -/
namespace MicroExpertRouter.Predictor

/-- What a row stores of a number of observations. -/
def stored (observations : ℕ) : Option ℕ :=
  if observations = 0 then none else some (min observations u32Max)

lemma stored_eq_some {observations count : ℕ} (hbelow : observations ≤ u32Max) :
    stored observations = some count ↔ observations = count ∧ 0<count := by
  unfold stored
  split_ifs with h
  · simp only [false_iff]
    omega
  · rw [Nat.min_eq_left hbelow, Option.some_inj]
    omega

namespace Row

lemma get_bump (row : Row) (successor id : ℕ) : (row.bump successor).counts.get id
    = if id = successor then some (if (row.counts.get successor).getD 0<u32Max
        then (row.counts.get successor).getD 0+1 else (row.counts.get successor).getD 0)
      else row.counts.get id := KeyMap.get_upsert ..

/-- One more observation of the successor. -/
lemma get_bump_stored {row : Row} {successor observations : ℕ}
    (h : row.counts.get successor = stored observations) :
    (row.bump successor).counts.get successor = stored (observations+1) := by
  rw [get_bump, if_pos rfl, h, stored, stored, if_neg observations.succ_ne_zero]
  refine congrArg some ?_
  have hmax : 0<u32Max := by decide
  by_cases hzero : observations = 0
  · subst hzero
    simp only [if_true, Option.getD_none, hmax]
    omega
  · simp only [if_neg hzero, Option.getD_some]
    split_ifs <;> omega

lemma get_bump_other (row : Row) {successor id : ℕ} (h : id ≠ successor) :
    (row.bump successor).counts.get id = row.counts.get id := by
  rw [get_bump, if_neg h]

/-- A row counts experts only. -/
def InRange (numExperts : ℕ) (row : Row) : Prop := ∀ id, numExperts ≤ id → row.counts.get id = none

lemma inRange_new (numExperts : ℕ) : new.InRange numExperts := fun _ _ => rfl

lemma InRange.bump {numExperts : ℕ} {row : Row} (h : row.InRange numExperts) {successor : ℕ}
    (hsuccessor : successor<numExperts) : (row.bump successor).InRange numExperts := fun id hid =>
  (get_bump_other row (by omega)).trans (h id hid)

lemma InRange.lt {numExperts : ℕ} {row : Row} (h : row.InRange numExperts) {entry : ℕ × ℕ}
    (hentry : entry ∈ row.counts.entries) : entry.1<numExperts := by
  by_contra hle
  have hnone := h entry.1 (not_lt.mp hle)
  rw [KeyMap.mem_entries.mp hentry] at hnone
  cases hnone

end Row

namespace PredictiveLoader

/-- The rows hold what a log of transitions observed. -/
structure Counted (loader : PredictiveLoader) (log : List (ℕ × ℕ)) : Prop where
  size : loader.rows.length = loader.numExperts
  counts : ∀ source<loader.numExperts, ∀ successor<loader.numExperts,
    (loader.row source).counts.get successor = stored (log.count (source,successor))
  inRange : ∀ source, (loader.row source).InRange loader.numExperts
  inRange2 : ∀ key row, loader.rows2.get key = some row → row.InRange loader.numExperts

lemma counted_new (numExperts fanout : ℕ) : (new numExperts fanout).Counted [] := by
  have hrow (source : ℕ) : (new numExperts fanout).row source = .new := by
    rw [row, new, List.getD_eq_getElem?_getD, List.getElem?_replicate]
    split_ifs <;> rfl
  refine ⟨List.length_replicate,fun source _ successor _ => ?_,fun source => ?_,fun _ _ h => ?_⟩
  · rw [hrow]
    rfl
  · rw [hrow]
    exact Row.inRange_new _
  · cases h

section Observe
variable {self : PredictiveLoader} {log : List (ℕ × ℕ)}

@[simp] lemma numExperts_observe (source successor : ℕ) :
    (self.observe source successor).numExperts = self.numExperts := by
  unfold observe
  split <;> rfl

lemma row_modify {source : ℕ} (f : Row → Row) (hsource : source<self.rows.length) (other : ℕ) :
    ({ self with rows := self.rows.modify source f } : PredictiveLoader).row other
      = if other = source then f (self.row other) else self.row other := by
  simp only [row, List.getD_eq_getElem?_getD, List.getElem?_modify]
  by_cases h : source = other
  · subst h
    simp [hsource]
  · simp [h, Ne.symm h]

lemma Counted.observe (h : self.Counted log) (source successor : ℕ) :
    (self.observe source successor).Counted (log++[(source,successor)]) := by
  unfold PredictiveLoader.observe
  split_ifs with hrange
  · refine ⟨h.size,fun other hother id hid => ?_,h.inRange,h.inRange2⟩
    have hne : (other,id) ≠ (source,successor) := by
      rintro heq
      cases heq
      omega
    rw [h.counts other hother id hid, List.count_append, List.count_singleton,
      if_neg (by simpa using hne.symm), Nat.add_zero]
  · obtain ⟨hsource,hsuccessor⟩ := not_or.mp hrange
    have hrow := row_modify (·.bump successor) (h.size ▸ not_le.mp hsource)
    refine ⟨by simp [h.size],fun other hother id hid => ?_,fun other => ?_,h.inRange2⟩
    · rw [hrow, List.count_append, List.count_singleton]
      have hold := h.counts other hother id hid
      by_cases hother : other = source
      · subst hother
        rw [if_pos rfl]
        by_cases hid : id = successor
        · subst hid
          rw [if_pos (by simp)]
          exact Row.get_bump_stored hold
        · rw [if_neg (by simpa using Ne.symm hid), Row.get_bump_other _ hid, hold, Nat.add_zero]
      · have hne : ¬((source,successor) == (other,id)) = true := by
          simpa using fun heq => absurd heq.symm hother
        rw [if_neg hother, if_neg hne, hold, Nat.add_zero]
    · rw [hrow]
      split_ifs
      · exact (h.inRange other).bump (not_le.mp hsuccessor)
      · exact h.inRange other

lemma Counted.observe2 (h : self.Counted log) (prevPrev prev successor : ℕ) :
    (self.observe2 prevPrev prev successor).Counted log := by
  unfold PredictiveLoader.observe2
  split_ifs with hrange
  · exact h
  · refine ⟨h.size,h.counts,h.inRange,fun key row hget => ?_⟩
    have hsuccessor : successor<self.numExperts := by omega
    rw [KeyMap.get_upsert] at hget
    split_ifs at hget with hkey
    · obtain rfl := Option.some.inj hget
      refine Row.InRange.bump ?_ hsuccessor
      cases hold : self.rows2.get (self.pairKey prevPrev prev) with
      | none => exact Row.inRange_new _
      | some row2 => exact h.inRange2 _ _ hold
    · exact h.inRange2 _ _ hget

/-- The transitions, one after the other. -/
def observeAll (self : PredictiveLoader) (transitions : List (ℕ × ℕ)) : PredictiveLoader :=
  transitions.foldl (fun self transition => self.observe transition.1 transition.2) self

@[simp] lemma numExperts_observeAll (transitions : List (ℕ × ℕ)) :
    (self.observeAll transitions).numExperts = self.numExperts := by
  unfold observeAll
  induction transitions generalizing self with
  | nil => rfl
  | cons transition transitions ih => rw [List.foldl_cons, ih, numExperts_observe]

lemma Counted.observeAll (h : self.Counted log) (transitions : List (ℕ × ℕ)) :
    (self.observeAll transitions).Counted (log++transitions) := by
  induction transitions generalizing self log with
  | nil => rwa [List.append_nil]
  | cons transition transitions ih =>
    rw [List.append_cons]
    exact ih (h.observe transition.1 transition.2)

lemma observeStep_eq (prevSet nextSet : List ℕ) : self.observeStep prevSet nextSet
    = self.observeAll (prevSet.flatMap fun source => nextSet.map (source,·)) := by
  have hinner (self : PredictiveLoader) (source : ℕ) :
      (if self.numExperts ≤ source then self
        else nextSet.foldl (fun self successor =>
          if self.numExperts ≤ successor then self
          else { self with rows := self.rows.modify source (·.bump successor) }) self)
        = self.observeAll (nextSet.map (source,·)) := by
    unfold observeAll
    rw [List.foldl_map]
    induction nextSet generalizing self with
    | nil => split_ifs <;> rfl
    | cons successor nextSet ih =>
      rw [List.foldl_cons, List.foldl_cons, ← ih, numExperts_observe]
      by_cases hsource : self.numExperts ≤ source
      · rw [if_pos hsource, if_pos hsource, observe, if_pos (.inl hsource)]
      · rw [if_neg hsource, if_neg hsource, observe]
        simp only [hsource, false_or]
  have houter : ∀ self : PredictiveLoader, prevSet.foldl (fun self source =>
      if self.numExperts ≤ source then self
      else nextSet.foldl (fun self successor =>
        if self.numExperts ≤ successor then self
        else { self with rows := self.rows.modify source (·.bump successor) }) self) self
        = self.observeAll (prevSet.flatMap fun source => nextSet.map (source,·)) := by
    induction prevSet with
    | nil => exact fun _ => rfl
    | cons source prevSet ih =>
      intro self
      rw [List.foldl_cons, hinner, ih, List.flatMap_cons, observeAll, observeAll, observeAll,
        List.foldl_append]
  unfold observeStep
  split_ifs with hempty
  · rcases Bool.or_eq_true_iff.mp hempty with h | h <;> rw [List.isEmpty_iff] at h <;> subst h
    · rfl
    · rw [show prevSet.flatMap (fun source => ([] : List ℕ).map (source,·)) = [] by simp]
      rfl
  · exact houter self

end Observe

lemma Counted.apply {self : PredictiveLoader} {log : List (ℕ × ℕ)} (h : self.Counted log) (call : Call) :
    (self.apply call).Counted (log++call.transitions) := by
  cases call with
  | observe source successor => exact h.observe source successor
  | observe2 prevPrev prev successor =>
    rw [Call.transitions, List.append_nil]
    exact h.observe2 prevPrev prev successor
  | observeStep prevSet nextSet =>
    rw [PredictiveLoader.apply, observeStep_eq]
    exact h.observeAll _
  | observeStep2 prevPrevSet prevSet nextSet =>
    have hstep := h.observeAll (prevSet.flatMap fun source => nextSet.map (source,·))
    rw [← observeStep_eq] at hstep
    -- the second-order loops do not touch the rows of first order
    refine List.foldlRecOn prevPrevSet _ (motive := fun loader : PredictiveLoader => loader.Counted _)
      hstep fun loader hloader prevPrev _ => ?_
    refine List.foldlRecOn prevSet _ (motive := fun loader : PredictiveLoader => loader.Counted _)
      hloader fun loader hloader prev _ => ?_
    exact List.foldlRecOn nextSet _ (motive := fun loader : PredictiveLoader => loader.Counted _)
      hloader fun loader hloader successor _ => hloader.observe2 prevPrev prev successor

/-- After any calls the rows hold what the calls observed. -/
theorem counted_run (numExperts fanout : ℕ) (history : List Call) :
    ((new numExperts fanout).run history).Counted (history.flatMap Call.transitions) := by
  have h (history : List Call) (self : PredictiveLoader) (log : List (ℕ × ℕ))
      (hself : self.Counted log) :
      (self.run history).Counted (log++history.flatMap Call.transitions) := by
    induction history generalizing self log with
    | nil => rwa [List.flatMap_nil, List.append_nil]
    | cons call history ih =>
      rw [List.flatMap_cons, ← List.append_assoc]
      exact ih _ _ (hself.apply call)
  exact h history _ [] (counted_new numExperts fanout)

end PredictiveLoader
end MicroExpertRouter.Predictor
