import MicroExpertRouter.Breakers.Calls

/-! How reads have gone, and the breakers that follow them: each step of a read keeps every breaker
true to the outcomes and the probes it stands for. -/
namespace MicroExpertRouter.Breakers
open CircuitBreaker
variable {stripedPaths : ℕ}

/-- A read was performed when an attempt was made. -/
def Report.performed (self : Report stripedPaths) : Bool := self.events.any Event.isRead

/-- The outcomes of the performed reads among some of the reports. -/
def outcomes (concerns : Report stripedPaths → Bool) (reports : List (Report stripedPaths)) :
    List Bool :=
  (reports.filter fun report => concerns report && report.performed).map (·.result.isOk)

def expertOutcomes (id : ℕ) : List (Report stripedPaths) → List Bool :=
  outcomes fun report => decide (report.expertId = id)

def driveOutcomes (d : Fin (driveCount stripedPaths)) : List (Report stripedPaths) → List Bool :=
  outcomes fun report => decide (driveIndexFor stripedPaths report.expertId = d)

/-- The times of the selected events. -/
def times (select : Event stripedPaths → Option ℕ) (reports : List (Report stripedPaths)) :
    List ℕ := reports.flatMap (·.events.filterMap select)

def expertProbes (id : ℕ) : List (Report stripedPaths) → List ℕ := times (Event.expertProbeOf id)

def driveProbes (d : Fin (driveCount stripedPaths)) : List (Report stripedPaths) → List ℕ :=
  times (Event.driveProbeOf d)

section Histories
variable {concerns : Report stripedPaths → Bool} {select : Event stripedPaths → Option ℕ}
  {report : Report stripedPaths} {reports : List (Report stripedPaths)}

lemma outcomes_cons_of_neg (h : (concerns report && report.performed) = false) :
    outcomes concerns (report :: reports) = outcomes concerns reports := by
  unfold outcomes
  rw [List.filter_cons, h]
  rfl

lemma outcomes_cons_of_pos (h : (concerns report && report.performed) = true) :
    outcomes concerns (report :: reports) = report.result.isOk :: outcomes concerns reports := by
  unfold outcomes
  rw [List.filter_cons, h]
  rfl

lemma times_cons : times select (report :: reports) =
    report.events.filterMap select++times select reports :=
  List.flatMap_cons

end Histories

/-- After some calls and the events of the current one, every breaker has followed the reads it
stands for. -/
structure Sound (clock : Clock) (reports : List (Report stripedPaths))
    (events : List (Event stripedPaths)) (host : Host stripedPaths) : Prop where
  expert : ∀ id, Follows storageBreakerThreshold (clock.now host.readings)
    (expertOutcomes id reports) (events.filterMap (Event.expertProbeOf id)++expertProbes id reports)
    (host.storage.breaker id)
  drive : ∀ d, Follows storageDriveBreakerThreshold (clock.now host.readings)
    (driveOutcomes d reports) (events.filterMap (Event.driveProbeOf d)++driveProbes d reports)
    (host.storage.driveBreakers d)

/-- While both are open, the breaker of an expert was stamped no later than that of its drive. -/
def Ordered (host : Host stripedPaths) (id : ℕ) : Prop :=
  host.storage.isDriveUnavailable id = true → host.storage.isExpertUnavailable id = true →
    (host.storage.breaker id).trippedAtMs ≤ (host.storage.driveBreaker id).trippedAtMs

section Sound
variable {clock : Clock} {reports : List (Report stripedPaths)} {host : Host stripedPaths}
  {id stamp : ℕ} {result : Except IoError ℕ} {events : List (Event stripedPaths)}

lemma now_tick (clock : Clock) (readings : ℕ) : clock.now readings ≤ clock.now (readings+1) :=
  clock.now_mono (Nat.le_succ readings)

lemma Sound.new (clock : Clock) : Sound clock [] [] ⟨.new stripedPaths,0,[]⟩ :=
  ⟨fun _ => .default (Nat.le_of_ble_eq_true rfl) _,
    fun _ => .default (Nat.le_of_ble_eq_true rfl) _⟩

lemma Sound.tick (h : Sound clock reports events host) : Sound clock reports events host.tick :=
  ⟨fun id => (h.expert id).later (now_tick clock _),fun d => (h.drive d).later (now_tick clock _)⟩

lemma Sound.probeDrive (h : Sound clock reports events host)
    (htripped : host.storage.isDriveUnavailable id = true)
    (hgrant : tryAdmitProbe (clock.now host.readings)
      (host.storage.driveBreaker id).trippedAtMs = some stamp) :
    Sound clock reports (.driveProbe (driveIndexFor stripedPaths id) (clock.now host.readings) ::
      events) (host.probeDrive clock id stamp) := by
  refine ⟨fun id' => (h.expert id').later (now_tick clock _),fun d => ?_⟩
  change Follows _ _ _ _
    ((host.storage.setDriveBreaker id _).driveBreakers d)
  rw [NvmeStorage.driveBreakers_setDriveBreaker]
  split_ifs with hd
  · subst hd
    rw [List.filterMap_cons_some (Event.driveProbeOf_self _ _)]
    exact ((h.drive _).probe htripped hgrant).later (now_tick clock _)
  · rw [List.filterMap_cons_none (Event.driveProbeOf_ne (Ne.symm hd) _)]
    exact (h.drive d).later (now_tick clock _)

lemma Sound.probeExpert (h : Sound clock reports events host)
    (htripped : host.storage.isExpertUnavailable id = true)
    (hgrant : tryAdmitProbe (clock.now host.readings)
      (host.storage.breaker id).trippedAtMs = some stamp) :
    Sound clock reports (.expertProbe id (clock.now host.readings) :: events)
      (host.probeExpert clock id stamp) := by
  refine ⟨fun id' => ?_,fun d => (h.drive d).later (now_tick clock _)⟩
  change Follows _ _ _ _ ((host.storage.setBreaker id _).breaker id')
  rw [NvmeStorage.breaker_setBreaker]
  rw [NvmeStorage.isExpertUnavailable_eq] at htripped
  split_ifs with hid
  · subst hid
    rw [List.filterMap_cons_some (Event.expertProbeOf_self _ _)]
    exact ((h.expert _).probe htripped hgrant).later (now_tick clock _)
  · rw [List.filterMap_cons_none (Event.expertProbeOf_ne (Ne.symm hid) _)]
    exact (h.expert id').later (now_tick clock _)

/-- Reads and waits are not probes. -/
lemma filterMap_expertProbeOf (h : ∀ event ∈ events, event.isProbe = false) :
    events.filterMap (Event.expertProbeOf id) = [] := by
  rw [List.filterMap_eq_nil_iff]
  intro event hevent
  cases event with
  | driveProbe | readAt | sleep => rfl
  | expertProbe expertId now => cases h _ hevent

lemma filterMap_driveProbeOf (d : Fin (driveCount stripedPaths))
    (h : ∀ event ∈ events, event.isProbe = false) :
    events.filterMap (Event.driveProbeOf d) = [] := by
  rw [List.filterMap_eq_nil_iff]
  intro event hevent
  cases event with
  | expertProbe | readAt | sleep => rfl
  | driveProbe driveIndex now => cases h _ hevent

/-- The attempts of a call add an outcome to its expert and its drive, and leave the others. -/
lemma Sound.finish {host' : Host stripedPaths} (h : Sound clock reports host.events host)
    (hevents : ∀ event ∈ events, event.isProbe = false) (hread : events.any Event.isRead = true)
    (hreadings : host.readings ≤ host'.readings)
    (hexpert : ∀ {os ps}, Follows storageBreakerThreshold (clock.now host.readings) os ps
        (host.storage.breaker id) → Follows storageBreakerThreshold (clock.now host'.readings)
          (result.isOk :: os) ps (host'.storage.breaker id))
    (hdrive : ∀ {os ps}, Follows storageDriveBreakerThreshold (clock.now host.readings) os ps
        (host.storage.driveBreaker id) → Follows storageDriveBreakerThreshold
          (clock.now host'.readings) (result.isOk :: os) ps (host'.storage.driveBreaker id))
    (hframe : Frame host host' id) :
    Sound clock (⟨id,events++host.events,result⟩ :: reports) [] host' := by
  have hperformed : (⟨id,events++host.events,result⟩ : Report stripedPaths).performed = true := by
    rw [Report.performed, List.any_append, hread]
    rfl
  have hnow := clock.now_mono hreadings
  refine ⟨fun id' => ?_,fun d => ?_⟩
  · have hold := h.expert id'
    rw [expertProbes, times_cons, List.filterMap_append, filterMap_expertProbeOf hevents]
    by_cases hid : id = id'
    · subst hid
      rw [expertOutcomes, outcomes_cons_of_pos]
      · exact hexpert hold
      · rw [hperformed, decide_eq_true rfl]
        rfl
    · rw [expertOutcomes, outcomes_cons_of_neg, hframe.breaker (Ne.symm hid)]
      · exact hold.later hnow
      · rw [decide_eq_false hid]
        rfl
  · have hold := h.drive d
    rw [driveProbes, times_cons, List.filterMap_append, filterMap_driveProbeOf d hevents]
    by_cases hd : driveIndexFor stripedPaths id = d
    · subst hd
      rw [driveOutcomes, outcomes_cons_of_pos]
      · exact hdrive hold
      · rw [hperformed, decide_eq_true rfl]
        rfl
    · rw [driveOutcomes, outcomes_cons_of_neg, hframe.driveBreakers d (Ne.symm hd)]
      · exact hold.later hnow
      · rw [decide_eq_false hd]
        rfl

lemma Sound.noteReadSuccess (h : Sound clock reports host.events host)
    (hevents : ∀ event ∈ events, event.isProbe = false) (hread : events.any Event.isRead = true)
    (n : ℕ) : Sound clock (⟨id,events++host.events,.ok n⟩ :: reports) []
      ((host.recordAll events).noteReadSuccess id) := by
  refine h.finish hevents hread le_rfl (fun hold => ?_) (fun hold => ?_) frame_noteReadSuccess
  · change Follows _ _ _ _ ((host.storage.noteReadSuccess id).breaker id)
    rw [NvmeStorage.breaker_noteReadSuccess, if_pos rfl]
    exact hold.noteSuccess (Nat.le_of_ble_eq_true rfl)
  · change Follows _ _ _ _ ((host.storage.noteReadSuccess id).driveBreakers _)
    rw [NvmeStorage.driveBreakers_noteReadSuccess, if_pos rfl]
    exact hold.noteSuccess (Nat.le_of_ble_eq_true rfl)

/-- The breaker of the expert first, then that of the drive with the readings left by it. -/
lemma storage_noteReadFailure (clock : Clock) (host : Host stripedPaths) (id : ℕ) :
    (host.noteReadFailure clock id).2.storage = (host.storage.setBreaker id
      ((host.storage.breaker id).noteFailure storageBreakerThreshold clock
        host.readings).1).setDriveBreaker id
      ((host.storage.driveBreaker id).noteFailure storageDriveBreakerThreshold clock
        ((host.storage.breaker id).noteFailure storageBreakerThreshold clock
          host.readings).2).1 := rfl

lemma breaker_noteReadFailure (clock : Clock) (host : Host stripedPaths) (id : ℕ) :
    (host.noteReadFailure clock id).2.storage.breaker id =
      ((host.storage.breaker id).noteFailure storageBreakerThreshold clock host.readings).1 := by
  rw [storage_noteReadFailure, NvmeStorage.breaker_setDriveBreaker, NvmeStorage.breaker_setBreaker, if_pos rfl]

lemma driveBreaker_noteReadFailure (clock : Clock) (host : Host stripedPaths) (id : ℕ) :
    (host.noteReadFailure clock id).2.storage.driveBreakers (driveIndexFor stripedPaths id) =
      ((host.storage.driveBreaker id).noteFailure storageDriveBreakerThreshold clock
        ((host.storage.breaker id).noteFailure storageBreakerThreshold clock
          host.readings).2).1 := by
  rw [storage_noteReadFailure, NvmeStorage.driveBreakers_setDriveBreaker, if_pos rfl]

lemma Sound.noteReadFailure (h : Sound clock reports host.events host)
    (hevents : ∀ event ∈ events, event.isProbe = false) (hread : events.any Event.isRead = true)
    (e : IoError) : Sound clock (⟨id,events++host.events,.error e⟩ :: reports) []
      ((host.recordAll events).noteReadFailure clock id).2 := by
  have hexpert := @noteFailure_readings storageBreakerThreshold (host.storage.breaker id) clock
    host.readings
  have hdrive := @noteFailure_readings storageDriveBreakerThreshold (host.storage.driveBreaker id)
    clock ((host.storage.breaker id).noteFailure storageBreakerThreshold clock host.readings).2
  refine h.finish hevents hread (hexpert.trans hdrive) (fun hold => ?_) (fun hold => ?_)
    frame_noteReadFailure
  · rw [breaker_noteReadFailure]
    exact hold.noteFailure.later (clock.now_mono (hexpert.trans hdrive))
  · rw [NvmeStorage.driveBreaker, driveBreaker_noteReadFailure]
    exact (hold.later (clock.now_mono hexpert)).noteFailure.later (clock.now_mono hdrive)

/-- An open drive was stamped after all experts when the last failure was its. -/
lemma Sound.stamped (h : Sound clock reports events host) {id' : ℕ}
    (hid : driveIndexFor stripedPaths id' = driveIndexFor stripedPaths id) :
    Ordered (host.noteReadFailure clock id).2 id' := by
  intro hdrive hexpert
  have hreadings := @noteFailure_readings storageBreakerThreshold (host.storage.breaker id) clock
    host.readings
  rw [NvmeStorage.isDriveUnavailable, NvmeStorage.driveBreaker, hid,
    driveBreaker_noteReadFailure] at hdrive
  rw [NvmeStorage.driveBreaker, hid, driveBreaker_noteReadFailure,
    (Follows.later (b := host.storage.driveBreaker id) (h.drive _)
      (clock.now_mono hreadings)).trippedAtMs_noteFailure hdrive]
  rw [NvmeStorage.isExpertUnavailable_eq] at hexpert
  by_cases heq : id' = id
  · subst heq
    rw [breaker_noteReadFailure] at hexpert ⊢
    exact ((h.expert id').noteFailure.later (clock.now_mono hreadings)).trippedAtMs_le hexpert
  · have hframe : (host.noteReadFailure clock id).2.storage.breaker id' =
        host.storage.breaker id' := (@frame_noteReadFailure _ clock host id []).breaker heq
    rw [hframe] at hexpert ⊢
    exact ((h.expert id').later (clock.now_mono hreadings)).trippedAtMs_le hexpert

lemma Ordered.frame {host' : Host stripedPaths} {id' : ℕ} (h : Ordered host id')
    (hframe : Frame host host' id)
    (hid : driveIndexFor stripedPaths id' ≠ driveIndexFor stripedPaths id) :
    Ordered host' id' := by
  have hne : id' ≠ id := by
    rintro rfl
    exact hid rfl
  intro hdrive hexpert
  rw [NvmeStorage.isDriveUnavailable, NvmeStorage.driveBreaker,
    hframe.driveBreakers _ hid] at hdrive
  rw [NvmeStorage.isExpertUnavailable_eq, hframe.breaker hne] at hexpert
  rw [hframe.breaker hne, NvmeStorage.driveBreaker, hframe.driveBreakers _ hid]
  exact h hdrive ((NvmeStorage.isExpertUnavailable_eq _ _).trans hexpert)

end Sound

end MicroExpertRouter.Breakers
