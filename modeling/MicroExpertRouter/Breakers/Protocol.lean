import MicroExpertRouter.Breakers.Soundness

/-! The breakers over any sequence of reads. A probe of a drive is never refused by the breaker of
its expert, since that one was stamped no later than the drive's. -/
namespace MicroExpertRouter.Breakers
open CircuitBreaker
variable {stripedPaths : ℕ}

/-- What holds between calls. -/
structure Inv (clock : Clock) (reports : List (Report stripedPaths)) (host : Host stripedPaths) :
    Prop where
  sound : Sound clock reports [] host
  ordered : ∀ id, Ordered host id

section Serve
variable {clock : Clock} {reports : List (Report stripedPaths)} {host host' : Host stripedPaths}
  {call : ReadCall} {id : ℕ}

/-- The host at the start of a call. -/
def Host.begin (self : Host stripedPaths) : Host stripedPaths := { self with events := [] }

lemma Inv.begin (h : Inv clock reports host) : Inv clock reports host.begin :=
  ⟨⟨h.sound.expert,h.sound.drive⟩,h.ordered⟩

lemma DrivePassed.sound (h : Inv clock reports host) (hevents : host.events = [])
    (hpass : DrivePassed clock host id host') : Sound clock reports host'.events host' := by
  cases hpass with
  | closed =>
    rw [hevents]
    exact h.sound
  | @probe stamp htripped hgrant =>
    change Sound clock reports (_ :: host.events) _
    rw [hevents]
    exact h.sound.probeDrive htripped hgrant

lemma ExpertPassed.sound (h : Sound clock reports host.events host)
    (hpass : ExpertPassed clock host id host') : Sound clock reports host'.events host' := by
  cases hpass with
  | closed => exact h
  | probe htripped hgrant => exact h.probeExpert htripped hgrant

/-- The gate of an expert lets through what the gate of its drive admits as a probe. -/
lemma DrivePassed.not_refused (h : Inv clock reports host) (hpass : DrivePassed clock host id host')
    (htripped : host'.storage.isExpertUnavailable id = true)
    (hrefuse : tryAdmitProbe (clock.now host'.readings)
      (host'.storage.breaker id).trippedAtMs = none) : host' = host := by
  cases hpass with
  | closed => rfl
  | @probe stamp hdrive hgrant =>
    have hpos := (h.sound.drive (driveIndexFor stripedPaths id)).pos hdrive
    obtain ⟨_,hgap⟩ := tryAdmitProbe_eq_some hpos hgrant
    have hexpert : (host.storage.breaker id).trippedAtMs+storageBreakerProbeInterval ≤
        clock.now (host.readings+1) :=
      admits_series (h.ordered id hdrive htripped) hgap (now_tick clock host.readings)
    have hpassed := tryAdmitProbe_of_le hexpert
    exact absurd (hpassed.symm.trans hrefuse) (Option.some_ne_none _)

/-- A call that is refused without a probe changes nothing but the readings of the clock. -/
lemma Inv.refuse (h : Inv clock reports host) (id : ℕ) (result : Except IoError ℕ) :
    Inv clock (⟨id,[],result⟩ :: reports) host.tick := by
  refine ⟨⟨fun id' => ?_,fun d => ?_⟩,h.ordered⟩
  · rw [expertOutcomes, outcomes_cons_of_neg (Bool.and_false _), expertProbes, times_cons]
    exact h.sound.tick.expert id'
  · rw [driveOutcomes, outcomes_cons_of_neg (Bool.and_false _), driveProbes, times_cons]
    exact h.sound.tick.drive d

/-- Drives other than that of the call stay ordered, and so does that one after the attempts. -/
lemma Attempted.inv {host'' : Host stripedPaths} {events : List (Event stripedPaths)}
    {result : EStateM.Result IoError (Host stripedPaths) ℕ} (h : Inv clock reports host)
    (hevents : host.events = []) (hdrive : DrivePassed clock host call.expertId host')
    (hexpert : ExpertPassed clock host' call.expertId host'')
    (hprobes : ∀ event ∈ events, event.isProbe = false) (hread : events.any Event.isRead = true)
    (hattempted : Attempted clock call host'' events result) :
    Inv clock ((Report.of call.expertId result).1 :: reports)
      (Report.of call.expertId result).2 := by
  have hsound := hexpert.sound (hdrive.sound h hevents)
  have hframe := hdrive.frame.trans hexpert.frame
  cases hattempted with
  | success n hn =>
    refine ⟨hsound.noteReadSuccess hprobes hread n,fun id' => ?_⟩
    by_cases hid : driveIndexFor stripedPaths id' = driveIndexFor stripedPaths call.expertId
    · intro hopen
      change ((host''.storage.noteReadSuccess call.expertId).driveBreakers
        (driveIndexFor stripedPaths id')).tripped = true at hopen
      rw [hid, NvmeStorage.driveBreakers_noteReadSuccess, if_pos rfl] at hopen
      cases hopen
    · exact (h.ordered id').frame (hframe.trans frame_noteReadSuccess) hid
  | failure e =>
    refine ⟨hsound.noteReadFailure hprobes hread e,fun id' => ?_⟩
    by_cases hid : driveIndexFor stripedPaths id' = driveIndexFor stripedPaths call.expertId
    · exact @Sound.stamped _ clock reports (host''.recordAll events) call.expertId host''.events
        ⟨hsound.expert,hsound.drive⟩ id' hid
    · exact (h.ordered id').frame (hframe.trans frame_noteReadFailure) hid

/-- A call keeps the invariant. -/
lemma Served.inv {result : EStateM.Result IoError (Host stripedPaths) ℕ}
    (h : Inv clock reports host) (hevents : host.events = [])
    (hserved : Served clock call host result) :
    Inv clock ((Report.of call.expertId result).1 :: reports)
      (Report.of call.expertId result).2 := by
  cases hserved with
  | driveRefused =>
    change Inv clock (⟨_,host.events,_⟩ :: reports) host.tick
    rw [hevents]
    exact h.refuse _ _
  | expertRefused hdrive htripped hrefuse =>
    rw [hdrive.not_refused h htripped hrefuse]
    change Inv clock (⟨_,host.events,_⟩ :: reports) host.tick
    rw [hevents]
    exact h.refuse _ _
  | attempted hdrive hexpert hprobes hread hattempted =>
    exact hattempted.inv h hevents hdrive hexpert hprobes hread

/-- A call that succeeds returns the length it was given. -/
lemma Served.result_eq {result : EStateM.Result IoError (Host stripedPaths) ℕ} {n : ℕ}
    (hserved : Served clock call host result)
    (h : (Report.of id result).1.result = .ok n) : n = call.len := by
  cases hserved with
  | driveRefused => cases h
  | expertRefused => cases h
  | attempted _ _ _ _ hattempted =>
    cases hattempted with
    | success n hn =>
      cases h
      exact hn
    | failure e => cases h

lemma serve_result {n : ℕ} (h : (host.serve clock call).1.result = .ok n) : n = call.len :=
  readAtWithRetries_served.result_eq h

lemma Inv.serve (h : Inv clock reports host) (call : ReadCall) :
    Inv clock ((host.serve clock call).1 :: reports) (host.serve clock call).2 :=
  readAtWithRetries_served.inv h.begin rfl

section Next
variable {result : EStateM.Result IoError (Host stripedPaths) ℕ}

lemma Attempted.performed {events : List (Event stripedPaths)}
    (hread : events.any Event.isRead = true) (h : Attempted clock call host events result) :
    (Report.of id result).1.performed = true := by
  have hany : (events++host.events).any Event.isRead = true := by
    rw [List.any_append, hread]
    rfl
  cases h with
  | success n hn => exact hany
  | failure e => exact hany

/-- What is promised of a call. One that performs no read is refused by a breaker that is open, and
was not admitted as a probe of its drive. One that succeeds closes both its breakers, and touches
no other. -/
structure CallFollows (host : Host stripedPaths) (call : ReadCall)
    (report : Report stripedPaths) (host' : Host stripedPaths) : Prop where
  refused : report.performed = false →
    host.storage.isDriveUnavailable call.expertId = true ∨
      host.storage.isExpertUnavailable call.expertId = true
  probed : ∀ d now, Event.driveProbe d now ∈ report.events → report.performed = true
  succeeded : report.result.isOk = true →
    host'.storage.isExpertUnavailable call.expertId = false ∧
      host'.storage.isDriveUnavailable call.expertId = false ∧ Frame host host' call.expertId

lemma CallFollows.of_refused {report : Report stripedPaths}
    (htripped : host.storage.isDriveUnavailable call.expertId = true ∨
      host.storage.isExpertUnavailable call.expertId = true)
    (hevents : report.events = []) {e : IoError} (hresult : report.result = .error e) :
    CallFollows host call report host' := by
  refine ⟨fun _ => htripped,fun d now hprobe => ?_,fun hok => ?_⟩
  · rw [hevents] at hprobe
    cases hprobe
  · rw [hresult] at hok
    cases hok

lemma Served.follows (h : Inv clock reports host) (hevents : host.events = [])
    (hserved : Served clock call host result) :
    CallFollows host call (Report.of call.expertId result).1 (Report.of call.expertId result).2 := by
  cases hserved with
  | driveRefused htripped => exact .of_refused (.inl htripped) hevents rfl
  | expertRefused hdrive htripped hrefuse =>
    have heq := hdrive.not_refused h htripped hrefuse
    rw [heq] at htripped ⊢
    exact .of_refused (.inr htripped) hevents rfl
  | attempted hdrive hexpert hprobes hread hattempted =>
    have hperformed := @Attempted.performed _ clock _ call call.expertId _ _ hread hattempted
    refine ⟨fun h => ?_,fun _ _ _ => hperformed,fun hok => ?_⟩
    · rw [hperformed] at h
      cases h
    cases hattempted with
    | failure e => cases hok
    | success n hn =>
      refine ⟨?_,?_,(hdrive.frame.trans hexpert.frame).trans frame_noteReadSuccess⟩
      · rw [NvmeStorage.isExpertUnavailable_eq]
        change ((NvmeStorage.noteReadSuccess _ call.expertId).breaker call.expertId).tripped = false
        rw [NvmeStorage.breaker_noteReadSuccess, if_pos rfl]
        rfl
      · change ((NvmeStorage.noteReadSuccess _ call.expertId).driveBreakers _).tripped = false
        rw [NvmeStorage.driveBreakers_noteReadSuccess, if_pos rfl]
        rfl

end Next

end Serve

lemma inv_serveAll (clock : Clock) (calls : List ReadCall) :
    Inv clock (serveAll clock calls).1 (serveAll clock calls : _ × Host stripedPaths).2 := by
  induction calls with
  | nil => exact ⟨.new clock,fun _ h => by cases h⟩
  | cons call earlier ih => exact ih.serve call

/-- What is promised after any calls: of the breakers and of the probes so far, and of whatever call
comes next. -/
structure Protocol (clock : Clock) (reports : List (Report stripedPaths))
    (host : Host stripedPaths) : Prop where
  expertTripped : ∀ id, host.storage.isExpertUnavailable id = true ↔
    storageBreakerThreshold.toNat ≤ streak (expertOutcomes id reports)
  driveTripped : ∀ d, (host.storage.driveBreakers d).tripped = true ↔
    storageDriveBreakerThreshold.toNat ≤ streak (driveOutcomes d reports)
  expertFailures : ∀ id, (host.storage.breaker id).consecutiveFailures.toNat =
    min (streak (expertOutcomes id reports)) (2^32-1)
  driveFailures : ∀ d, (host.storage.driveBreakers d).consecutiveFailures.toNat =
    min (streak (driveOutcomes d reports)) (2^32-1)
  expertProbes : ∀ id, Spaced storageBreakerProbeInterval (expertProbes id reports)
  driveProbes : ∀ d, Spaced storageBreakerProbeInterval (driveProbes d reports)
  next : ∀ call, CallFollows host call (host.serve clock call).1 (host.serve clock call).2

end MicroExpertRouter.Breakers
