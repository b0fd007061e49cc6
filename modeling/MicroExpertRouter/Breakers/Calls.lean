import MicroExpertRouter.Breakers.States
import MicroExpertRouter.Lib.Machine

/-! What each part of a read does: the two gates, and the attempts that end with a success or with
a failure. -/
namespace MicroExpertRouter.Breakers
variable {stripedPaths : ℕ}

namespace NvmeStorage
variable (self : NvmeStorage stripedPaths) (id : ℕ)

lemma isExpertUnavailable_eq : self.isExpertUnavailable id = (self.breaker id).tripped := by
  unfold isExpertUnavailable breaker
  cases self.breakers id with
  | none => rfl
  | some b => rfl

@[simp] lemma breaker_setBreaker (b : BreakerState) (id' : ℕ) :
    (self.setBreaker id b).breaker id' = if id' = id then b else self.breaker id' := by
  unfold setBreaker breaker
  dsimp only
  rw [Function.update_apply]
  split_ifs with h
  · rfl
  · rfl

@[simp] lemma breaker_setDriveBreaker (b : BreakerState) (id' : ℕ) :
    (self.setDriveBreaker id b).breaker id' = self.breaker id' := rfl

@[simp] lemma driveBreakers_setBreaker (b : BreakerState) (d : Fin (driveCount stripedPaths)) :
    (self.setBreaker id b).driveBreakers d = self.driveBreakers d := rfl

@[simp] lemma driveBreakers_setDriveBreaker (b : BreakerState)
    (d : Fin (driveCount stripedPaths)) : (self.setDriveBreaker id b).driveBreakers d =
      if d = driveIndexFor stripedPaths id then b else self.driveBreakers d :=
  Function.update_apply _ _ _ _

/-- An expert without a breaker is as one whose breaker never failed. -/
@[simp] lemma breaker_noteReadSuccess (id' : ℕ) : (self.noteReadSuccess id).breaker id' =
    if id' = id then (self.breaker id).noteSuccess else self.breaker id' := by
  unfold noteReadSuccess
  rw [breaker_setDriveBreaker]
  unfold breaker
  dsimp only
  rw [Function.update_apply]
  split_ifs with h
  · cases self.breakers id with
    | none => rfl
    | some b => rfl
  · rfl

@[simp] lemma driveBreakers_noteReadSuccess (d : Fin (driveCount stripedPaths)) :
    (self.noteReadSuccess id).driveBreakers d =
      if d = driveIndexFor stripedPaths id then (self.driveBreaker id).noteSuccess
      else self.driveBreakers d := by
  unfold noteReadSuccess
  rw [driveBreakers_setDriveBreaker]

end NvmeStorage

namespace Event

def isRead : Event stripedPaths → Bool
  | .readAt _ _ => true
  | _ => false

def isProbe : Event stripedPaths → Bool
  | .driveProbe _ _ => true
  | .expertProbe _ _ => true
  | _ => false

/-- The time of a probe of a drive. -/
def driveProbeOf (d : Fin (driveCount stripedPaths)) : Event stripedPaths → Option ℕ
  | .driveProbe driveIndex now => if driveIndex = d then some now else none
  | _ => none

/-- The time of a probe of an expert. -/
def expertProbeOf (id : ℕ) : Event stripedPaths → Option ℕ
  | .expertProbe expertId now => if expertId = id then some now else none
  | _ => none

lemma driveProbeOf_self (d : Fin (driveCount stripedPaths)) (now : ℕ) :
    driveProbeOf d (.driveProbe d now) = some now := if_pos rfl

lemma driveProbeOf_ne {d d' : Fin (driveCount stripedPaths)} (h : d' ≠ d) (now : ℕ) :
    driveProbeOf d (.driveProbe d' now) = none := if_neg h

lemma expertProbeOf_self (id now : ℕ) :
    expertProbeOf id (.expertProbe id now : Event stripedPaths) = some now := if_pos rfl

lemma expertProbeOf_ne {id id' : ℕ} (h : id' ≠ id) (now : ℕ) :
    expertProbeOf id (.expertProbe id' now : Event stripedPaths) = none := if_neg h

end Event

section Gates
variable {clock : Clock} {id : ℕ} {host : Host stripedPaths}

/-- The host after a reading of the clock. -/
def Host.tick (self : Host stripedPaths) : Host stripedPaths :=
  { self with readings := self.readings+1 }

def Host.probeDrive (clock : Clock) (self : Host stripedPaths) (id stamp : ℕ) :
    Host stripedPaths :=
  (self.tick.setStorage (self.storage.setDriveBreaker id
    { self.storage.driveBreaker id with trippedAtMs := stamp })).record
      (.driveProbe (driveIndexFor stripedPaths id) (clock.now self.readings))

def Host.probeExpert (clock : Clock) (self : Host stripedPaths) (id stamp : ℕ) :
    Host stripedPaths :=
  (self.tick.setStorage (self.storage.setBreaker id
    { self.storage.breaker id with trippedAtMs := stamp })).record
      (.expertProbe id (clock.now self.readings))

lemma get_bind {α : Type} (f : Host stripedPaths → StorageM stripedPaths α) :
    (get >>= f) host = f host host := rfl

lemma breakerNowMs_bind {α : Type} (f : ℕ → StorageM stripedPaths α) :
    (breakerNowMs clock >>= f) host = f (clock.now host.readings) host.tick := rfl

lemma driveGate_closed (h : host.storage.isDriveUnavailable id = false) :
    driveGate clock id host = .ok () host := by
  rw [driveGate, get_bind, h]
  rfl

lemma driveGate_refused (h : host.storage.isDriveUnavailable id = true)
    (hrefuse : tryAdmitProbe (clock.now host.readings) (host.storage.driveBreaker id).trippedAtMs =
      none) : driveGate clock id host = .error (.hardware (.driveUnavailable
        (driveIndexFor stripedPaths id) (host.storage.driveBreaker id).consecutiveFailures))
          host.tick := by
  simp only [driveGate,get_bind,breakerNowMs_bind,if_pos h,hrefuse]
  rfl

lemma driveGate_admitted {stamp : ℕ} (h : host.storage.isDriveUnavailable id = true)
    (hgrant : tryAdmitProbe (clock.now host.readings) (host.storage.driveBreaker id).trippedAtMs =
      some stamp) : driveGate clock id host = .ok () (host.probeDrive clock id stamp) := by
  simp only [driveGate,get_bind,breakerNowMs_bind,if_pos h,hgrant]
  rfl

lemma expertGate_closed (h : host.storage.isExpertUnavailable id = false) :
    expertGate clock id host = .ok () host := by
  rw [expertGate, get_bind, h]
  rfl

lemma expertGate_refused (h : host.storage.isExpertUnavailable id = true)
    (hrefuse : tryAdmitProbe (clock.now host.readings) (host.storage.breaker id).trippedAtMs =
      none) : expertGate clock id host = .error (.hardware (.expertUnavailable id
        (host.storage.breaker id).consecutiveFailures)) host.tick := by
  simp only [expertGate,get_bind,breakerNowMs_bind,if_pos h,hrefuse]
  rfl

lemma expertGate_admitted {stamp : ℕ} (h : host.storage.isExpertUnavailable id = true)
    (hgrant : tryAdmitProbe (clock.now host.readings) (host.storage.breaker id).trippedAtMs =
      some stamp) : expertGate clock id host = .ok () (host.probeExpert clock id stamp) := by
  simp only [expertGate,get_bind,breakerNowMs_bind,if_pos h,hgrant]
  rfl

end Gates

section Attempts
variable {clock : Clock} {call : ReadCall} {host : Host stripedPaths}

def Host.recordAll (self : Host stripedPaths) (events : List (Event stripedPaths)) :
    Host stripedPaths := { self with events := events++self.events }

lemma modify_bind {α : Type} (f : Host stripedPaths → Host stripedPaths)
    (k : Unit → StorageM stripedPaths α) : (modify f >>= k) host = k () (f host) := rfl

lemma failRead_eq (id : ℕ) (err : IoError) :
    ∃ e, failRead clock id err host = .error e (host.noteReadFailure clock id).2 := by
  rw [failRead, get_bind]
  change ∃ e, (if (host.noteReadFailure clock id).1.driveJustTripped = true then _
    else if (host.noteReadFailure clock id).1.justTripped = true then _ else _ :
      StorageM stripedPaths ℕ) (host.noteReadFailure clock id).2 = .error e _
  split_ifs
  · exact ⟨_,rfl⟩
  · exact ⟨_,rfl⟩
  · exact ⟨_,rfl⟩

/-- What the attempts do: they record reads and waits only, and then one success, with as many bytes
as the read asks for, or one failure. -/
inductive Attempted (clock : Clock) (call : ReadCall) (host : Host stripedPaths)
    (events : List (Event stripedPaths)) :
    EStateM.Result IoError (Host stripedPaths) ℕ → Prop
  | success (n : ℕ) (hn : n = call.len) : Attempted clock call host events
      (.ok n ((host.recordAll events).noteReadSuccess call.expertId))
  | failure (e : IoError) : Attempted clock call host events
      (.error e ((host.recordAll events).noteReadFailure clock call.expertId).2)

/-- What was recorded before the rest of the attempts comes before it. -/
lemma Attempted.record {event : Event stripedPaths} {events : List (Event stripedPaths)}
    {result : EStateM.Result IoError (Host stripedPaths) ℕ}
    (h : Attempted clock call (host.record event) events result) :
    Attempted clock call host (events++[event]) result := by
  have hhost : (host.record event).recordAll events = host.recordAll (events++[event]) := by
    unfold Host.recordAll Host.record
    rw [List.append_assoc]
    rfl
  cases h with
  | success n hn =>
    rw [hhost]
    exact .success n hn
  | failure e =>
    rw [hhost]
    exact .failure e

lemma failRead_attempted (err : IoError) :
    Attempted clock call host [] (failRead clock call.expertId err host) := by
  obtain ⟨e,he⟩ := @failRead_eq _ clock host call.expertId err
  rw [he]
  exact .failure e

/-- By induction on the attempts that are left. -/
lemma attemptReads_attempted (remaining backoff : ℕ) (lastErr : Option IoError) :
    ∃ events, (∀ event ∈ events, event.isProbe = false) ∧
      (0<remaining → events.any Event.isRead = true) ∧
      Attempted clock call host events
        (attemptReads clock call remaining backoff lastErr host) := by
  induction remaining generalizing backoff lastErr host with
  | zero =>
    refine ⟨[],List.forall_mem_nil _,fun h => absurd h (Nat.lt_irrefl 0),?_⟩
    rw [attemptReads]
    exact failRead_attempted _
  | succ remaining ih =>
    have honly : ∀ event ∈ [Event.readAt call.expertId (storageRetryAttempts-(remaining+1))],
        (event : Event stripedPaths).isProbe = false :=
      List.forall_mem_singleton.mpr rfl
    cases hattempt : call.attempts (storageRetryAttempts-(remaining+1)) with
    | ok n =>
      refine ⟨_,honly,fun _ => rfl,?_⟩
      simp only [attemptReads,modify_bind,hattempt]
      split_ifs with hn
      · exact .success n hn
      · exact (failRead_attempted _).record
    | error e =>
      simp only [attemptReads,modify_bind,hattempt]
      split_ifs
      · obtain ⟨events,hevents,_,h⟩ := @ih (host.record (.readAt call.expertId
          (storageRetryAttempts-(remaining+1)))) backoff (some e)
        refine ⟨_,List.forall_mem_append.mpr ⟨hevents,honly⟩,fun _ => ?_,h.record⟩
        rw [List.any_append]
        exact Bool.or_true _
      · obtain ⟨events,hevents,_,h⟩ := @ih ((host.record (.readAt call.expertId
          (storageRetryAttempts-(remaining+1)))).record (.sleep backoff))
          (min (backoff*2) storageRetryMaxBackoff) (some e)
        have hsleep := List.forall_mem_append.mpr ⟨hevents,List.forall_mem_singleton.mpr
          (rfl : (Event.sleep backoff : Event stripedPaths).isProbe = false)⟩
        refine ⟨_,List.forall_mem_append.mpr ⟨hsleep,honly⟩,fun _ => ?_,h.record.record⟩
        rw [List.any_append]
        exact Bool.or_true _
      · exact ⟨_,honly,fun _ => rfl,(failRead_attempted e).record⟩

end Attempts

section Whole
variable {clock : Clock} {call : ReadCall} {host : Host stripedPaths}

/-- A read passes the gate of its drive. -/
inductive DrivePassed (clock : Clock) (host : Host stripedPaths) (id : ℕ) :
    Host stripedPaths → Prop
  | closed (h : host.storage.isDriveUnavailable id = false) : DrivePassed clock host id host
  | probe {stamp : ℕ} (h : host.storage.isDriveUnavailable id = true)
      (hgrant : tryAdmitProbe (clock.now host.readings)
        (host.storage.driveBreaker id).trippedAtMs = some stamp) :
      DrivePassed clock host id (host.probeDrive clock id stamp)

/-- A read passes the gate of its expert. -/
inductive ExpertPassed (clock : Clock) (host : Host stripedPaths) (id : ℕ) :
    Host stripedPaths → Prop
  | closed (h : host.storage.isExpertUnavailable id = false) : ExpertPassed clock host id host
  | probe {stamp : ℕ} (h : host.storage.isExpertUnavailable id = true)
      (hgrant : tryAdmitProbe (clock.now host.readings)
        (host.storage.breaker id).trippedAtMs = some stamp) :
      ExpertPassed clock host id (host.probeExpert clock id stamp)

/-- How a read can go: refused by a gate, or attempted. -/
inductive Served (clock : Clock) (call : ReadCall) (host : Host stripedPaths) :
    EStateM.Result IoError (Host stripedPaths) ℕ → Prop
  | driveRefused (h : host.storage.isDriveUnavailable call.expertId = true) :
      Served clock call host (.error (.hardware (.driveUnavailable
        (driveIndexFor stripedPaths call.expertId)
        (host.storage.driveBreaker call.expertId).consecutiveFailures)) host.tick)
  | expertRefused {host' : Host stripedPaths} (hdrive : DrivePassed clock host call.expertId host')
      (h : host'.storage.isExpertUnavailable call.expertId = true)
      (hrefuse : tryAdmitProbe (clock.now host'.readings)
        (host'.storage.breaker call.expertId).trippedAtMs = none) :
      Served clock call host (.error (.hardware (.expertUnavailable call.expertId
        (host'.storage.breaker call.expertId).consecutiveFailures)) host'.tick)
  | attempted {host' host'' : Host stripedPaths} {events : List (Event stripedPaths)}
      {result : EStateM.Result IoError (Host stripedPaths) ℕ}
      (hdrive : DrivePassed clock host call.expertId host')
      (hexpert : ExpertPassed clock host' call.expertId host'')
      (hevents : ∀ event ∈ events, event.isProbe = false)
      (hread : events.any Event.isRead = true)
      (h : Attempted clock call host'' events result) : Served clock call host result

lemma driveGate_cases (clock : Clock) (host : Host stripedPaths) (id : ℕ) :
    host.storage.isDriveUnavailable id = true ∧ driveGate clock id host =
      .error (.hardware (.driveUnavailable (driveIndexFor stripedPaths id)
        (host.storage.driveBreaker id).consecutiveFailures)) host.tick ∨
    ∃ host', DrivePassed clock host id host' ∧ driveGate clock id host = .ok () host' := by
  cases htripped : host.storage.isDriveUnavailable id with
  | false => exact .inr ⟨host,.closed htripped,driveGate_closed htripped⟩
  | true =>
    cases hgrant : tryAdmitProbe (clock.now host.readings)
        (host.storage.driveBreaker id).trippedAtMs with
    | none => exact .inl ⟨rfl,driveGate_refused htripped hgrant⟩
    | some stamp => exact .inr ⟨_,.probe htripped hgrant,driveGate_admitted htripped hgrant⟩

lemma readAtWithRetries_served : Served clock call host (readAtWithRetries clock call host) := by
  rw [readAtWithRetries]
  obtain ⟨htripped,hrefused⟩ | ⟨host',hdrive,hpass⟩ := driveGate_cases clock host call.expertId
  · rw [run_bind_error hrefused]
    exact .driveRefused htripped
  rw [run_bind_ok hpass]
  cases htripped : host'.storage.isExpertUnavailable call.expertId with
  | false =>
    rw [run_bind_ok (expertGate_closed htripped)]
    obtain ⟨events,hevents,hread,h⟩ := @attemptReads_attempted _ clock call host'
      storageRetryAttempts storageRetryBackoff none
    exact .attempted hdrive (.closed htripped) hevents (hread (Nat.le_of_ble_eq_true rfl)) h
  | true =>
    cases hgrant : tryAdmitProbe (clock.now host'.readings)
        (host'.storage.breaker call.expertId).trippedAtMs with
    | none =>
      rw [run_bind_error (expertGate_refused htripped hgrant)]
      exact .expertRefused hdrive htripped hgrant
    | some stamp =>
      rw [run_bind_ok (expertGate_admitted htripped hgrant)]
      obtain ⟨events,hevents,hread,h⟩ := @attemptReads_attempted _ clock call
        (host'.probeExpert clock call.expertId stamp) storageRetryAttempts storageRetryBackoff none
      exact .attempted hdrive (.probe htripped hgrant) hevents (hread (Nat.le_of_ble_eq_true rfl)) h

/-- Between two hosts only the breakers of an expert and of its drive may differ. -/
structure Frame (host host' : Host stripedPaths) (id : ℕ) : Prop where
  breakers : ∀ id', id' ≠ id → host'.storage.breakers id' = host.storage.breakers id'
  driveBreakers : ∀ d, d ≠ driveIndexFor stripedPaths id →
    host'.storage.driveBreakers d = host.storage.driveBreakers d

section Frame
variable {host' host'' : Host stripedPaths} {id : ℕ} {events : List (Event stripedPaths)}

lemma Frame.trans (h : Frame host host' id) (h' : Frame host' host'' id) :
    Frame host host'' id :=
  ⟨fun id' hid => (h'.breakers id' hid).trans (h.breakers id' hid),
    fun d hd => (h'.driveBreakers d hd).trans (h.driveBreakers d hd)⟩

lemma Frame.breaker (h : Frame host host' id) {id' : ℕ} (hid : id' ≠ id) :
    host'.storage.breaker id' = host.storage.breaker id' :=
  congrArg (fun b => b.getD BreakerState.default) (h.breakers id' hid)

lemma DrivePassed.frame (h : DrivePassed clock host id host') : Frame host host' id := by
  cases h with
  | closed => exact ⟨fun _ _ => rfl,fun _ _ => rfl⟩
  | probe => exact ⟨fun _ _ => rfl,fun _ hd => Function.update_of_ne hd _ _⟩

lemma ExpertPassed.frame (h : ExpertPassed clock host id host') : Frame host host' id := by
  cases h with
  | closed => exact ⟨fun _ _ => rfl,fun _ _ => rfl⟩
  | probe => exact ⟨fun _ hid => Function.update_of_ne hid _ _,fun _ _ => rfl⟩

lemma frame_noteReadSuccess :
    Frame host ((host.recordAll events).noteReadSuccess id) id :=
  ⟨fun _ hid => Function.update_of_ne hid _ _,fun _ hd => Function.update_of_ne hd _ _⟩

lemma frame_noteReadFailure :
    Frame host ((host.recordAll events).noteReadFailure clock id).2 id :=
  ⟨fun _ hid => Function.update_of_ne hid _ _,fun _ hd => Function.update_of_ne hd _ _⟩

end Frame

end Whole

end MicroExpertRouter.Breakers
