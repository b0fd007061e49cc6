import Mathlib.Algebra.Order.Group.Nat
import Mathlib.Data.Int.Notation
import Mathlib.Logic.Function.Basic
import Mathlib.Order.Lattice

/-! Reads of experts behind circuit breakers: each expert and each drive has one. What the drives
answer and what the clock shows come from outside. -/
namespace MicroExpertRouter.Breakers

def storageRetryAttempts : ℕ := 3
/-- Durations are in milliseconds. -/
def storageRetryBackoff : ℕ := 5
def storageRetryMaxBackoff : ℕ := 50
def storageBreakerThreshold : UInt32 := 3
def storageDriveBreakerThreshold : UInt32 := 3
def storageBreakerProbeInterval : ℕ := 500

/-- `libc::EIO`, `libc::EAGAIN` and `libc::EBUSY`. -/
def eio : ℤ := 5
def eagain : ℤ := 11
def ebusy : ℤ := 16

/-- The kinds the storage layer tests or makes; the others are `remaining`. -/
inductive ErrorKind
  | interrupted
  | wouldBlock
  | timedOut
  | unexpectedEof
  | other
  | remaining (name : String)
  deriving DecidableEq, Repr

mutual
inductive HardwareFailure
  | transient (expertId attempts : ℕ) (lastError : IoError)
  | expertUnavailable (expertId : ℕ) (consecutiveFailures : UInt32)
  | driveUnavailable (driveIndex : ℕ) (consecutiveFailures : UInt32)
/-- An error of the operating system has a code. -/
inductive IoError
  | os (kind : ErrorKind) (code : ℤ)
  | custom (kind : ErrorKind) (message : String)
  | hardware (failure : HardwareFailure)
end

namespace IoError

/-- A `HardwareFailure` is wrapped with kind `Other`. -/
def kind : IoError → ErrorKind
  | .os kind _ => kind
  | .custom kind _ => kind
  | .hardware _ => .other

def rawOsError : IoError → Option ℤ
  | .os _ code => some code
  | .custom _ _ => none
  | .hardware _ => none

end IoError

def isTransientIoError (e : IoError) : Bool :=
  decide (e.kind = .interrupted ∨ e.kind = .wouldBlock ∨ e.kind = .timedOut) ||
    decide (e.rawOsError = some eio) || decide (e.rawOsError = some eagain) ||
    decide (e.rawOsError = some ebusy)

/-- The time since the origin of the clock, at each of its readings. -/
structure Clock where
  elapsed : ℕ → ℕ
  mono : Monotone elapsed

def Clock.now (clock : Clock) (reading : ℕ) : ℕ := max (clock.elapsed reading) 1

lemma Clock.now_mono (clock : Clock) : Monotone clock.now :=
  fun _ _ h => max_le_max (clock.mono h) le_rfl

lemma Clock.now_pos (clock : Clock) (reading : ℕ) : 0<clock.now reading :=
  Nat.lt_of_lt_of_le Nat.one_pos (Nat.le_max_right _ _)

def saturatingIncrementU32 (cur : UInt32) : UInt32 :=
  if cur = UInt32.ofNat (2^32-1) then UInt32.ofNat (2^32-1) else cur+1

/-- Of an expert, or of a drive. -/
structure BreakerState where
  consecutiveFailures : UInt32
  tripped : Bool
  trippedAtMs : ℕ
  deriving DecidableEq, Repr

namespace BreakerState

def default : BreakerState := ⟨0,false,0⟩

/-- What `note_read_success` does to a breaker. -/
def noteSuccess (self : BreakerState) : BreakerState :=
  ⟨0,false,if self.tripped then 0 else self.trippedAtMs⟩

/-- What `note_read_failure` does to a breaker, with the readings of the clock after it. -/
def noteFailure (threshold : UInt32) (clock : Clock) (readings : ℕ) (self : BreakerState) :
    BreakerState × ℕ :=
  let n := saturatingIncrementU32 self.consecutiveFailures
  if threshold ≤ n then (⟨n,true,clock.now readings⟩,readings+1)
  else ({ self with consecutiveFailures := n },readings)

end BreakerState

/-- The new stamp of a breaker that admits a probe. -/
def tryAdmitProbe (now trippedAtMs : ℕ) : Option ℕ :=
  if trippedAtMs ≠ 0 ∧ now-trippedAtMs<storageBreakerProbeInterval then none else some now

/-- A layout without striped paths has one drive. -/
def driveCount (stripedPaths : ℕ) : ℕ := max stripedPaths 1

def driveIndexFor (stripedPaths id : ℕ) : Fin (driveCount stripedPaths) :=
  if h : stripedPaths = 0 then ⟨0,Nat.lt_of_lt_of_le Nat.one_pos (Nat.le_max_right _ _)⟩
  else ⟨id % stripedPaths,Nat.lt_of_lt_of_le (Nat.mod_lt id (Nat.pos_of_ne_zero h))
    (Nat.le_max_left _ _)⟩

/-- The breakers of experts are made when they are needed. -/
structure NvmeStorage (stripedPaths : ℕ) where
  breakers : ℕ → Option BreakerState
  driveBreakers : Fin (driveCount stripedPaths) → BreakerState

/-- What a read does besides changing breakers. -/
inductive Event (stripedPaths : ℕ)
  | driveProbe (driveIndex : Fin (driveCount stripedPaths)) (now : ℕ)
  | expertProbe (expertId now : ℕ)
  | readAt (expertId attempt : ℕ)
  | sleep (millis : ℕ)
  deriving DecidableEq, Repr

/-- The storage, how often the clock has been read, and the events of the current read from the
newest. -/
structure Host (stripedPaths : ℕ) where
  storage : NvmeStorage stripedPaths
  readings : ℕ
  events : List (Event stripedPaths)

/-- A call of `read_at_with_retries`, with what `read_at` answers to each attempt. -/
structure ReadCall where
  expertId : ℕ
  len : ℕ
  attempts : ℕ → Except IoError ℕ

variable {stripedPaths : ℕ}

namespace NvmeStorage

def new (stripedPaths : ℕ) : NvmeStorage stripedPaths := ⟨fun _ => none,fun _ => .default⟩

/-- `breaker(id)`, without the entry it makes. -/
def breaker (self : NvmeStorage stripedPaths) (id : ℕ) : BreakerState :=
  (self.breakers id).getD .default

def setBreaker (self : NvmeStorage stripedPaths) (id : ℕ) (b : BreakerState) :
    NvmeStorage stripedPaths :=
  { self with breakers := Function.update self.breakers id (some b) }

def driveBreaker (self : NvmeStorage stripedPaths) (id : ℕ) : BreakerState :=
  self.driveBreakers (driveIndexFor stripedPaths id)

def setDriveBreaker (self : NvmeStorage stripedPaths) (id : ℕ) (b : BreakerState) :
    NvmeStorage stripedPaths :=
  { self with driveBreakers :=
      Function.update self.driveBreakers (driveIndexFor stripedPaths id) b }

def isExpertUnavailable (self : NvmeStorage stripedPaths) (id : ℕ) : Bool :=
  ((self.breakers id).map (·.tripped)).getD false

def isDriveUnavailable (self : NvmeStorage stripedPaths) (id : ℕ) : Bool :=
  (self.driveBreaker id).tripped

/-- An expert without a breaker gets none. -/
def noteReadSuccess (self : NvmeStorage stripedPaths) (id : ℕ) : NvmeStorage stripedPaths :=
  let b := (self.breakers id).map BreakerState.noteSuccess
  let storage := { self with breakers := Function.update self.breakers id b }
  storage.setDriveBreaker id (self.driveBreaker id).noteSuccess

end NvmeStorage

/-- What `note_read_failure` returns. -/
structure Failure where
  justTripped : Bool
  count : UInt32
  driveJustTripped : Bool
  driveCount : UInt32

namespace Host

def record (self : Host stripedPaths) (event : Event stripedPaths) : Host stripedPaths :=
  { self with events := event :: self.events }

def setStorage (self : Host stripedPaths) (storage : NvmeStorage stripedPaths) :
    Host stripedPaths := { self with storage }

def noteReadSuccess (self : Host stripedPaths) (id : ℕ) : Host stripedPaths :=
  self.setStorage (self.storage.noteReadSuccess id)

/-- The breaker of the expert first, then that of the drive. -/
def noteReadFailure (clock : Clock) (self : Host stripedPaths) (id : ℕ) :
    Failure × Host stripedPaths :=
  let old := self.storage.breaker id
  let (b,readings) := old.noteFailure storageBreakerThreshold clock self.readings
  let oldDrive := self.storage.driveBreaker id
  let (db,readings) := oldDrive.noteFailure storageDriveBreakerThreshold clock readings
  (⟨!old.tripped && b.tripped,b.consecutiveFailures,
      !oldDrive.tripped && db.tripped,db.consecutiveFailures⟩,
    { self with storage := (self.storage.setBreaker id b).setDriveBreaker id db, readings })

end Host

/-- A read as it goes on: it may end with an error. -/
abbrev StorageM (stripedPaths : ℕ) := EStateM IoError (Host stripedPaths)

def breakerNowMs (clock : Clock) : StorageM stripedPaths ℕ :=
  fun host => .ok (clock.now host.readings) { host with readings := host.readings+1 }

/-- A tripped breaker of a drive lets through one probe at a time. -/
def driveGate (clock : Clock) (expertId : ℕ) : StorageM stripedPaths Unit := do
  let host ← get
  if host.storage.isDriveUnavailable expertId then
    let db := host.storage.driveBreaker expertId
    let now ← breakerNowMs clock
    match tryAdmitProbe now db.trippedAtMs with
    | none => throw (.hardware (.driveUnavailable (driveIndexFor stripedPaths expertId)
        db.consecutiveFailures))
    | some stamp =>
      modify fun host => (host.setStorage
        (host.storage.setDriveBreaker expertId { db with trippedAtMs := stamp })).record
          (.driveProbe (driveIndexFor stripedPaths expertId) now)

/-- The same for the breaker of an expert. -/
def expertGate (clock : Clock) (expertId : ℕ) : StorageM stripedPaths Unit := do
  let host ← get
  if host.storage.isExpertUnavailable expertId then
    let b := host.storage.breaker expertId
    let now ← breakerNowMs clock
    match tryAdmitProbe now b.trippedAtMs with
    | none => throw (.hardware (.expertUnavailable expertId b.consecutiveFailures))
    | some stamp =>
      modify fun host => (host.setStorage
        (host.storage.setBreaker expertId { b with trippedAtMs := stamp })).record
          (.expertProbe expertId now)

/-- A failed read is recorded, and returns `err` unless it has tripped a breaker. -/
def failRead (clock : Clock) (expertId : ℕ) (err : IoError) : StorageM stripedPaths ℕ := do
  let host ← get
  let (failure,host) := host.noteReadFailure clock expertId
  set host
  if failure.driveJustTripped then
    throw (.hardware (.driveUnavailable (driveIndexFor stripedPaths expertId)
      failure.driveCount))
  else if failure.justTripped then
    throw (.hardware (.expertUnavailable expertId failure.count))
  else throw err

def shortRead (expertId n len : ℕ) : IoError :=
  .custom .unexpectedEof s!"short read on expert {expertId}: got {n} bytes, expected {len}"

def noError : IoError :=
  .custom .other "retry loop exited without recording a transient error (bug)"

/-- The attempts that are left: only a transient error is followed by another attempt. -/
def attemptReads (clock : Clock) (call : ReadCall) :
    ℕ → ℕ → Option IoError → StorageM stripedPaths ℕ
  | 0, _, lastErr => failRead clock call.expertId (.hardware (.transient call.expertId
      storageRetryAttempts (lastErr.getD noError)))
  | remaining+1, backoff, _ => do
    let attempt := storageRetryAttempts-(remaining+1)
    modify fun host => host.record (.readAt call.expertId attempt)
    match call.attempts attempt with
    | .ok n =>
      if n = call.len then
        modify fun host => host.noteReadSuccess call.expertId
        return n
      else failRead clock call.expertId (shortRead call.expertId n call.len)
    | .error e =>
      if isTransientIoError e then
        if remaining = 0 then attemptReads clock call remaining backoff (some e)
        else
          modify fun host => host.record (.sleep backoff)
          attemptReads clock call remaining (min (backoff*2) storageRetryMaxBackoff) (some e)
      else failRead clock call.expertId e

def readAtWithRetries (clock : Clock) (call : ReadCall) : StorageM stripedPaths ℕ := do
  driveGate clock call.expertId
  expertGate clock call.expertId
  attemptReads clock call storageRetryAttempts storageRetryBackoff none

/-- What a call has done. -/
structure Report (stripedPaths : ℕ) where
  expertId : ℕ
  events : List (Event stripedPaths)
  result : Except IoError ℕ

/-- The report of a call that ends so. -/
def Report.of (expertId : ℕ) : EStateM.Result IoError (Host stripedPaths) ℕ →
    Report stripedPaths × Host stripedPaths
  | .ok n host => (⟨expertId,host.events,.ok n⟩,host)
  | .error e host => (⟨expertId,host.events,.error e⟩,host)

/-- A call on its own, between others. -/
def Host.serve (clock : Clock) (self : Host stripedPaths) (call : ReadCall) :
    Report stripedPaths × Host stripedPaths :=
  Report.of call.expertId (readAtWithRetries clock call { self with events := [] })

/-- Calls one after another, from the newest, and their reports. -/
def serveAll (clock : Clock) : List ReadCall → List (Report stripedPaths) × Host stripedPaths
  | [] => ([],⟨.new stripedPaths,0,[]⟩)
  | call :: earlier =>
    let (reports,host) := serveAll clock earlier
    let (report,host) := host.serve clock call
    (report :: reports,host)

end MicroExpertRouter.Breakers
