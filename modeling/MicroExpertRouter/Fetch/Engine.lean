import MicroExpertRouter.Lib.Programs
import MicroExpertRouter.RamCache.Contents

/-! How an expert comes from the drive into the RAM cache, of `engine.rs` and `buffer_pool.rs`: the
cache, the pool of buffers and the single-flight table that foreground fetches, speculative
prefetches and batched demand sets share, the atomic operations on them, and the tasks of the engine
as programs over these operations. An operation that awaits may also be cancelled; a task answers
nothing then, and drops what it owns. -/
namespace MicroExpertRouter.Fetch
open RamCache

inductive Slot
  | primary
  | shadow
  deriving DecidableEq, Repr

/-- One of the pre-allocated buffers. Its slot is the free list to which it returns. -/
structure Buffer where
  slot : Slot
  index : ℕ
  deriving DecidableEq, Repr

/-- The free lists, the last returned buffer first. -/
structure BufferPool where
  free : List Buffer
  shadow : List Buffer
  primarySlots : ℕ
  shadowSlots : ℕ

namespace BufferPool

def newWithShadow (primarySlots shadowSlots : ℕ) : BufferPool :=
  ⟨(List.range primarySlots).map (Buffer.mk .primary),(List.range shadowSlots).map (Buffer.mk .shadow),
    primarySlots,shadowSlots⟩

def tryAcquire (self : BufferPool) : Option (Buffer × BufferPool) :=
  match self.free with
  | [] => none
  | buffer::free => some (buffer,{ self with free := free })

def tryAcquireShadow (self : BufferPool) : Option (Buffer × BufferPool) :=
  match self.shadow with
  | [] => none
  | buffer::shadow => some (buffer,{ self with shadow := shadow })

/-- `PooledBuffer::drop`. -/
def release (self : BufferPool) (buffer : Buffer) : BufferPool :=
  match buffer.slot with
  | .primary => { self with free := buffer::self.free }
  | .shadow =>
    if self.shadowSlots = 0 then { self with free := buffer::self.free }
    else { self with shadow := buffer::self.shadow }

end BufferPool

/-- What the tasks share. The buffer behind a resident stands for the resident itself: `object` is
that of each cached id, `holders` counts its `Arc`s. Notifications are numbered, and `calls` counts
the `notify_waiters` of each. A live reservation has a ticket. What a buffer holds is the expert
whose bytes these are, or nothing of use. -/
structure EngineCore where
  ram : RamCache.System
  tickets : List ℕ
  nextTicket : ℕ
  object : ℕ → Buffer
  holders : Buffer → ℕ
  content : Buffer → Option ℕ
  pool : BufferPool
  inFlight : List (ℕ × ℕ)
  calls : ℕ → ℕ
  nextNotify : ℕ
  permits : ℕ

inductive Op
  | get (id : ℕ)
  | contains (id : ℕ)
  | full
  | evictLru
  | evictLruShadowBacked
  | insert (id : ℕ) (buffer : Buffer)
  | tryReserveExactDemand (globalIds : List ℕ)
  | commit (ticket id : ℕ) (buffer : Buffer)
  | dropReservation (ticket : ℕ)
  | releaseSlots (layer remaining : ℕ)
  | newResident (id : ℕ) (buffer : Buffer)
  | dropResident (id : ℕ) (buffer : Buffer)
  | dropBuffer (buffer : Buffer)
  | tryAcquire
  | tryAcquireShadow
  | acquire
  | shadowCapacity
  | tryClaim (id : ℕ)
  | removeClaim (id notify : ℕ)
  | notifyWaiters (notify : ℕ)
  | notified (notify : ℕ)
  | isInFlight (id : ℕ)
  | await (notify seen : ℕ)
  | governorAdmits
  | tryAcquirePermit
  | releasePermit
  | spawn
  | readExpert (foreground : Bool) (id : ℕ) (buffer : Buffer)
  | readExpertsBatch (expected : ℕ) (ids : List ℕ) (buffers : List Buffer)
  | sleep
  | compute (residents : List (ℕ × Buffer))
  deriving DecidableEq, Repr

/-- What an operation answers. Where it awaits, nothing when it is cancelled. -/
@[reducible] def Answer : Op → Type
  | .get _ => Option Buffer
  | .contains _ => Bool
  | .full => Bool
  | .evictLru => Option (ℕ × Buffer)
  | .evictLruShadowBacked => Option (ℕ × Buffer)
  | .insert _ _ => Except Unit (Option (ℕ × Buffer))
  | .tryReserveExactDemand _ => Except ReservationError (ℕ × List (ℕ × Buffer))
  | .commit _ _ _ => Except Unit Bool
  | .dropReservation _ => List (ℕ × ℕ)
  | .releaseSlots _ _ => Unit
  | .newResident _ _ => Unit
  | .dropResident _ _ => Unit
  | .dropBuffer _ => Unit
  | .tryAcquire => Option Buffer
  | .tryAcquireShadow => Option Buffer
  | .acquire => Option Buffer
  | .shadowCapacity => ℕ
  | .tryClaim _ => Except ℕ ℕ
  | .removeClaim _ _ => Unit
  | .notifyWaiters _ => Unit
  | .notified _ => ℕ
  | .isInFlight _ => Bool
  | .await _ _ => Option Unit
  | .governorAdmits => Bool
  | .tryAcquirePermit => Bool
  | .releasePermit => Unit
  | .spawn => Bool
  | .readExpert _ _ _ => Option (Except String Unit)
  | .readExpertsBatch _ _ _ => Option (Except String ℕ)
  | .sleep => Option Unit
  | .compute _ => Unit

/-- What the tasks do not decide: which layer gives up a resident and how heats compare, whether an
await goes on or is cancelled, a yes or no of the surroundings, and how a read ends. -/
structure Choice where
  layer : ℕ
  colder : ℕ → ℕ → Bool
  goesOn : Bool
  read : Except String ℕ

namespace EngineCore

/-- `Arc::clone` of a resident. -/
def hold (self : EngineCore) (buffer : Buffer) : EngineCore :=
  { self with holders := Function.update self.holders buffer (self.holders buffer+1) }

/-- Dropping an `Arc` of a resident; with the last one its buffer goes back. -/
def drop (self : EngineCore) (buffer : Buffer) : EngineCore :=
  { self with
    holders := Function.update self.holders buffer (self.holders buffer-1)
    pool := if self.holders buffer ≤ 1 then self.pool.release buffer else self.pool }

def asResident (id : ℕ) (buffer : Buffer) : ExpertResident := ⟨id,⟨decide (buffer.slot = .shadow)⟩⟩

/-- The cache takes a resident in. -/
def cached (self : EngineCore) (ram : RamCache.System) (id : ℕ) (buffer : Buffer) : EngineCore :=
  { self with
    ram := ram
    object := Function.update self.object id buffer
    holders := Function.update self.holders buffer (self.holders buffer+1) }

def withId (self : EngineCore) (resident : ExpertResident) : ℕ × Buffer :=
  (resident.id,self.object resident.id)

def setRam (self : EngineCore) (ram : RamCache.System) : EngineCore := { self with ram := ram }

def get (self : EngineCore) (id : ℕ) : Option (Option Buffer × EngineCore) :=
  match self.ram.step (.get id) with
  | some (ram,.found none) => some (none,self.setRam ram)
  | some (ram,.found (some _)) =>
    some (some (self.object id),(self.setRam ram).hold (self.object id))
  | _ => none

/-- One turn of the loop over the layers; the victim's `Arc` goes to the caller. -/
def evict (self : EngineCore) (operation : RamCache.Operation) :
    Option (Option (ℕ × Buffer) × EngineCore) :=
  match self.ram.step operation with
  | some (ram,.found victim) => some (victim.map self.withId,self.setRam ram)
  | _ => none

/-- A clone goes into the cache, unless it is refused. -/
def insert (self : EngineCore) (colder : ℕ → ℕ → Bool) (id : ℕ) (buffer : Buffer) :
    Option (Except Unit (Option (ℕ × Buffer)) × EngineCore) :=
  match self.ram.step (.insert colder (asResident id buffer)) with
  | some (ram,.inserted (.ok evicted)) =>
    some (.ok (evicted.map self.withId),self.cached ram id buffer)
  | some (ram,.inserted (.error _)) => some (.error (),self.setRam ram)
  | _ => none

def tryReserveExactDemand (self : EngineCore) (globalIds : List ℕ) :
    Option (Except ReservationError (ℕ × List (ℕ × Buffer)) × EngineCore) :=
  match self.ram.step (.tryReserveExactDemand globalIds) with
  | some (ram,.reserved (.ok outcome)) =>
    some (.ok (self.nextTicket,outcome.victims.map self.withId),{ self with
      ram := ram
      tickets := self.tickets++[self.nextTicket]
      nextTicket := self.nextTicket+1 })
  | some (ram,.reserved (.error e)) => some (.error e,self.setRam ram)
  | _ => none

def commit (self : EngineCore) (ticket id : ℕ) (buffer : Buffer) :
    Option (Except Unit Bool × EngineCore) :=
  match self.ram.step (.commit (self.tickets.idxOf ticket) (asResident id buffer)) with
  | some (ram,.committed (.ok true)) => some (.ok true,self.cached ram id buffer)
  | some (ram,.committed (.ok false)) => some (.ok false,self.setRam ram)
  | some (ram,.committed (.error _)) => some (.error (),self.setRam ram)
  | _ => none

/-- The guards of the layers, that are released one after the other. -/
def dropReservation (self : EngineCore) (ticket : ℕ) : Option (List (ℕ × ℕ) × EngineCore) :=
  let index := self.tickets.idxOf ticket
  match self.ram.live[index]?, self.ram.step (.drop index) with
  | some reservation, some (ram,_) =>
    some (reservation.guards self.ram.cache.numLayers,{ self with
      ram := ram
      tickets := self.tickets.eraseIdx index })
  | _, _ => none

/-- `ExpertCacheSlotReservation::drop`. -/
def releaseSlots (self : EngineCore) (layer remaining : ℕ) : Option (Unit × EngineCore) :=
  (self.ram.step (.release (self.ram.falling.idxOf (layer,remaining)))).map fun result =>
    ((),self.setRam result.1)

def tryAcquire (self : EngineCore) : Option Buffer × EngineCore :=
  match self.pool.tryAcquire with
  | none => (none,self)
  | some (buffer,pool) => (some buffer,{ self with pool := pool })

def tryAcquireShadow (self : EngineCore) : Option Buffer × EngineCore :=
  match self.pool.tryAcquireShadow with
  | none => (none,self)
  | some (buffer,pool) => (some buffer,{ self with pool := pool })

/-- Waits for a primary buffer. -/
def acquire (self : EngineCore) : Option (Option Buffer × EngineCore) :=
  self.pool.tryAcquire.map fun result => (some result.1,{ self with pool := result.2 })

/-- `SingleflightLeaderGuard::try_claim`. -/
def tryClaim (self : EngineCore) (id : ℕ) : Except ℕ ℕ × EngineCore :=
  match self.inFlight.lookup id with
  | some notify => (.error notify,self)
  | none => (.ok self.nextNotify,{ self with
      inFlight := (id,self.nextNotify)::self.inFlight
      nextNotify := self.nextNotify+1 })

/-- The first half of `SingleflightLeaderGuard::drop`: only its own entry is removed. -/
def removeClaim (self : EngineCore) (id notify : ℕ) : EngineCore :=
  { self with inFlight := self.inFlight.filter fun entry => decide (entry ≠ (id,notify)) }

/-- The second half. -/
def notifyWaiters (self : EngineCore) (notify : ℕ) : EngineCore :=
  { self with calls := Function.update self.calls notify (self.calls notify+1) }

/-- Bytes written over those in the buffers. -/
def write (content : Buffer → Option ℕ) : List (Buffer × Option ℕ) → Buffer → Option ℕ
  | [] => content
  | (buffer,written)::writes => Function.update (write content writes) buffer written

/-- A read fills its buffer, or leaves it torn. -/
def readExpert (self : EngineCore) (id : ℕ) (buffer : Buffer) (result : Option (Except String Unit)) :
    Option (Except String Unit) × EngineCore :=
  (result,{ self with content := write self.content [(buffer,match result with
    | some (.ok _) => some id
    | _ => none)] })

/-- A batch that returns all bytes has filled every buffer. -/
def readExpertsBatch (self : EngineCore) (expected : ℕ) (ids : List ℕ) (buffers : List Buffer)
    (result : Option (Except String ℕ)) : Option (Except String ℕ) × EngineCore :=
  (result,{ self with content := write self.content (match result with
    | some (.ok readBytes) =>
      if readBytes = expected then (ids.zip buffers).map fun pair => (pair.2,some pair.1)
      else buffers.map fun buffer => (buffer,none)
    | _ => buffers.map fun buffer => (buffer,none)) })

/-- `PREFETCH` permits. -/
def tryAcquirePermit (self : EngineCore) : Bool × EngineCore :=
  if self.permits = 0 then (false,self) else (true,{ self with permits := self.permits-1 })

/-- One atomic operation. Nothing when it waits, or when the cache panics. -/
def exec (self : EngineCore) : (op : Op) → Choice → Option (Answer op × EngineCore)
  | .get id, _ => self.get id
  | .contains id, _ => some (self.ram.cache.contains id,self)
  -- `len` and `capacity` lock one layer after the other
  | .full, choice => some (choice.goesOn,self)
  | .evictLru, choice => self.evict (.evictLruIn choice.colder choice.layer)
  | .evictLruShadowBacked, choice => self.evict (.evictLruShadowBackedIn choice.layer)
  | .insert id buffer, choice => self.insert choice.colder id buffer
  | .tryReserveExactDemand globalIds, _ => self.tryReserveExactDemand globalIds
  | .commit ticket id buffer, _ => self.commit ticket id buffer
  | .dropReservation ticket, _ => self.dropReservation ticket
  | .releaseSlots layer remaining, _ => self.releaseSlots layer remaining
  | .newResident _ buffer, _ => some ((),self.hold buffer)
  | .dropResident _ buffer, _ => some ((),self.drop buffer)
  | .dropBuffer buffer, _ => some ((),{ self with pool := self.pool.release buffer })
  | .tryAcquire, _ => some self.tryAcquire
  | .tryAcquireShadow, _ => some self.tryAcquireShadow
  | .acquire, choice => if choice.goesOn then self.acquire else some (none,self)
  | .shadowCapacity, _ => some (self.pool.shadowSlots,self)
  | .tryClaim id, _ => some (self.tryClaim id)
  | .removeClaim id notify, _ => some ((),self.removeClaim id notify)
  | .notifyWaiters notify, _ => some ((),self.notifyWaiters notify)
  | .notified notify, _ => some (self.calls notify,self)
  | .isInFlight id, _ => some ((self.inFlight.lookup id).isSome,self)
  -- woken by a call after the registration
  | .await notify seen, choice =>
    if choice.goesOn then if seen<self.calls notify then some (some (),self) else none
    else some (none,self)
  | .governorAdmits, choice => some (choice.goesOn,self)
  | .tryAcquirePermit, _ => some self.tryAcquirePermit
  | .releasePermit, _ => some ((),{ self with permits := self.permits+1 })
  | .spawn, choice => some (choice.goesOn,self)
  | .readExpert _ id buffer, choice => some
    (self.readExpert id buffer (if choice.goesOn then some (choice.read.map fun _ => ()) else none))
  | .readExpertsBatch expected ids buffers, choice => some
    (self.readExpertsBatch expected ids buffers (if choice.goesOn then some choice.read else none))
  | .sleep, choice => some (if choice.goesOn then some () else none,self)
  | .compute _, _ => some ((),self)

/-- `EngineCore::new`: speculation may use the shadow buffers, or without them all primary buffers
beyond the cache but one. -/
def prefetchPermits (maxConcurrentPrefetches cacheCapacity primarySlots shadowSlots : ℕ) : ℕ :=
  if 0<shadowSlots then min maxConcurrentPrefetches shadowSlots
  else min maxConcurrentPrefetches (primarySlots-cacheCapacity-1)

def new (cache : MultiLayerExpertCache) (primarySlots shadowSlots maxConcurrentPrefetches : ℕ)
    (costAwareEviction : Bool) : EngineCore where
  ram := .new (cache.setCostAware costAwareEviction)
  tickets := []
  nextTicket := 0
  object := fun _ => ⟨.primary,0⟩
  holders := fun _ => 0
  content := fun _ => none
  pool := .newWithShadow primarySlots shadowSlots
  inFlight := []
  calls := fun _ => 0
  nextNotify := 0
  permits := prefetchPermits maxConcurrentPrefetches cache.capacity primarySlots shadowSlots

end EngineCore

abbrev Task (α : Type) : Type := Program Op Answer α

def ask (op : Op) : Task (Answer op) := .ask op

/-- `PoolStarved` is never constructed. -/
inductive FetchOnceError
  | poolStarved
  | io (message : String)
  deriving DecidableEq, Repr

inductive ExpertReadError
  | poolStarved (id : ℕ)
  | io (id attempts : ℕ) (source : String)
  deriving DecidableEq, Repr

inductive GpuNativeDemandResidencyError
  | source (error : ExpertReadError)
  | productionBatchPoolUnavailableAfterReservation (requested acquired : ℕ)
  | productionBatchReadFailedAfterReservation (globalIds : List ℕ) (source : String)
  | productionBatchCommitViolation (globalId : ℕ)
  | qualificationCompletedReadSetMismatch (requestedGlobalIds completedGlobalIds : List ℕ)
  deriving DecidableEq, Repr

/-- `SingleflightLeaderGuard::drop`. -/
def dropGuard (id notify : ℕ) : Task Unit := do
  ask (.removeClaim id notify)
  ask (.notifyWaiters notify)

def dropGuards : List (ℕ × ℕ) → Task Unit
  | [] => pure ()
  | (id,notify)::guards => do
    dropGuard id notify
    dropGuards guards

def dropBuffers : List Buffer → Task Unit
  | [] => pure ()
  | buffer::buffers => do
    ask (.dropBuffer buffer)
    dropBuffers buffers

def dropResidents : List (ℕ × Buffer) → Task Unit
  | [] => pure ()
  | (id,buffer)::residents => do
    ask (.dropResident id buffer)
    dropResidents residents

def releaseAll : List (ℕ × ℕ) → Task Unit
  | [] => pure ()
  | (layer,remaining)::guards => do
    ask (.releaseSlots layer remaining)
    releaseAll guards

def dropReservation (ticket : ℕ) : Task Unit := do
  let guards ← ask (.dropReservation ticket)
  releaseAll guards

/-- A cache at capacity gives up a resident before the buffer is taken. -/
def makeRoom : Task Unit := do
  match ← ask .full with
  | false => pure ()
  | true => match ← ask .evictLru with
    | none => pure ()
    | some (victim,buffer) => ask (.dropResident victim buffer)

/-- `fetch_once` under the guard of a leader. A resident that the cache refuses is returned all the
same. -/
def fetchOnce (id : ℕ) : Task (Option (Except FetchOnceError Buffer)) := do
  makeRoom
  match ← ask .acquire with
  | none => pure none
  | some buffer => match ← ask (.readExpert true id buffer) with
    | none => do
      ask (.dropBuffer buffer)
      pure none
    | some (.error message) => do
      ask (.dropBuffer buffer)
      pure (some (.error (.io message)))
    | some (.ok _) => do
      ask (.newResident id buffer)
      match ← ask (.insert id buffer) with
      | .ok (some (evicted,other)) => do
        ask (.dropResident evicted other)
        pure (some (.ok buffer))
      | .ok none => pure (some (.ok buffer))
      | .error _ => pure (some (.ok buffer))

def maxLeaderElections : ℕ := 4
def maxAttempts : ℕ := 3

/-- The attempts of a leader that are left, after the last error. -/
def attempts (id : ℕ) : ℕ → Option String → Task (Option (Except ExpertReadError Buffer))
  | 0, lastErr => pure (some (.error (.io id maxAttempts (lastErr.getD "unknown"))))
  | left+1, _ => do
    match ← fetchOnce id with
    | none => pure none
    | some (.ok buffer) => pure (some (.ok buffer))
    | some (.error .poolStarved) => pure (some (.error (.poolStarved id)))
    | some (.error (.io message)) =>
      if left = 0 then attempts id left (some message)
      else match ← ask .sleep with
        | none => pure none
        | some _ => attempts id left (some message)

/-- A leader looks into the cache once more, then reads. -/
def lead (id notify : ℕ) : Task (Option (Except ExpertReadError Buffer)) := do
  match ← ask (.get id) with
  | some buffer => do
    dropGuard id notify
    pure (some (.ok buffer))
  | none => do
    let result ← attempts id maxAttempts none
    dropGuard id notify
    pure result

/-- The elections that are left. -/
def elections (id : ℕ) : ℕ → Task (Option (Except ExpertReadError Buffer))
  | 0 => pure (some (.error (.io id maxLeaderElections
      "exhausted singleflight leader-election budget")))
  | left+1 => do
    match ← ask (.tryClaim id) with
    | .ok notify => lead id notify
    | .error notify => do
      let seen ← ask (.notified notify)
      match ← ask (.get id) with
      | some buffer => pure (some (.ok buffer))
      | none => match ← ask (.isInFlight id) with
        | false => elections id left
        | true => match ← ask (.await notify seen) with
          | none => pure none
          | some _ => match ← ask (.get id) with
            | some buffer => pure (some (.ok buffer))
            | none => elections id left

def fetchWithRetryInner (id : ℕ) : Task (Option (Except ExpertReadError Buffer)) := do
  match ← ask (.get id) with
  | some buffer => pure (some (.ok buffer))
  | none => elections id maxLeaderElections

/-- A buffer for speculation: a shadow one; without a shadow half a primary one; or what a
shadow-backed resident gives back. -/
def prefetchBuffer : Task (Option Buffer) := do
  match ← ask .tryAcquireShadow with
  | some buffer => pure (some buffer)
  | none => do
    let shadowCapacity : ℕ ← ask .shadowCapacity
    if shadowCapacity = 0 then ask .tryAcquire
    else match ← ask .evictLruShadowBacked with
      | none => pure none
      | some (victim,recycled) => do
        ask (.dropResident victim recycled)
        ask .tryAcquireShadow

/-- The read of a prefetch that holds its guard. -/
def prefetchRead (id : ℕ) : Task Unit := do
  match ← prefetchBuffer with
  | none => pure ()
  | some buffer => match ← ask (.readExpert false id buffer) with
    | none => ask (.dropBuffer buffer)
    | some (.error _) => ask (.dropBuffer buffer)
    | some (.ok _) => do
      ask (.newResident id buffer)
      match ← ask (.insert id buffer) with
      | .ok (some (evicted,other)) => do
        ask (.dropResident evicted other)
        ask (.dropResident id buffer)
      | .ok none => ask (.dropResident id buffer)
      | .error _ => ask (.dropResident id buffer)

/-- The spawned task, with its permit. -/
def prefetchTask (id : ℕ) : Task Unit := do
  match ← ask (.contains id) with
  | true => ask .releasePermit
  | false => match ← ask (.tryClaim id) with
    | .error _ => ask .releasePermit
    | .ok notify => do
      prefetchRead id
      dropGuard id notify
      ask .releasePermit

/-- A future that is refused drops its permit. -/
def spawnPrefetch (id : ℕ) : Task Unit := do
  match ← ask (.contains id) with
  | true => pure ()
  | false => match ← ask (.isInFlight id) with
    | true => pure ()
    | false => match ← ask .governorAdmits with
      | false => pure ()
      | true => match ← ask .tryAcquirePermit with
        | false => pure ()
        | true => match ← ask .spawn with
          | false => ask .releasePermit
          | true => prefetchTask id

/-- The residents of a demand, oldest first, and how it ended. -/
abbrev Demanded : Type :=
  List (ℕ × Buffer) × Option (Except GpuNativeDemandResidencyError Unit)

def hasResident (residents : List (ℕ × Buffer)) (id : ℕ) : Bool :=
  residents.any fun resident => resident.1 == id

/-- `gpu_native_demand_source` for an expert that is not among the residents. -/
def demandSource (id : ℕ) : Task (Option (Except ExpertReadError Buffer)) := do
  match ← ask (.get id) with
  | some buffer => pure (some (.ok buffer))
  | none => fetchWithRetryInner id

/-- `gpu_native_sequential_source_physical_missing_set`. -/
def sequentialSource : List ℕ → List (ℕ × Buffer) → Task Demanded
  | [], residents => pure (residents,some (.ok ()))
  | id::ids, residents =>
    if hasResident residents id then sequentialSource ids residents
    else do
      match ← demandSource id with
      | none => pure (residents,none)
      | some (.error error) => pure (residents,some (.error (.source error)))
      | some (.ok buffer) => sequentialSource ids (residents++[(id,buffer)])

def unresolved (ids : List ℕ) (residents : List (ℕ × Buffer)) : List ℕ :=
  ids.filter fun id => !hasResident residents id

/-- Whether one of the ids is in the cache. -/
def anyContained : List ℕ → Task Bool
  | [] => pure false
  | id::ids => do
    match ← ask (.contains id) with
    | true => pure true
    | false => anyContained ids

/-- Guards for all ids in their order; the guards so far when somebody else leads one of them. -/
def claimAll : List ℕ → List (ℕ × ℕ) → Task (Except (List (ℕ × ℕ)) (List (ℕ × ℕ)))
  | [], guards => pure (.ok guards)
  | id::ids, guards => do
    match ← ask (.tryClaim id) with
    | .ok notify => claimAll ids (guards++[(id,notify)])
    | .error _ => pure (.error guards)

/-- As many primary buffers, without waiting; those so far when there are too few. -/
def acquireAll : ℕ → List Buffer → Task (Except (List Buffer) (List Buffer))
  | 0, buffers => pure (.ok buffers)
  | left+1, buffers => do
    match ← ask .tryAcquire with
    | some buffer => acquireAll left (buffers++[buffer])
    | none => pure (.error buffers)

def newResidents : List (ℕ × Buffer) → Task Unit
  | [] => pure ()
  | (id,buffer)::residents => do
    ask (.newResident id buffer)
    newResidents residents

/-- `qualification_order_completed_residents`; the completed reads are a map. -/
def orderCompleted (requestOrder : List ℕ) (completed : List (ℕ × Buffer)) :
    Except GpuNativeDemandResidencyError (List (ℕ × Buffer)) :=
  match requestOrder.mapM fun id => (completed.lookup id).map fun buffer => (id,buffer) with
  | some ordered =>
    if completed.length = requestOrder.length then .ok ordered
    else .error (.qualificationCompletedReadSetMismatch requestOrder
      ((completed.map Prod.fst).mergeSort))
  | none => .error (.qualificationCompletedReadSetMismatch requestOrder
      ((completed.map Prod.fst).mergeSort))

/-- The commits, in order; the rest of the residents when one is refused. -/
def commitAll (ticket : ℕ) : List (ℕ × Buffer) → List (ℕ × Buffer) →
    Task (List (ℕ × Buffer) × Except (ℕ × List (ℕ × Buffer)) Unit)
  | [], residents => pure (residents,.ok ())
  | (id,buffer)::staged, residents => do
    match ← ask (.commit ticket id buffer) with
    | .error _ => pure (residents,.error (id,(id,buffer)::staged))
    | .ok _ => commitAll ticket staged (residents++[(id,buffer)])

/-- What follows the batched read that filled all buffers. -/
def installBatch (ids : List ℕ) (guards : List (ℕ × ℕ)) (ticket : ℕ) (buffers : List Buffer)
    (residents : List (ℕ × Buffer)) : Task Demanded := do
  newResidents (ids.zip buffers)
  match orderCompleted ids (ids.zip buffers) with
  | .error error => do
    dropResidents (ids.zip buffers)
    dropReservation ticket
    dropGuards guards
    pure (residents,some (.error error))
  | .ok staged => do
    match ← commitAll ticket staged residents with
    | (residents,.error (id,rest)) => do
      dropResidents rest
      dropReservation ticket
      dropGuards guards
      pure (residents,some (.error (.productionBatchCommitViolation id)))
    | (residents,.ok _) => do
      dropGuards guards
      dropReservation ticket
      pure (residents,some (.ok ()))

/-- The batch once its positions are reserved: from here on it fails closed. -/
def readBatch (bufferSize : ℕ) (ids : List ℕ) (guards : List (ℕ × ℕ)) (ticket : ℕ)
    (residents : List (ℕ × Buffer)) : Task Demanded := do
  match ← acquireAll ids.length [] with
  | .error buffers => do
    dropBuffers buffers
    dropReservation ticket
    dropGuards guards
    pure (residents,some (.error (.productionBatchPoolUnavailableAfterReservation ids.length
      buffers.length)))
  | .ok buffers =>
    let expected := buffers.length*bufferSize
    match ← ask (.readExpertsBatch expected ids buffers) with
    | none => do
      dropBuffers buffers
      dropReservation ticket
      dropGuards guards
      pure (residents,none)
    | some (.error source) => do
      dropBuffers buffers
      dropReservation ticket
      dropGuards guards
      pure (residents,some (.error (.productionBatchReadFailedAfterReservation ids source)))
    | some (.ok readBytes) =>
      if readBytes = expected then installBatch ids guards ticket buffers residents
      else do
        dropBuffers buffers
        dropReservation ticket
        dropGuards guards
        pure (residents,some (.error (.productionBatchReadFailedAfterReservation ids
          s!"batch returned {readBytes} bytes, expected {expected}")))

/-- `gpu_native_production_source_physical_missing_set`. Until its positions are reserved the batch
can still fall back to the sequential source. -/
def productionSource (bufferSize : ℕ) (ids : List ℕ) (residents : List (ℕ × Buffer)) :
    Task Demanded :=
  let missing := unresolved ids residents
  if missing.length ≤ 1 then sequentialSource ids residents
  else do
    match ← anyContained missing with
    | true => sequentialSource ids residents
    | false => match ← claimAll missing [] with
      | .error guards => do
        dropGuards guards
        sequentialSource ids residents
      | .ok guards => match ← anyContained missing with
        | true => do
          dropGuards guards
          sequentialSource ids residents
        | false => match ← ask (.tryReserveExactDemand missing) with
          | .error _ => do
            dropGuards guards
            sequentialSource ids residents
          | .ok (ticket,victims) => do
            dropResidents victims
            readBatch bufferSize missing guards ticket residents

/-- How a task ended. -/
inductive Report
  | fetched (id : ℕ) (result : Option (Except ExpertReadError Unit))
  | prefetched (id : ℕ)
  | demanded (ids sourced : List ℕ) (result : Option (Except GpuNativeDemandResidencyError Unit))
  deriving Repr

/-- A caller of `fetch_with_retry` works with the resident and lets it go. -/
def fetchTask (id : ℕ) : Task Report := do
  match ← fetchWithRetryInner id with
  | none => pure (.fetched id none)
  | some (.error error) => pure (.fetched id (some (.error error)))
  | some (.ok buffer) => do
    ask (.compute [(id,buffer)])
    ask (.dropResident id buffer)
    pure (.fetched id (some (.ok ())))

def speculationTask (id : ℕ) : Task Report := do
  spawnPrefetch id
  pure (.prefetched id)

/-- A caller of the demand source works with its residents and lets them go. -/
def demandTask (bufferSize : ℕ) (ids : List ℕ) : Task Report := do
  let (residents,result) ← productionSource bufferSize ids []
  ask (.compute residents)
  dropResidents residents
  pure (.demanded ids (residents.map Prod.fst) result)

end MicroExpertRouter.Fetch
