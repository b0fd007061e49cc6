import MicroExpertRouter.GpuCache.Runs
import MicroExpertRouter.PhysicalRegistry.Registry

/-! Calls of `routed_expert_matmul` as sequences of steps: each step is what a call does under one
lock, or without one. Between two steps of a call any other step may happen, of another call or of
the logical cache. -/
namespace MicroExpertRouter.Routing
open GpuCache (Config)
open PhysicalRegistry (PhysicalExpertKey PhysicalInstallPermit Entry)
variable {δ : Type}

/-- What a call takes from `current_admission`: the identity and the payload of the resident. -/
structure Admission (δ : Type) where
  key : PhysicalExpertKey
  data : δ
  deriving DecidableEq

/-- The weights in an entry, and the call that uploaded them. -/
structure Upload (δ : Type) where
  call : ℕ
  data : δ
  deriving DecidableEq

inductive Failure
  | deviceLost
  | residencyMiss
  | upload
  | physicalCapacity
  | runtimeInvariant
  deriving DecidableEq, Repr

/-- What a call returns: `stale` when a check found that its generation is not current. -/
inductive Outcome (δ : Type)
  | dispatched (admission : Admission δ) (entry : Entry (Upload δ))
  | stale (admission : Admission δ)
  | failed (failure : Failure)
  deriving DecidableEq

/-- Where a call is, with the variables it still needs. -/
inductive Call (δ : Type)
  | read (expertId : ℕ)
  | retireMiss (expertId : ℕ)
  | lookUp (admission : Admission δ)
  | plan (admission : Admission δ)
  | acquire (admission : Admission δ) (bytes : ℕ)
  | recheckPermit (admission : Admission δ) (permit : PhysicalInstallPermit)
  | build (admission : Admission δ) (permit : PhysicalInstallPermit)
  | recheckBuilt (admission : Admission δ) (permit : PhysicalInstallPermit)
  | install (admission : Admission δ) (permit : PhysicalInstallPermit)
  | recheck (admission : Admission δ) (entry : Entry (Upload δ))
  | retire (admission : Admission δ) (entry : Entry (Upload δ))
  | dispatch (admission : Admission δ) (entry : Entry (Upload δ))
  | discard (admission : Admission δ) (permit : PhysicalInstallPermit)
  | cancel (permit : PhysicalInstallPermit) (outcome : Outcome δ)
  | release (serial : ℕ) (outcome : Outcome δ)
  | finished (outcome : Outcome δ)
  deriving DecidableEq

/-- What is not for a call to decide: whether the device is lost, the size of an upload plan if
there is one, whether the upload succeeds, and which owners of leases go while it makes room. -/
structure Choice where
  deviceLost : Bool
  planned : Option ℕ
  uploads : Bool
  drops : List (List ℕ)

/-- The logical cache with the payload of every admission so far, the registry and the calls. -/
structure Backend (δ : Type) where
  logical : GpuCache.System
  payloads : PhysicalExpertKey → δ
  physical : PhysicalRegistry.System (Upload δ)
  calls : List (Call δ)

/-- A step of the logical cache, with the payload of the resident of each expert it is given; a new
call; or a step of a call. -/
inductive Action (δ : Type)
  | logical (operation : GpuCache.Operation) (contents : ℕ → δ)
  | begin (expertId : ℕ)
  | advance (call : ℕ) (choice : Choice)

namespace Backend

/-- Nothing is admitted yet, so that the payloads do not matter. -/
def new (expertCapacityBytes : ℕ) (payloads : PhysicalExpertKey → δ) : Backend δ :=
  ⟨.new,payloads,.new expertCapacityBytes,[]⟩

/-- An admission is made between two states of the logical cache. -/
def admitted (before after : GpuCache.GpuExpertCache) (key : PhysicalExpertKey) : Bool :=
  after.entries.any fun entry => decide (entry.1 = key.expertId ∧
    entry.2.generation = key.generation ∧ before.nextGeneration ≤ key.generation)

def admission (self : Backend δ) (key : PhysicalExpertKey) : Admission δ := ⟨key,self.payloads key⟩

def isCurrent (self : Backend δ) (key : PhysicalExpertKey) : Bool :=
  self.logical.cache.containsGeneration key.expertId key.generation

def resume (self : Backend δ) (c : ℕ) (call : Call δ) : Backend δ :=
  { self with calls := self.calls.set c call }

/-- A step of a call at some place. -/
def advance (self : Backend δ) (c : ℕ) (choice : Choice) : Call δ → Option (Backend δ)
  | .read expertId =>
    if choice.deviceLost then some (self.resume c (.finished (.failed .deviceLost)))
    else match self.logical.cache.currentAdmission expertId with
    | none => some (self.resume c (.retireMiss expertId))
    | some admission => some (self.resume c (.lookUp (self.admission
      ⟨expertId,admission.generation⟩)))
  | .retireMiss expertId => do
    let physical ← self.physical.retireLogicalMiss expertId
    return { self with physical }.resume c (.finished (.failed .residencyMiss))
  | .lookUp admission => do
    let (physical,found) ← self.physical.lookupCurrentLocked admission.key
    let self := { self with physical }
    match found with
    | .hit entry => return self.resume c (.recheck admission entry)
    | .miss => return self.resume c (.plan admission)
    | .staleRequester => return self.resume c (.finished (.failed .residencyMiss))
  | .plan admission =>
    match choice.planned with
    | none => some (self.resume c (.finished (.failed .upload)))
    | some bytes => some (self.resume c (.acquire admission bytes))
  | .acquire admission bytes => do
    let (physical,result) ← self.physical.acquireOrReserve admission.key bytes choice.drops
    let self := { self with physical }
    match result with
    | .error _ => return self.resume c (.finished (.failed .physicalCapacity))
    | .ok (.hit entry) => return self.resume c (.recheck admission entry)
    | .ok .staleRequester => return self.resume c (.finished (.failed .residencyMiss))
    | .ok (.install permit) => return self.resume c (.recheckPermit admission permit)
    | .ok .waits => return self
  | .recheckPermit admission permit =>
    if self.isCurrent admission.key then some (self.resume c (.build admission permit))
    else some (self.resume c (.cancel permit (.stale admission)))
  | .build admission permit =>
    if choice.uploads = false then some (self.resume c (.cancel permit (.failed .upload)))
    else match self.physical.chargeAllocation permit with
    | (physical,.error _) =>
      some ({ self with physical }.resume c (.cancel permit (.failed .upload)))
    | (physical,.ok _) => some
      ({ self with physical }.resume c (.recheckBuilt admission { permit with charged := true }))
  | .recheckBuilt admission permit =>
    if self.isCurrent admission.key then some (self.resume c (.install admission permit))
    else some (self.resume c (.discard admission permit))
  | .install admission permit => do
    let (physical,result) ← self.physical.install permit
      (PhysicalRegistry.System.built permit ⟨c,admission.data⟩)
    let self := { self with physical }
    match result with
    | .error _ => return self.resume c (.finished (.failed .runtimeInvariant))
    | .ok entry => return self.resume c (.recheck admission entry)
  | .recheck admission entry =>
    if self.isCurrent admission.key then some (self.resume c (.dispatch admission entry))
    else some (self.resume c (.retire admission entry))
  | .retire admission entry => do
    let physical ← self.physical.retireKeyIfPresent admission.key
    return { self with physical }.resume c (.release entry.serial (.stale admission))
  | .dispatch admission entry =>
    some (self.resume c (.release entry.serial (.dispatched admission entry)))
  | .discard admission permit => do
    let physical ← self.physical.dropBuilt permit.serial
    return { self with physical }.resume c (.cancel permit (.stale admission))
  | .cancel permit outcome => do
    let physical ← self.physical.dropPermit permit
    return { self with physical }.resume c (.finished outcome)
  | .release serial outcome => do
    let physical ← self.physical.dropHandle serial
    return { self with physical }.resume c (.finished outcome)
  | .finished _ => none

def step (config : Config) (self : Backend δ) : Action δ → Option (Backend δ)
  | .logical operation contents =>
    match self.logical.step config operation with
    | .error _ => none
    | .ok (next,_) => some { self with
      logical := next
      payloads := fun key =>
        if admitted self.logical.cache next.cache key then contents key.expertId
        else self.payloads key }
  | .begin expertId => some { self with calls := self.calls++[.read expertId] }
  | .advance c choice => do
    let call ← self.calls[c]?
    self.advance c choice call

end Backend

/-- One step of a run. -/
structure Event (δ : Type) where
  before : Backend δ
  action : Action δ
  after : Backend δ

/-- A run with its steps, the last one first. -/
inductive Run (config : Config) (start : Backend δ) : List (Event δ) → Backend δ → Prop
  | nil : Run config start [] start
  | step {events : List (Event δ)} {system next : Backend δ} (earlier : Run config start events system)
    (action : Action δ) (step : system.step config action = some next) :
    Run config start (⟨system,action,next⟩::events) next

end MicroExpertRouter.Routing
