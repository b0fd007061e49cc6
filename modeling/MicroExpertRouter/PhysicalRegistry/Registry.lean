import MicroExpertRouter.Lib.Lru
import MicroExpertRouter.Lib.Machine

/-! The registry of expert weights on the device and its byte ledger, of `backend/mod.rs`, together
with what its users hold: install permits, allocation leases and handles on entries. An operation
in which an assertion or an `expect` fires has no result. -/
namespace MicroExpertRouter.PhysicalRegistry

structure PhysicalExpertKey where
  expertId : ℕ
  generation : ℕ
  deriving DecidableEq, Repr

/-- An entry behind an `Arc`. Its serial tells the allocation whose lease it owns. -/
structure Entry (π : Type) where
  physicalKey : PhysicalExpertKey
  deviceBytes : ℕ
  serial : ℕ
  payload : π
  deriving DecidableEq

/-- The charge of one allocation. -/
structure ExpertAllocationLease where
  serial : ℕ
  bytes : ℕ
  deriving DecidableEq, Repr

structure InstallReservation where
  bytes : ℕ
  charged : Bool
  deriving DecidableEq, Repr

/-- A permit that is still active. -/
structure PhysicalInstallPermit where
  serial : ℕ
  key : PhysicalExpertKey
  bytes : ℕ
  charged : Bool
  deriving DecidableEq, Repr

structure PhysicalCapacityError where
  requestedBytes : ℕ
  expertCapacityBytes : ℕ
  expertLiveBytes : ℕ
  expertRegistryBytes : ℕ
  reservedBytes : ℕ
  deriving DecidableEq, Repr

/-- The registry (with its most recently used entry first), the ledger, and what is held outside:
permits, all leases, the serials of those leases whose entry is still being built, and one entry
for each handle in flight. -/
structure System (π : Type) where
  expertCapacityBytes : ℕ
  entries : List (ℕ × Entry π)
  registryBytes : ℕ
  reservedBytes : ℕ
  installing : List (PhysicalExpertKey × InstallReservation)
  installs : ℕ
  evictions : ℕ
  staleRetirements : ℕ
  expertLiveBytes : ℕ
  permits : List PhysicalInstallPermit
  leases : List ExpertAllocationLease
  building : List ℕ
  inFlight : List (Entry π)
  nextSerial : ℕ

inductive PhysicalRegistryLookup (π : Type)
  | hit (entry : Entry π)
  | miss
  | staleRequester

inductive PhysicalRegistryAcquire (π : Type)
  | hit (entry : Entry π)
  | install (permit : PhysicalInstallPermit)
  | staleRequester
  | waits

namespace System
variable {π : Type}

def new (expertCapacityBytes : ℕ) : System π :=
  ⟨expertCapacityBytes,[],0,0,[],0,0,0,0,[],[],[],[],0⟩

section Leases

/-- An entry with this serial is addressable or in flight. -/
def held (self : System π) (serial : ℕ) : Bool :=
  self.entries.any (fun slot => slot.2.serial = serial) ||
    self.inFlight.any (fun entry => entry.serial = serial)

/-- `ExpertAllocationLease::drop`. -/
def dropLease (self : System π) (serial : ℕ) : Option (System π) :=
  match self.leases.find? fun lease => lease.serial = serial with
  | none => some self
  | some lease => do
    let live ← checkedSub self.expertLiveBytes lease.bytes
    return { self with
      expertLiveBytes := live
      leases := self.leases.filter fun other => other.serial ≠ serial }

/-- The end of one handle on an entry, which ends the entry if there is no other. -/
def dropArc (self : System π) (serial : ℕ) : Option (System π) :=
  if self.held serial then some self else self.dropLease serial

def dropHandle (self : System π) (serial : ℕ) : Option (System π) :=
  match self.inFlight.find? fun entry => entry.serial = serial with
  | none => some self
  | some _ =>
    dropArc { self with
      inFlight := self.inFlight.eraseP fun entry => entry.serial = serial } serial

/-- The end of an entry that was never installed. -/
def dropBuilt (self : System π) (serial : ℕ) : Option (System π) :=
  if serial ∈ self.building then
    dropLease { self with building := self.building.filter fun other => other ≠ serial } serial
  else some self

/-- The end of what owns a lease outside the registry. -/
def dropOwner (self : System π) (serial : ℕ) : Option (System π) := do
  let self ← self.dropHandle serial
  self.dropBuilt serial

def dropOwners (self : System π) (serials : List ℕ) : Option (System π) :=
  serials.foldlM dropOwner self

end Leases

section Registry

/-- Hand out a clone of an `Arc`. -/
def share (self : System π) (entry : Entry π) : System π :=
  { self with inFlight := entry::self.inFlight }

def retireEntryLocked (self : System π) (expertId : ℕ) : Option (System π) := do
  let stale ← Lru.peek self.entries expertId
  let registryBytes ← checkedSub self.registryBytes stale.deviceBytes
  dropArc { self with
    entries := Lru.pop self.entries expertId
    registryBytes := registryBytes
    staleRetirements := saturatingAdd u64Max self.staleRetirements 1 } stale.serial

def lookupCurrentLocked (self : System π) (key : PhysicalExpertKey) :
    Option (System π × PhysicalRegistryLookup π) :=
  match Lru.peek self.entries key.expertId with
  | none => some (self,.miss)
  | some existing =>
    if existing.physicalKey.expertId ≠ key.expertId then none
    else if existing.physicalKey.generation = key.generation then
      some (share { self with entries := Lru.touch self.entries key.expertId } existing,
        .hit existing)
    else if key.generation<existing.physicalKey.generation then some (self,.staleRequester)
    else do
      let retired ← self.retireEntryLocked key.expertId
      return (retired,.miss)

/-- The addressable entry has exactly this key. -/
def current (self : System π) (key : PhysicalExpertKey) : Bool :=
  match Lru.peek self.entries key.expertId with
  | none => false
  | some entry => entry.physicalKey = key

def touchAllCurrent (self : System π) (keys : List PhysicalExpertKey) : Option (System π × Bool) :=
  if keys.all self.current then do
    let entries ← keys.foldlM (fun entries key => do
      let _ ← Lru.peek entries key.expertId
      return Lru.touch entries key.expertId) self.entries
    return ({ self with entries := entries },true)
  else some (self,false)

def retireLogicalMiss (self : System π) (expertId : ℕ) : Option (System π) :=
  if (Lru.peek self.entries expertId).isSome then self.retireEntryLocked expertId else some self

def retireKeyIfPresent (self : System π) (key : PhysicalExpertKey) : Option (System π) :=
  if self.current key then self.retireEntryLocked key.expertId else some self

end Registry

section Installs

def installFits (self : System π) (bytes : ℕ) : Bool :=
  let fits (held : ℕ) := match checkedAdd u64Max held self.reservedBytes with
    | none => false
    | some used => match checkedAdd u64Max used bytes with
      | none => false
      | some used => decide (used ≤ self.expertCapacityBytes)
  fits self.registryBytes && fits self.expertLiveBytes

def capacityError (self : System π) (requestedBytes expertRegistryBytes reservedBytes : ℕ) :
    PhysicalCapacityError :=
  ⟨requestedBytes,self.expertCapacityBytes,self.expertLiveBytes,expertRegistryBytes,reservedBytes⟩

/-- The eviction loop of `acquire_or_reserve` over the entries, the least recently used first;
whether the install fits in the end. Before each test other threads may drop handles and entries
they have built, for which they do not need the lock. -/
def makeRoom (bytes : ℕ) : List (ℕ × Entry π) → List (List ℕ) → System π →
    Option (System π × Bool)
  | [], drops, self => do
    let self ← self.dropOwners (drops.headD [])
    return (self,self.installFits bytes)
  | (_,victim)::victims, drops, self => do
    let self ← self.dropOwners (drops.headD [])
    if self.installFits bytes then return (self,true)
    else do
      let registryBytes ← checkedSub self.registryBytes victim.deviceBytes
      let self ← dropArc { self with
        entries := victims.reverse
        registryBytes := registryBytes
        evictions := saturatingAdd u64Max self.evictions 1 } victim.serial
      makeRoom bytes victims drops.tail self

/-- The reservation at the end of `acquire_or_reserve`. -/
def reserve (self : System π) (key : PhysicalExpertKey) (bytes : ℕ) :
    Option (System π × PhysicalInstallPermit) := do
  let reservedBytes ← checkedAdd u64Max self.reservedBytes bytes
  if (Lru.peek self.installing key).isSome then none
  else
    let permit := ⟨self.nextSerial,key,bytes,false⟩
    return ({ self with
      reservedBytes := reservedBytes
      installing := Lru.put self.installing key ⟨bytes,false⟩
      permits := permit::self.permits
      nextSerial := self.nextSerial+1 },permit)

/-- One turn of the loop of `acquire_or_reserve`: a requester that has to wait tries again. -/
def acquireOrReserve (self : System π) (key : PhysicalExpertKey) (bytes : ℕ)
    (drops : List (List ℕ)) :
    Option (System π × Except PhysicalCapacityError (PhysicalRegistryAcquire π)) :=
  if bytes = 0 ∨ self.expertCapacityBytes<bytes then
    some (self,.error (self.capacityError bytes 0 0))
  else do
    let (self,found) ← self.lookupCurrentLocked key
    match found with
    | .hit entry => return (self,.ok (.hit entry))
    | .staleRequester => return (self,.ok .staleRequester)
    | .miss =>
      if self.installing.any fun install => install.1.expertId = key.expertId then
        return (self,.ok .waits)
      else do
        let (self,fits) ← makeRoom bytes self.entries.reverse drops self
        if fits then do
          let (self,permit) ← self.reserve key bytes
          return (self,.ok (.install permit))
        else return (self,.error (self.capacityError bytes self.registryBytes self.reservedBytes))

/-- `GpuMemoryLedger::acquire`: the live bytes with the new ones. -/
def ledgerAcquire (self : System π) (bytes : ℕ) : Except String ℕ :=
  let capacity := self.expertCapacityBytes
  let live := self.expertLiveBytes
  if bytes = 0 then .error "physical expert allocation must be non-zero"
  else match checkedAdd u64Max live bytes with
    | none => .error (s!"physical expert live-byte ledger capacity/overflow: capacity={capacity} "++
        s!"live={live} add={bytes}")
    | some next =>
      if capacity<next then
        .error (s!"physical expert live-byte ledger capacity/overflow: capacity={capacity} "++
          s!"live={live} add={bytes}")
      else .ok next

def chargeAllocation (self : System π) (permit : PhysicalInstallPermit) :
    System π × Except String ExpertAllocationLease :=
  if permit.charged then (self,.error "physical install permit is not chargeable")
  else match Lru.peek self.installing permit.key with
    | none => (self,.error "physical install reservation disappeared")
    | some reservation =>
      if reservation.charged ∨ reservation.bytes ≠ permit.bytes then
        (self,.error "physical install reservation state mismatch")
      else match self.ledgerAcquire permit.bytes with
        | .error e => (self,.error e)
        | .ok live => match checkedSub self.reservedBytes permit.bytes with
          | none => (self,.error "physical install reserved-byte underflow")
          | some reservedBytes =>
            ({ self with
              expertLiveBytes := live
              reservedBytes := reservedBytes
              installing := self.installing.map fun install =>
                if install.1 = permit.key then (install.1,{ install.2 with charged := true })
                else install
              permits := self.permits.map fun other =>
                if other.serial = permit.serial then { other with charged := true } else other
              leases := ⟨permit.serial,permit.bytes⟩::self.leases
              building := permit.serial::self.building },
              .ok ⟨permit.serial,permit.bytes⟩)

/-- `PhysicalInstallPermit::drop`. -/
def dropPermit (self : System π) (permit : PhysicalInstallPermit) : Option (System π) :=
  let self := { self with permits := self.permits.filter fun other => other.serial ≠ permit.serial }
  match Lru.peek self.installing permit.key with
  | none => some self
  | some reservation =>
    let self := { self with installing := Lru.pop self.installing permit.key }
    if reservation.charged then some self
    else do
      let reservedBytes ← checkedSub self.reservedBytes reservation.bytes
      return { self with reservedBytes := reservedBytes }

/-- The tests of `install`. -/
def checkInstall (self : System π) (permit : PhysicalInstallPermit) (entry : Entry π) :
    Except String ℕ :=
  if ¬ permit.charged then .error "physical install permit was not charged"
  else if entry.physicalKey ≠ permit.key ∨ entry.deviceBytes ≠ permit.bytes then
    .error "physical install entry does not match its reservation"
  else match Lru.peek self.installing permit.key with
    | none => .error "physical install reservation disappeared"
    | some reservation =>
      if ¬ reservation.charged ∨ reservation.bytes ≠ permit.bytes then
        .error "physical install reservation state mismatch"
      else if (Lru.peek self.entries permit.key.expertId).isSome then
        .error "physical entry appeared while its keyed install was reserved"
      else match checkedAdd u64Max self.registryBytes permit.bytes with
        | none => .error "physical registry byte overflow"
        | some newRegistryBytes =>
          if self.expertCapacityBytes<newRegistryBytes then
            .error "physical registry exceeded configured capacity"
          else .ok newRegistryBytes

/-- `install` takes the permit and the entry; when it fails both are dropped. -/
def install (self : System π) (permit : PhysicalInstallPermit) (entry : Entry π) :
    Option (System π × Except String (Entry π)) :=
  match self.checkInstall permit entry with
  | .error e => do
    let self ← self.dropBuilt entry.serial
    let self ← self.dropPermit permit
    return (self,.error e)
  | .ok newRegistryBytes =>
    some ({ self with
      installing := Lru.pop self.installing permit.key
      entries := Lru.put self.entries permit.key.expertId entry
      registryBytes := newRegistryBytes
      installs := saturatingAdd u64Max self.installs 1
      permits := self.permits.filter fun other => other.serial ≠ permit.serial
      building := self.building.filter fun other => other ≠ entry.serial
      inFlight := entry::self.inFlight },.ok entry)

end Installs

end System

/-- What a requester does. Permits, leases and handles are told by their serials; `drops` are the
owners of leases that other threads drop while the operation runs. -/
inductive Operation (π : Type)
  | lookupCurrent (key : PhysicalExpertKey)
  | touchAllCurrent (keys : List PhysicalExpertKey)
  | acquireOrReserve (key : PhysicalExpertKey) (bytes : ℕ) (drops : List (List ℕ))
  | chargeAllocation (serial : ℕ)
  | install (serial : ℕ) (payload : π)
  | dropPermit (serial : ℕ)
  | dropBuilt (serial : ℕ)
  | retireLogicalMiss (expertId : ℕ)
  | retireKeyIfPresent (key : PhysicalExpertKey)
  | dropHandle (serial : ℕ)

inductive Outcome (π : Type)
  | unit
  | found (lookup : PhysicalRegistryLookup π)
  | touched (all : Bool)
  | acquired (result : Except PhysicalCapacityError (PhysicalRegistryAcquire π))
  | charged (result : Except String ExpertAllocationLease)
  | installed (result : Except String (Entry π))

namespace System
variable {π : Type}

def permit (self : System π) (serial : ℕ) : Option PhysicalInstallPermit :=
  self.permits.find? fun permit => permit.serial = serial

/-- The entry that is built with a permit. -/
def built (permit : PhysicalInstallPermit) (payload : π) : Entry π :=
  ⟨permit.key,permit.bytes,permit.serial,payload⟩

/-- One operation. Nothing happens with a permit, a lease or a handle that is not there; an entry is
only installed while it owns its lease. -/
def step (self : System π) : Operation π → Option (System π × Outcome π)
  | .lookupCurrent key => do
    let (self,found) ← self.lookupCurrentLocked key
    return (self,.found found)
  | .touchAllCurrent keys => do
    let (self,all) ← self.touchAllCurrent keys
    return (self,.touched all)
  | .acquireOrReserve key bytes drops => do
    let (self,result) ← self.acquireOrReserve key bytes drops
    return (self,.acquired result)
  | .chargeAllocation serial => match self.permit serial with
    | none => some (self,.unit)
    | some permit => some ((self.chargeAllocation permit).1,.charged (self.chargeAllocation permit).2)
  | .install serial payload => match self.permit serial with
    | none => some (self,.unit)
    | some permit =>
      if serial ∈ self.building then do
        let (self,result) ← self.install permit (built permit payload)
        return (self,.installed result)
      else some (self,.unit)
  | .dropPermit serial => match self.permit serial with
    | none => some (self,.unit)
    | some permit => do
      let self ← self.dropPermit permit
      return (self,.unit)
  | .dropBuilt serial => do
    let self ← self.dropBuilt serial
    return (self,.unit)
  | .retireLogicalMiss expertId => do
    let self ← self.retireLogicalMiss expertId
    return (self,.unit)
  | .retireKeyIfPresent key => do
    let self ← self.retireKeyIfPresent key
    return (self,.unit)
  | .dropHandle serial => do
    let self ← self.dropHandle serial
    return (self,.unit)

/-- A run of operations of any requesters, as long as nothing panics. -/
def run (self : System π) (operations : List (Operation π)) : Option (System π) :=
  operations.foldlM (fun system operation => (system.step operation).map Prod.fst) self

end System

end MicroExpertRouter.PhysicalRegistry
