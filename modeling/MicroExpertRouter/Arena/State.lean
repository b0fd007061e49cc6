import Mathlib.Data.Finset.Card
import MicroExpertRouter.Arena.Layout

/-! The Q4 expert arena of `backend/gpu_native.rs`: slot owners, logical tables and the mapping
table, and the operations that run under the arena lock. Each operation returns the arena with
its result, because an error can follow a partial update. The mapping table is the fold of all
mapping writes and unpublish callbacks, indexed by expert; the byte offset of a `u32` id never
overflows. Slots at or beyond the capacity are never read. -/
namespace MicroExpertRouter.Arena

structure ExpertKey where
  layerIndex : ℕ
  expertId : ℕ
  logicalGeneration : ℕ
  deriving DecidableEq, Repr

structure MappingEntry where
  location : ℕ
  slotEpoch : ℕ
  deriving DecidableEq, Repr

def MappingEntry.unmapped : MappingEntry := ⟨expertUnmapped,0⟩

def MappingEntry.tryNew (location : ExpertLocation) (slotEpoch : ℕ) :
    Except BootstrapError MappingEntry :=
  if slotEpoch = 0 then .error (.invalidExpertSlotEpoch slotEpoch)
  else do return ⟨← location.pack,slotEpoch⟩

structure ExpertResidency where
  key : ExpertKey
  location : ExpertLocation
  slotEpoch : ℕ
  deriving DecidableEq, Repr

def ExpertResidency.mappingEntry (self : ExpertResidency) : Except BootstrapError MappingEntry :=
  MappingEntry.tryNew self.location self.slotEpoch

inductive SlotOwner
  | free
  | installing (key : ExpertKey) (slotEpoch installTicket : ℕ)
  | resident (residency : ExpertResidency)
  deriving DecidableEq, Repr

namespace SlotOwner

def key? : SlotOwner → Option ExpertKey
  | free => none
  | installing key _ _ => some key
  | resident residency => some residency.key

def epoch? : SlotOwner → Option ℕ
  | free => none
  | installing _ slotEpoch _ => some slotEpoch
  | resident residency => some residency.slotEpoch

def isResident : SlotOwner → Bool
  | resident _ => true
  | _ => false

end SlotOwner

structure PhysicalSlot where
  location : ExpertLocation
  lastEpoch : ℕ
  everInstalled : Bool
  owner : SlotOwner
  deriving DecidableEq, Repr

structure ResidencyCounters where
  expertSlotInstalls : ℕ := 0
  expertSlotRetires : ℕ := 0
  expertSlotReuses : ℕ := 0
  expertMappingPublications : ℕ := 0
  expertMappingUnpublications : ℕ := 0
  expertStaleInstallRejections : ℕ := 0
  expertInstallCancellations : ℕ := 0
  deriving DecidableEq, Repr

/-- `saturating_add(1)` on a `u64` counter. -/
def bump (count : ℕ) : ℕ := saturatingAdd u64Max count 1

structure ArenaState where
  slotCapacity : ℕ
  slots : ℕ → PhysicalSlot
  logicalSlots : ℕ → Option ℕ
  latestGenerations : ℕ → Option ℕ
  nextInstallTicket : ℕ
  counters : ResidencyCounters

structure ExpertArena where
  layerIndex : ℕ
  geometry : ExpertGeometry
  state : ArenaState
  mapping : ℕ → MappingEntry

structure InstallPermit where
  key : ExpertKey
  flatSlot : ℕ
  residency : ExpertResidency
  installTicket : ℕ
  reused : Bool
  deriving DecidableEq, Repr

inductive Acquire
  | hit (residency : ExpertResidency)
  | install (permit : InstallPermit)
  | installInProgress
  | staleRequester
  | noPhysicalSlot
  deriving DecidableEq, Repr

inductive Retire
  | retired
  | cancelledInstall
  | notResident
  | staleRequester
  deriving DecidableEq, Repr

namespace ArenaState

def owner (self : ArenaState) (flatSlot : ℕ) : SlotOwner := (self.slots flatSlot).owner

def setSlot (self : ArenaState) (flatSlot : ℕ) (slot : PhysicalSlot) : ArenaState :=
  { self with slots := Function.update self.slots flatSlot slot }

def setOwner (self : ArenaState) (flatSlot : ℕ) (owner : SlotOwner) : ArenaState :=
  self.setSlot flatSlot { self.slots flatSlot with owner := owner }

def setLogical (self : ArenaState) (logicalId : ℕ) (slot : Option ℕ) : ArenaState :=
  { self with logicalSlots := Function.update self.logicalSlots logicalId slot }

/-- Free a slot together with the logical entry that names it. -/
def release (self : ArenaState) (flatSlot logicalId : ℕ) : ArenaState :=
  (self.setOwner flatSlot .free).setLogical logicalId none

def residentSlots (self : ArenaState) : Finset ℕ :=
  (Finset.range self.slotCapacity).filter (fun slot => (self.owner slot).isResident = true)

def countCancellation (self : ArenaState) : ArenaState :=
  { self with counters := { self.counters with
    expertInstallCancellations := bump self.counters.expertInstallCancellations } }

def countStaleRejection (self : ArenaState) : ArenaState :=
  { self with counters := { self.counters with
    expertStaleInstallRejections := bump self.counters.expertStaleInstallRejections } }

/-- The two counters of an unpublished resident. -/
def countRetirement (self : ArenaState) : ArenaState :=
  { self with counters := { self.counters with
    expertSlotRetires := bump self.counters.expertSlotRetires
    expertMappingUnpublications := bump self.counters.expertMappingUnpublications } }

/-- The counters of a published install. -/
def countPublication (self : ArenaState) (reused : Bool) : ArenaState :=
  { self with counters := { self.counters with
    expertSlotInstalls := bump self.counters.expertSlotInstalls
    expertSlotReuses :=
      if reused then bump self.counters.expertSlotReuses else self.counters.expertSlotReuses
    expertMappingPublications := bump self.counters.expertMappingPublications } }

/-- First free slot whose epoch can still grow. -/
def freeSlot (self : ArenaState) : Option ℕ :=
  (List.range self.slotCapacity).find?
    (fun slot => self.owner slot = .free ∧ (self.slots slot).lastEpoch ≠ u32Max)

end ArenaState

def InstallPermit.reservationCurrent (self : InstallPermit) (state : ArenaState) : Prop :=
  state.latestGenerations self.key.expertId = some self.key.logicalGeneration ∧
    state.logicalSlots self.key.expertId = some self.flatSlot ∧
    state.owner self.flatSlot =
      .installing self.key self.residency.slotEpoch self.installTicket

instance (permit : InstallPermit) (state : ArenaState) :
    Decidable (permit.reservationCurrent state) :=
  inferInstanceAs (Decidable (_ ∧ _ ∧ _))

namespace ExpertArena

def unpublish (self : ExpertArena) (logicalId : ℕ) : ExpertArena :=
  { self with mapping := Function.update self.mapping logicalId .unmapped }

def rejectStale (self : ExpertArena) : ExpertArena :=
  { self with state := self.state.countStaleRejection }

/-- Unpublish and free a resident slot. -/
def retireSlot (self : ExpertArena) (flatSlot logicalId : ℕ) : ExpertArena :=
  { self.unpublish logicalId with
    state := (self.state.release flatSlot logicalId).countRetirement }

/-- Free an installing slot. -/
def cancelSlot (self : ExpertArena) (flatSlot logicalId : ℕ) : ExpertArena :=
  { self with state := (self.state.release flatSlot logicalId).countCancellation }

def cancelInstall (self : ExpertArena) (flatSlot installTicket : ℕ) : ExpertArena :=
  match self.state.owner flatSlot with
  | .installing key _ current =>
    if current = installTicket then
      let freed := self.state.setOwner flatSlot .free
      let state := if freed.logicalSlots key.expertId = some flatSlot
        then freed.setLogical key.expertId none else freed
      { self with state := state.countCancellation }
    else self
  | _ => self

def raiseGeneration (self : ExpertArena) (key : ExpertKey) : ExpertArena :=
  { self with state := { self.state with
    latestGenerations := Function.update self.state.latestGenerations key.expertId
      (some key.logicalGeneration) } }

/-- The permit for the next reservation of a slot. -/
def permitFor (self : ExpertArena) (flatSlot : ℕ) (key : ExpertKey) : InstallPermit :=
  let slot := self.state.slots flatSlot
  ⟨key,flatSlot,⟨key,slot.location,slot.lastEpoch+1⟩,self.state.nextInstallTicket,slot.everInstalled⟩

/-- Give a slot to the permit of its next reservation. -/
def occupy (self : ExpertArena) (flatSlot : ℕ) (key : ExpertKey) : ExpertArena :=
  let slot := self.state.slots flatSlot
  let installTicket := self.state.nextInstallTicket
  let occupied : PhysicalSlot := { slot with
    lastEpoch := slot.lastEpoch+1
    owner := .installing key (slot.lastEpoch+1) installTicket }
  let ticketed : ArenaState := { self.state with nextInstallTicket := installTicket+1 }
  { self with state := (ticketed.setSlot flatSlot occupied).setLogical key.expertId (some flatSlot) }

/-- The reserving tail of `acquire_with_unpublish`. -/
def reserve (self : ExpertArena) (key : ExpertKey) : ExpertArena × Except BootstrapError Acquire :=
  let raised := self.raiseGeneration key
  match raised.state.freeSlot with
  | none =>
    match (List.range raised.state.slotCapacity).find? (fun slot => raised.state.owner slot = .free)
      with
    | some exhausted =>
      let location := (raised.state.slots exhausted).location
      (raised,.error (.expertSlotEpochExhausted location.bank location.slot))
    | none => (raised,.ok .noPhysicalSlot)
  | some flatSlot =>
    if u64Max ≤ raised.state.nextInstallTicket then (raised,.error .expertInstallTicketExhausted)
    else (raised.occupy flatSlot key,.ok (.install (raised.permitFor flatSlot key)))

def acquire (self : ExpertArena) (key : ExpertKey) : ExpertArena × Except BootstrapError Acquire :=
  if key.layerIndex ≠ self.layerIndex then
    (self,.error (.expertLayerMismatch key.layerIndex self.layerIndex))
  else if self.geometry.numExperts ≤ key.expertId then
    (self,.error (.expertLogicalIdOutOfRange key.expertId self.geometry.numExperts))
  else if key.logicalGeneration = 0 then
    (self,.error (.invalidExpertLogicalGeneration key.logicalGeneration))
  else match self.state.latestGenerations key.expertId with
  | none => self.reserve key
  | some latest =>
    if key.logicalGeneration<latest then
      (self.rejectStale,.ok .staleRequester)
    else match self.state.logicalSlots key.expertId with
    | none => self.reserve key
    | some flatSlot =>
      if key.logicalGeneration = latest then
        (self,match self.state.owner flatSlot with
          | .resident residency =>
            if residency.key = key then .ok (.hit residency)
            else .error .expertInstallReservationLost
          | .installing installing _ _ =>
            if installing = key then .ok .installInProgress
            else .error .expertInstallReservationLost
          | .free => .error .expertInstallReservationLost)
      else match self.state.owner flatSlot with
      | .resident _ => (self.retireSlot flatSlot key.expertId).reserve key
      | .installing _ _ _ => (self.cancelSlot flatSlot key.expertId).reserve key
      | .free => (self,.error .expertInstallReservationLost)

def retire (self : ExpertArena) (key : ExpertKey) : ExpertArena × Except BootstrapError Retire :=
  if key.layerIndex ≠ self.layerIndex then
    (self,.error (.expertLayerMismatch key.layerIndex self.layerIndex))
  else if self.geometry.numExperts ≤ key.expertId then
    (self,.error (.expertLogicalIdOutOfRange key.expertId self.geometry.numExperts))
  else match self.state.latestGenerations key.expertId with
  | none => (self,.ok .notResident)
  | some latest =>
    if key.logicalGeneration<latest then (self,.ok .staleRequester)
    else if key.logicalGeneration ≠ latest then (self,.ok .notResident)
    else match self.state.logicalSlots key.expertId with
    | none => (self,.ok .notResident)
    | some flatSlot =>
      match self.state.owner flatSlot with
      | .resident residency =>
        if residency.key = key then (self.retireSlot flatSlot key.expertId,.ok .retired)
        else (self,.error .expertInstallReservationLost)
      | .installing installing _ _ =>
        if installing = key then (self.cancelSlot flatSlot key.expertId,.ok .cancelledInstall)
        else (self,.error .expertInstallReservationLost)
      | .free => (self,.error .expertInstallReservationLost)

/-- The mapping write and ownership change that end `commit_with_mapping_writer` and
`install_with_prepared_physical_writer`. -/
def publish (self : ExpertArena) (permit : InstallPermit) (entry : MappingEntry) : ExpertArena :=
  let slot := { self.state.slots permit.flatSlot with
    owner := .resident permit.residency
    everInstalled := true }
  { self with
    mapping := Function.update self.mapping permit.key.expertId entry
    state := (self.state.setSlot permit.flatSlot slot).countPublication permit.reused }

def validatePayload (geometry : ExpertGeometry) (logicalId : ℕ) (payload : List UInt8) :
    Except BootstrapError Unit :=
  let maximum := geometry.slotStrideBytes-expertSlotEpochBytes
  if payload.length<geometry.logicalExpertBytes then
    .error (.expertPayloadTooShort logicalId geometry.logicalExpertBytes payload.length)
  else if maximum<payload.length then
    .error (.expertPayloadTrailingBytes logicalId maximum payload.length)
  else if (payload.drop geometry.logicalExpertBytes).any (· ≠ 0) then
    .error (.expertPayloadNonZeroPadding logicalId)
  else .ok ()

/-- `CheckedPhysicalQ4ExpertSlot::new`. -/
def checkSlot (geometry : ExpertGeometry) (logicalId slotEpoch : ℕ) (payload : List UInt8) :
    Except BootstrapError Unit := do
  validatePayload geometry logicalId payload
  if slotEpoch = 0 then .error (.invalidExpertSlotEpoch slotEpoch) else .ok ()

/-- The part of `stage_with_checked_physical_writer` before the physical write. -/
def stageCheck (self : ExpertArena) (permit : InstallPermit) (payload : List UInt8) :
    ExpertArena × Except BootstrapError MappingEntry :=
  match checkSlot self.geometry permit.key.expertId permit.residency.slotEpoch payload with
  | .error e => (self,.error e)
  | .ok _ =>
    match permit.residency.mappingEntry with
    | .error e => (self,.error e)
    | .ok entry =>
      if permit.reservationCurrent self.state then (self,.ok entry)
      else (self.rejectStale,.error .expertInstallReservationLost)

def commit (self : ExpertArena) (permit : InstallPermit) (entry : MappingEntry) :
    ExpertArena × Except BootstrapError ExpertResidency :=
  if permit.reservationCurrent self.state then
    (self.publish permit entry,.ok permit.residency)
  else (self.rejectStale,.error .expertInstallReservationLost)

/-- How `install_with_prepared_physical_writer` leaves the permit: consumed, or still active
and therefore cancelled when it is dropped. -/
inductive PermitFate
  | consumed
  | dropped
  deriving DecidableEq, Repr

/-- `install_with_prepared_physical_writer`, with `write` the result of the physical writer. -/
def install (self : ExpertArena) (permit : InstallPermit) (write : Except BootstrapError Unit) :
    ExpertArena × PermitFate × Except BootstrapError ExpertResidency :=
  match permit.residency.mappingEntry with
  | .error e => (self,.dropped,.error e)
  | .ok entry =>
    if permit.reservationCurrent self.state then
      match write with
      | .error e => (self,.dropped,.error e)
      | .ok _ => (self.publish permit entry,.consumed,.ok permit.residency)
    else (self.rejectStale,.consumed,.error .expertInstallReservationLost)

end ExpertArena

end MicroExpertRouter.Arena
