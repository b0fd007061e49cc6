import MicroExpertRouter.Arena.System
import MicroExpertRouter.Lib.Lru

/-! The tiered residency manager of `gpu_native_residency.rs`: one expert arena and one recency
list for each layer, and the transactions that bring a demand set or a speculative expert into
the arena. What a call cannot decide itself (the logical cache, the device, the order in which
the staging threads run) is an environment. Telemetry counters and observers are left out. -/
namespace MicroExpertRouter.Residency
open Arena

inductive TieredResidencyError
  | invalidModelLayerCount
  | invalidExpertsPerLayer
  | expertNamespaceOverflow (numLayers expertsPerLayer : ℕ)
  | globalExpertOutOfRange (globalId numLayers expertsPerLayer : ℕ)
  | layerOutOfRange (layerIndex numLayers : ℕ)
  | duplicateDemandExpert (globalId : ℕ)
  | demandLayerMismatch (requestedLayer globalId actualLayer : ℕ)
  | demandSetExceedsLayerCapacity (requested capacity : ℕ)
  | demandSourceMissing (globalId : ℕ)
  | demandSourceIdentityMismatch (globalId : ℕ)
  | logicalAdmissionStale (globalId generation : ℕ)
  | installInProgress (globalId generation : ℕ)
  | noPhysicalSlot (layerIndex : ℕ)
  | noEvictablePhysicalSlot (layerIndex : ℕ)
  | stalePhysicalRequester (globalId generation : ℕ)
  | physicalIdentityCorrupt (globalId : ℕ)
  | residencyPriorityMismatch
  | backend (error : BootstrapError)
  deriving DecidableEq, Repr

/-- The model-wide expert ids: every layer has the same number of experts. -/
structure Namespace where
  numLayers : ℕ
  expertsPerLayer : ℕ

structure LayerExpertId where
  layerIndex : ℕ
  localExpertId : ℕ
  deriving DecidableEq, Repr

namespace Namespace

def validate (self : Namespace) : Except TieredResidencyError Unit :=
  if self.numLayers = 0 then .error .invalidModelLayerCount
  else if self.expertsPerLayer = 0 then .error .invalidExpertsPerLayer
  else if u32Max+1<self.numLayers*self.expertsPerLayer then
    .error (.expertNamespaceOverflow self.numLayers self.expertsPerLayer)
  else .ok ()

/-- `global_to_layer_local`. -/
def identity (self : Namespace) (globalId : ℕ) : Except TieredResidencyError LayerExpertId := do
  self.validate
  let layerIndex := globalId/self.expertsPerLayer
  if self.numLayers ≤ layerIndex then
    .error (.globalExpertOutOfRange globalId self.numLayers self.expertsPerLayer)
  else .ok ⟨layerIndex,globalId % self.expertsPerLayer⟩

/-- `global_to_q4_expert_key`. -/
def expertKey (self : Namespace) (globalId logicalGeneration : ℕ) :
    Except TieredResidencyError ExpertKey := do
  let identity ← self.identity globalId
  return ⟨identity.layerIndex,identity.localExpertId,logicalGeneration⟩

end Namespace

structure PhysicalRecord where
  key : ExpertKey
  residency : ExpertResidency
  deriving DecidableEq, Repr

/-- A layer's arena with the state its lock guards; residents are most recently used first. -/
structure LayerResidency where
  arena : ExpertArena
  residents : List (ℕ × PhysicalRecord)
  lastInstalledGenerations : ℕ → Option ℕ
  physicalEvictions : ℕ

/-- The RAM-resident bytes of an expert and its logical admission. -/
structure Source where
  residentId : ℕ
  admissionId : ℕ
  generation : ℕ
  data : List UInt8

inductive DemandExpert
  | current (globalId : ℕ)
  | install (globalId : ℕ) (source : Source)

def DemandExpert.globalId : DemandExpert → ℕ
  | current globalId => globalId
  | install globalId _ => globalId

inductive Priority
  | demand
  | oracleSafeBoundary
  | speculative
  deriving DecidableEq, Repr

inductive InstallPath
  | productionConcurrentDirectStaging
  | qualificationConcurrentDirectStagingFullZero
  | qualificationConcurrentDirectStagingNoZeroFill
  | sequentialDirectStagingControl
  | legacyFullSlotVecControl
  deriving DecidableEq, Repr

/-- The paths of the split reserve, stage and commit transaction. -/
def InstallPath.isConcurrent : InstallPath → Bool
  | productionConcurrentDirectStaging => true
  | qualificationConcurrentDirectStagingFullZero => true
  | qualificationConcurrentDirectStagingNoZeroFill => true
  | sequentialDirectStagingControl => false
  | legacyFullSlotVecControl => false

inductive SpeculativeInstall
  | hit (residency : ExpertResidency)
  | installed (residency : ExpertResidency)
  | droppedCapacityOrPressure
  | staleLogicalGeneration
  deriving DecidableEq, Repr

/-- `ReservedPhysicalInstall`. -/
structure ReservedInstall where
  globalId : ℕ
  source : Source
  key : ExpertKey
  permit : InstallPermit

/-- The answers of everything outside the manager during one call, by expert. An expert asks
each question at most once in a call. -/
structure Environment where
  /-- `contains_generation` when the source is validated. -/
  sourceCurrent : ℕ → Bool
  /-- `contains_generation` when a speculative install rechecks under the lock. -/
  stillCurrent : ℕ → Bool
  /-- `contains_generation` after the expert has been published. -/
  admissionCurrent : ℕ → Bool
  /-- The executor's own checks before a reservation, a stage, a commit and a retirement. -/
  acquireGate : ℕ → Except BootstrapError Unit
  stageGate : ℕ → Except BootstrapError Unit
  commitGate : ℕ → Except BootstrapError Unit
  retireGate : ℕ → Except BootstrapError Unit
  /-- The physical writer. -/
  physicalWrite : ℕ → Except BootstrapError Unit
  /-- The check of the source-upload state, and the submission of its copies. -/
  uploadState : Except BootstrapError Unit
  copySubmit : Except BootstrapError Unit
  /-- The order in which the staging threads get to the arena. -/
  schedule : List ReservedInstall → List ReservedInstall
  schedule_perm : ∀ reserved, (schedule reserved).Perm reserved
  /-- Whether a speculative call finds the layer lock free. -/
  lockFree : Bool

/-- Lift a backend result, as `?` does through `From`. -/
def liftBackend {α : Type} : Except BootstrapError α → Except TieredResidencyError α
  | .error e => .error (.backend e)
  | .ok a => .ok a

/-- `contains_exact_residency`; the manager's arenas belong to its own executor context. -/
def containsExactResidency (arena : ExpertArena) (residency : ExpertResidency) : Bool :=
  if residency.key.layerIndex ≠ arena.layerIndex then false
  else match arena.state.logicalSlots residency.key.expertId with
  | none => false
  | some flatSlot =>
    arena.state.latestGenerations residency.key.expertId = some residency.key.logicalGeneration ∧
      (arena.state.slots flatSlot).location = residency.location ∧
      (arena.state.slots flatSlot).lastEpoch = residency.slotEpoch ∧
      arena.state.owner flatSlot = .resident residency

def validateSource (env : Environment) (globalId : ℕ) (source : Source) :
    Except TieredResidencyError Unit :=
  if source.residentId ≠ globalId ∨ source.admissionId ≠ globalId then
    .error (.demandSourceIdentityMismatch globalId)
  else if env.sourceCurrent globalId = false then
    .error (.logicalAdmissionStale globalId source.generation)
  else .ok ()

/-- The checks of a demand list before the layer is locked, given the experts already seen. -/
def checkDemands (space : Namespace) (env : Environment) (layerIndex : ℕ) :
    List ℕ → List DemandExpert → Except TieredResidencyError Unit
  | _, [] => .ok ()
  | seen, demand::demands =>
    let globalId := demand.globalId
    if globalId ∈ seen then .error (.duplicateDemandExpert globalId)
    else do
      let identity ← space.identity globalId
      if identity.layerIndex ≠ layerIndex then
        .error (.demandLayerMismatch layerIndex globalId identity.layerIndex)
      else do
        match demand with
        | .current _ => pure ()
        | .install _ source => validateSource env globalId source
        checkDemands space env layerIndex (globalId::seen) demands

namespace LayerResidency

def setArena (self : LayerResidency) (arena : ExpertArena) : LayerResidency :=
  { self with arena := arena }

/-- `current_record_locked` with a touch. -/
def currentRecord (self : LayerResidency) (space : Namespace) (globalId : ℕ) :
    LayerResidency × Except TieredResidencyError (Option PhysicalRecord) :=
  match Lru.peek self.residents globalId with
  | none => (self,.ok none)
  | some record =>
    match space.identity globalId with
    | .error e => (self,.error e)
    | .ok identity =>
      if record.key.layerIndex ≠ identity.layerIndex ∨ record.key.expertId ≠ identity.localExpertId ∨
          record.residency.key ≠ record.key ∨ self.arena.layerIndex ≠ identity.layerIndex ∨
          containsExactResidency self.arena record.residency = false then
        (self,.error (.physicalIdentityCorrupt globalId))
      else ({ self with residents := Lru.touch self.residents globalId },.ok (some record))

/-- The hit loop: residencies found, and the misses in request order. -/
def resolveHits (self : LayerResidency) (space : Namespace) :
    List DemandExpert → (ℕ → Option ExpertResidency) → List (ℕ × Source) →
      LayerResidency × Except TieredResidencyError
        ((ℕ → Option ExpertResidency) × List (ℕ × Source))
  | [], resolved, misses => (self,.ok (resolved,misses))
  | demand::demands, resolved, misses =>
    match self.currentRecord space demand.globalId with
    | (layer,.error e) => (layer,.error e)
    | (layer,.ok (some record)) =>
      layer.resolveHits space demands
        (Function.update resolved demand.globalId (some record.residency)) misses
    | (layer,.ok none) =>
      match demand with
      | .install globalId source =>
        layer.resolveHits space demands resolved (misses++[(globalId,source)])
      | .current globalId => (layer,.error (.demandSourceMissing globalId))

/-- `retire_metadata_record_locked` for a capacity eviction. -/
def evict (self : LayerResidency) (env : Environment) (globalId : ℕ) :
    LayerResidency × Except TieredResidencyError Unit :=
  match Lru.peek self.residents globalId with
  | none => (self,.ok ())
  | some record =>
    match env.retireGate globalId with
    | .error e => (self,.error (.backend e))
    | .ok _ =>
      match self.arena.retire record.key with
      | (arena,.error e) => (self.setArena arena,.error (.backend e))
      | (arena,.ok _) =>
        ({ self with
          arena := arena
          residents := Lru.pop self.residents globalId
          physicalEvictions := saturatingAdd u64Max self.physicalEvictions 1 },.ok ())

/-- The eviction loop; a turn with a victim removes one resident, so that as many turns as there
are residents suffice. -/
def makeRoom (env : Environment) (protect : ℕ → Bool) (wanted : ℕ) :
    ℕ → LayerResidency → LayerResidency × Except TieredResidencyError Unit
  | turns, self =>
    if self.residents.length+wanted ≤ self.arena.state.slotCapacity then (self,.ok ())
    else match Lru.oldest self.residents (fun globalId => !protect globalId) with
    | none => (self,.error (.noEvictablePhysicalSlot self.arena.layerIndex))
    | some victim =>
      match turns with
      | 0 => (self,.error (.noEvictablePhysicalSlot self.arena.layerIndex))
      | turns+1 =>
        match self.evict env victim with
        | (layer,.error e) => (layer,.error e)
        | (layer,.ok _) => makeRoom env protect wanted turns layer

/-- Record a published expert. -/
def record (self : LayerResidency) (globalId : ℕ) (key : ExpertKey) (residency : ExpertResidency) :
    LayerResidency :=
  { self with
    residents := Lru.put self.residents globalId ⟨key,residency⟩
    lastInstalledGenerations := Function.update self.lastInstalledGenerations globalId
      (some key.logicalGeneration) }

/-- Retire an expert whose logical admission went stale while it was being published. -/
def withdraw (self : LayerResidency) (env : Environment) (globalId : ℕ) (key : ExpertKey) :
    LayerResidency × TieredResidencyError :=
  match env.retireGate globalId with
  | .error e => (self,.backend e)
  | .ok _ =>
    match self.arena.retire key with
    | (arena,.error e) => (self.setArena arena,.backend e)
    | (arena,.ok _) => (self.setArena arena,.logicalAdmissionStale globalId key.logicalGeneration)

end LayerResidency

/-- Dropping permits cancels their installs. -/
def dropPermits (arena : ExpertArena) (permits : List InstallPermit) : ExpertArena :=
  permits.foldl (fun arena permit => arena.cancelInstall permit.flatSlot permit.installTicket) arena

def LayerResidency.abandon (self : LayerResidency) (permits : List InstallPermit) :
    LayerResidency :=
  self.setArena (dropPermits self.arena permits)

/-- One turn of the reservation loop. -/
def reserveOne (space : Namespace) (env : Environment) (arena : ExpertArena) (miss : ℕ × Source) :
    ExpertArena × Except TieredResidencyError ReservedInstall :=
  match space.expertKey miss.1 miss.2.generation with
  | .error e => (arena,.error e)
  | .ok key =>
    match env.acquireGate miss.1 with
    | .error e => (arena,.error (.backend e))
    | .ok _ =>
      match arena.acquire key with
      | (arena,.error e) => (arena,.error (.backend e))
      | (arena,.ok (.install permit)) => (arena,.ok ⟨miss.1,miss.2,key,permit⟩)
      | (arena,.ok (.hit _)) => (arena,.error (.physicalIdentityCorrupt miss.1))
      | (arena,.ok .installInProgress) =>
        (arena,.error (.installInProgress miss.1 miss.2.generation))
      | (arena,.ok .staleRequester) =>
        (arena,.error (.stalePhysicalRequester miss.1 miss.2.generation))
      | (arena,.ok .noPhysicalSlot) => (arena,.error (.noPhysicalSlot key.layerIndex))

/-- Reserve every miss; a failure drops the permits taken before it. -/
def reserveMisses (space : Namespace) (env : Environment) :
    List (ℕ × Source) → ExpertArena → List ReservedInstall →
      ExpertArena × Except TieredResidencyError (List ReservedInstall)
  | [], arena, reserved => (arena,.ok reserved)
  | miss::misses, arena, reserved =>
    match reserveOne space env arena miss with
    | (arena,.error e) => (dropPermits arena (reserved.map ReservedInstall.permit),.error e)
    | (arena,.ok next) => reserveMisses space env misses arena (reserved++[next])

/-- Stage one reserved install; a failed stage drops its permit. -/
def stageOne (env : Environment) (arena : ExpertArena) (reserved : ReservedInstall) :
    ExpertArena × Except TieredResidencyError MappingEntry :=
  let permit := reserved.permit
  let fail := fun (arena : ExpertArena) (e : BootstrapError) =>
    (arena.cancelInstall permit.flatSlot permit.installTicket,.error (.backend e))
  match env.stageGate reserved.globalId with
  | .error e => fail arena e
  | .ok _ =>
    match arena.stageCheck permit reserved.source.data with
    | (arena,.error e) => fail arena e
    | (arena,.ok entry) =>
      match env.physicalWrite reserved.globalId with
      | .error e => fail arena e
      | .ok _ => (arena,.ok entry)

/-- Stage installs in the given order, collecting the results by expert. -/
def stageAll (env : Environment) : List ReservedInstall → ExpertArena →
    (ℕ → Except TieredResidencyError MappingEntry) →
      ExpertArena × (ℕ → Except TieredResidencyError MappingEntry)
  | [], arena, staged => (arena,staged)
  | reserved::rest, arena, staged =>
    let (arena,result) := stageOne env arena reserved
    stageAll env rest arena (Function.update staged reserved.globalId result)

/-- The permits of the staged installs among these. -/
def preparedPermits (staged : ℕ → Except TieredResidencyError MappingEntry)
    (reserved : List ReservedInstall) : List InstallPermit :=
  (reserved.filter (fun install => (staged install.globalId).isOk)).map ReservedInstall.permit

/-- Commit in request order up to the first failed stage; what is left is dropped. -/
def commitStaged (env : Environment) (staged : ℕ → Except TieredResidencyError MappingEntry) :
    List ReservedInstall → LayerResidency → (ℕ → Option ExpertResidency) →
      LayerResidency × Except TieredResidencyError (ℕ → Option ExpertResidency)
  | [], layer, resolved => (layer,.ok resolved)
  | install::rest, layer, resolved =>
    let left := preparedPermits staged rest
    match staged install.globalId with
    | .error e => (layer.abandon left,.error e)
    | .ok entry =>
      match env.commitGate install.globalId with
      | .error e => (layer.abandon (install.permit::left),.error (.backend e))
      | .ok _ =>
        match layer.arena.commit install.permit entry with
        | (arena,.error e) =>
          ((layer.setArena arena).abandon (install.permit::left),.error (.backend e))
        | (arena,.ok residency) =>
          let layer := layer.setArena arena
          if env.admissionCurrent install.globalId then
            commitStaged env staged rest (layer.record install.globalId install.key residency)
              (Function.update resolved install.globalId (some residency))
          else
            let (layer,error) := layer.withdraw env install.globalId install.key
            (layer.abandon left,.error error)

/-- `install_parallel_physical_misses_locked`. -/
def installParallelMisses (space : Namespace) (env : Environment) (layer : LayerResidency)
    (misses : List (ℕ × Source)) (resolved : ℕ → Option ExpertResidency) :
    LayerResidency × Except TieredResidencyError (ℕ → Option ExpertResidency) :=
  if misses.isEmpty then (layer,.ok resolved)
  else match reserveMisses space env misses layer.arena [] with
  | (arena,.error e) => (layer.setArena arena,.error e)
  | (arena,.ok reserved) =>
    match env.uploadState with
    | .error e =>
      ((layer.setArena arena).abandon (reserved.map ReservedInstall.permit),.error (.backend e))
    | .ok _ =>
      let (arena,staged) := stageAll env (env.schedule reserved) arena
        (fun globalId => .error (.demandSourceMissing globalId))
      match env.copySubmit with
      | .error e =>
        ((layer.setArena arena).abandon (preparedPermits staged reserved),.error (.backend e))
      | .ok _ => commitStaged env staged reserved (layer.setArena arena) resolved

/-- The single-step installs: payload check, then everything under the arena lock. -/
def installPermit (env : Environment) (arena : ExpertArena) (permit : InstallPermit)
    (globalId : ℕ) (data : List UInt8) : ExpertArena × Except BootstrapError ExpertResidency :=
  let fail := fun (arena : ExpertArena) (e : BootstrapError) =>
    (arena.cancelInstall permit.flatSlot permit.installTicket,.error e)
  match env.stageGate globalId with
  | .error e => fail arena e
  | .ok _ =>
    match ExpertArena.checkSlot arena.geometry permit.key.expertId permit.residency.slotEpoch data
      with
    | .error e => fail arena e
    | .ok _ =>
      match arena.install permit (env.physicalWrite globalId) with
      | (arena,.dropped,.error e) => fail arena e
      | (arena,_,result) => (arena,result)

/-- The end of `install_locked`: the logical admission must still be current. -/
def finishInstall (env : Environment) (layer : LayerResidency) (globalId : ℕ) (key : ExpertKey)
    (residency : ExpertResidency) (installed : Bool) :
    LayerResidency × Except TieredResidencyError ExpertResidency :=
  if env.admissionCurrent globalId then
    let recorded := if installed then layer.record globalId key residency
      else { layer with residents := Lru.put layer.residents globalId ⟨key,residency⟩ }
    (recorded,.ok residency)
  else
    let (layer,error) := layer.withdraw env globalId key
    (layer,.error error)

def installLocked (space : Namespace) (env : Environment) (layer : LayerResidency) (globalId : ℕ)
    (source : Source) : LayerResidency × Except TieredResidencyError ExpertResidency :=
  match space.expertKey globalId source.generation with
  | .error e => (layer,.error e)
  | .ok key =>
    match env.acquireGate globalId with
    | .error e => (layer,.error (.backend e))
    | .ok _ =>
      match layer.arena.acquire key with
      | (arena,.error e) => (layer.setArena arena,.error (.backend e))
      | (arena,.ok (.hit residency)) =>
        finishInstall env (layer.setArena arena) globalId key residency false
      | (arena,.ok (.install permit)) =>
        match installPermit env arena permit globalId source.data with
        | (arena,.error e) => (layer.setArena arena,.error (.backend e))
        | (arena,.ok residency) =>
          finishInstall env (layer.setArena arena) globalId key residency true
      | (arena,.ok .installInProgress) =>
        (layer.setArena arena,.error (.installInProgress globalId source.generation))
      | (arena,.ok .staleRequester) =>
        (layer.setArena arena,.error (.stalePhysicalRequester globalId source.generation))
      | (arena,.ok .noPhysicalSlot) =>
        (layer.setArena arena,.error (.noPhysicalSlot key.layerIndex))

/-- The sequential install loop. -/
def installSequential (space : Namespace) (env : Environment) :
    List (ℕ × Source) → LayerResidency → (ℕ → Option ExpertResidency) →
      LayerResidency × Except TieredResidencyError (ℕ → Option ExpertResidency)
  | [], layer, resolved => (layer,.ok resolved)
  | miss::misses, layer, resolved =>
    match installLocked space env layer miss.1 miss.2 with
    | (layer,.error e) => (layer,.error e)
    | (layer,.ok residency) =>
      installSequential space env misses layer (Function.update resolved miss.1 (some residency))

def installMisses (space : Namespace) (env : Environment) (path : InstallPath)
    (layer : LayerResidency) (misses : List (ℕ × Source)) (resolved : ℕ → Option ExpertResidency) :
    LayerResidency × Except TieredResidencyError (ℕ → Option ExpertResidency) :=
  if path.isConcurrent then installParallelMisses space env layer misses resolved
  else installSequential space env misses layer resolved

/-- The residencies in request order. -/
def collectResolved (resolved : ℕ → Option ExpertResidency) (demands : List DemandExpert) :
    Except TieredResidencyError (List ExpertResidency) :=
  demands.mapM fun demand => match resolved demand.globalId with
    | some residency => .ok residency
    | none => .error (.demandSourceMissing demand.globalId)

/-- The lookups and evictions of a demand under the layer lock: the residencies found, and the
misses with room made for them. -/
def prepareDemand (space : Namespace) (env : Environment) (layer : LayerResidency)
    (demands : List DemandExpert) : LayerResidency × Except TieredResidencyError
      ((ℕ → Option ExpertResidency) × List (ℕ × Source)) :=
  match layer.resolveHits space demands (fun _ => none) [] with
  | (layer,.error e) => (layer,.error e)
  | (layer,.ok (resolved,misses)) =>
    let protect := fun globalId => decide (globalId ∈ demands.map DemandExpert.globalId)
    match LayerResidency.makeRoom env protect misses.length layer.residents.length layer with
    | (layer,.error e) => (layer,.error e)
    | (layer,.ok _) => (layer,.ok (resolved,misses))

/-- The part of `ensure_demand_set_inner_with_source_upload` that holds the layer lock. -/
def demandLocked (space : Namespace) (env : Environment) (path : InstallPath)
    (layer : LayerResidency) (demands : List DemandExpert) :
    LayerResidency × Except TieredResidencyError (List ExpertResidency) :=
  match prepareDemand space env layer demands with
  | (layer,.error e) => (layer,.error e)
  | (layer,.ok (resolved,misses)) =>
    match installMisses space env path layer misses resolved with
    | (layer,.error e) => (layer,.error e)
    | (layer,.ok resolved) => (layer,collectResolved resolved demands)

/-- The part of `ensure_speculative_resident` that holds the layer lock. -/
def speculateLocked (space : Namespace) (env : Environment) (layer : LayerResidency)
    (globalId : ℕ) (source : Source) :
    LayerResidency × Except TieredResidencyError SpeculativeInstall :=
  match layer.currentRecord space globalId with
  | (layer,.error e) => (layer,.error e)
  | (layer,.ok (some record)) => (layer,.ok (.hit record.residency))
  | (layer,.ok none) =>
    if env.stillCurrent globalId = false then (layer,.ok .staleLogicalGeneration)
    else if layer.arena.state.slotCapacity ≤ layer.residents.length then
      (layer,.ok .droppedCapacityOrPressure)
    else match installLocked space env layer globalId source with
    | (layer,.error (.noPhysicalSlot _)) => (layer,.ok .droppedCapacityOrPressure)
    | (layer,.error e) => (layer,.error e)
    | (layer,.ok residency) => (layer,.ok (.installed residency))

structure Manager where
  geometry : ExpertGeometry
  layers : List LayerResidency

namespace Manager

def space (self : Manager) : Namespace := ⟨self.layers.length,self.geometry.numExperts⟩

/-- An empty layer, as `try_new` creates it from its layer plan. -/
def emptyLayer (geometry : ExpertGeometry) (limits : DeviceLimits) (slotCapacity layerIndex : ℕ) :
    Except TieredResidencyError LayerResidency := do
  let layout ← liftBackend (ArenaLayout.tryNew geometry slotCapacity limits)
  let prepared ← liftBackend (validateUploads layerIndex geometry layout [])
  return ⟨⟨layerIndex,geometry,prepared.state,prepared.mapping⟩,[],fun _ => none,0⟩

/-- `try_new`, given the slot capacity of each layer that the budget plan arrived at. -/
def tryNew (geometry : ExpertGeometry) (limits : DeviceLimits) (capacities : List ℕ) :
    Except TieredResidencyError Manager := do
  Namespace.validate ⟨capacities.length,geometry.numExperts⟩
  let layers ← capacities.zipIdx.mapM fun plan => emptyLayer geometry limits plan.1 plan.2
  return ⟨geometry,layers⟩

/-- `ensure_demand_set_inner_with_source_upload`. -/
def ensureDemandSet (self : Manager) (env : Environment) (priority : Priority) (layerIndex : ℕ)
    (demands : List DemandExpert) (path : InstallPath) :
    Manager × Except TieredResidencyError (List ExpertResidency) :=
  if priority = .speculative then (self,.error .residencyPriorityMismatch)
  else match self.layers[layerIndex]? with
  | none => (self,.error (.layerOutOfRange layerIndex self.layers.length))
  | some layer =>
    if layer.arena.state.slotCapacity<demands.length then
      (self,.error (.demandSetExceedsLayerCapacity demands.length layer.arena.state.slotCapacity))
    else match checkDemands self.space env layerIndex [] demands with
    | .error e => (self,.error e)
    | .ok _ =>
      let (layer,result) := demandLocked self.space env path layer demands
      ({ self with layers := self.layers.set layerIndex layer },result)

def ensureSpeculativeResident (self : Manager) (env : Environment) (priority : Priority)
    (globalId : ℕ) (source : Source) : Manager × Except TieredResidencyError SpeculativeInstall :=
  if priority ≠ .speculative then (self,.error .residencyPriorityMismatch)
  else match validateSource env globalId source with
  | .error (.logicalAdmissionStale _ _) => (self,.ok .staleLogicalGeneration)
  | .error e => (self,.error e)
  | .ok _ =>
    match self.space.identity globalId with
    | .error e => (self,.error e)
    | .ok identity =>
      match self.layers[identity.layerIndex]? with
      | none => (self,.error (.layerOutOfRange identity.layerIndex self.layers.length))
      | some layer =>
        if env.lockFree = false then (self,.ok .droppedCapacityOrPressure)
        else
          let (layer,result) := speculateLocked self.space env layer globalId source
          ({ self with layers := self.layers.set identity.layerIndex layer },result)

end Manager

end MicroExpertRouter.Residency
