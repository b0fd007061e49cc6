import MicroExpertRouter.GpuCache.State

/-! The operations of the logical GPU-admission cache, each one critical section of its lock. -/
namespace MicroExpertRouter.GpuCache

namespace GpuExpertCache

def contains (self : GpuExpertCache) (id : ℕ) : Bool :=
  (Lru.peek self.anchor id).isSome || (Lru.peek self.lru id).isSome

def get (self : GpuExpertCache) (id : ℕ) : GpuExpertCache × GpuLookup :=
  match Lru.peek self.anchor id with
  | some admission => (self,.anchorHit admission)
  | none =>
    match Lru.peek self.lru id with
    | some admission => ({ self with lru := Lru.touch self.lru id },.lruHit admission)
    | none => (self,.miss)

/-- `should_promote`. -/
def shouldPromote (config : Config) (ramHits : ℕ) : Bool :=
  decide (0<config.promoteAfterHits) && decide (config.promoteAfterHits ≤ ramHits)

def claimPromotion (self : GpuExpertCache) (config : Config) (id ramHits : ℕ) :
    GpuExpertCache × Bool :=
  if shouldPromote config ramHits = false then (self,false)
  else if (Lru.peek self.anchor id).isSome ∨ id ∈ self.promotionPending then (self,false)
  else
    let thresholdCrossed := decide (ramHits = config.promoteAfterHits)
    let rearmedAfterEviction := decide (id ∈ self.promotionRearm)
    let disarmed := { self with promotionRearm := self.promotionRearm.erase id }
    if thresholdCrossed = false ∧ rearmedAfterEviction = false then (disarmed,false)
    else ({ disarmed with promotionPending := insert id self.promotionPending },true)

def cancelPromotion (self : GpuExpertCache) (id : ℕ) : GpuExpertCache :=
  if id ∈ self.promotionPending then
    { self with
      promotionPending := self.promotionPending.erase id
      promotionRearm := insert id self.promotionRearm }
  else self

/-- The room of the Anchor Core, as the promotions ask for it. -/
def anchorHasRoom (self : GpuExpertCache) (config : Config) (bytes : ℕ) : Bool :=
  decide (bytes ≤ config.anchorCapacityBytes) &&
    fits config.anchorCapacityBytes self.anchorUsedBytes bytes

/-- Insert into the Anchor Core and charge its bytes. -/
def installAnchor (self : GpuExpertCache) (id : ℕ) (admission : GpuAdmission) :
    Except Panic GpuExpertCache := do
  let used ← expect (checkedAdd usizeMax self.anchorUsedBytes admission.byteLen) .anchorByteOverflow
  return { self with anchor := Lru.put self.anchor id admission, anchorUsedBytes := used }

/-- Insert into the LRU Edge and charge its bytes. -/
def installLru (self : GpuExpertCache) (overflow : Panic) (id : ℕ) (admission : GpuAdmission) :
    Except Panic GpuExpertCache := do
  let used ← expect (checkedAdd usizeMax self.lruUsedBytes admission.byteLen) overflow
  return { self with lru := Lru.put self.lru id admission, lruUsedBytes := used }

/-- `resolve_existing_hot_locked`; without an outcome the id is absent. -/
def resolveExistingHot (self : GpuExpertCache) (config : Config) (id : ℕ) :
    Except Panic (GpuExpertCache × Option GpuHotPromotionOutcome) :=
  if (Lru.peek self.anchor id).isSome then .ok (self.clearMarkers id,some .alreadyAnchor)
  else match (Lru.peek self.lru id).map GpuAdmission.byteLen with
  | none => .ok (self,none)
  | some bytes =>
    if self.anchorHasRoom config bytes = false then
      .ok (self.clearMarkers id,some .alreadyLruAnchorFull)
    else do
      let admission ← expect (Lru.peek self.lru id) .graduationLost
      let used ← checkedSubtract .graduationByteUnderflow self.lruUsedBytes bytes
      let moved ← installAnchor
        { self with lru := Lru.pop self.lru id, lruUsedBytes := used } id admission
      return (moved.clearMarkers id,some .movedLruToAnchor)

def promoteHotExisting (self : GpuExpertCache) (config : Config) (id : ℕ) :
    Except Panic (GpuExpertCache × GpuHotPromotionOutcome) := do
  let (cache,existing) ← self.resolveExistingHot config id
  match existing with
  | some outcome => return (cache,outcome)
  | none => return (cache,.payloadRequired)

/-- The preflight of a promotion into the LRU Edge, which saturates. -/
def promotionBlocked (self : GpuExpertCache) (config : Config) (bytes : ℕ) : Bool :=
  decide (self.unprotectedBytes [] <
    saturatingAdd usizeMax self.lruUsedBytes bytes-config.lruCapacityBytes)

def promoteHotSync (self : GpuExpertCache) (config : Config) (resident : GpuResident) :
    Except Panic (GpuExpertCache × GpuHotPromotionOutcome) := do
  let id := resident.id
  let bytes := resident.byteLen
  let (cache,existing) ← self.resolveExistingHot config id
  match existing with
  | some outcome => return (cache,outcome)
  | none =>
    let useAnchor := cache.anchorHasRoom config bytes
    if bytes = 0 then return (cache.clearMarkers id,.noCapacity)
    else if useAnchor = false ∧ config.lruCapacityBytes<bytes then
      return (cache.clearMarkers id,.noCapacity)
    else if useAnchor = false ∧ cache.promotionBlocked config bytes = true then
      return (cache.clearMarkers id,.noCapacity)
    else match cache.allocateGeneration with
    | none => return (cache.clearMarkers id,.generationExhausted)
    | some (allocated,generation) =>
      let cleared := allocated.clearMarkers id
      if useAnchor then do
        let installed ← cleared.installAnchor id ⟨resident,generation⟩
        let refreshed ← installed.refreshUsedBytes
        return (refreshed,.installedAnchor)
      else do
        let room ← evictUntilFits config hotEviction [] bytes cleared.lru.length cleared
        let installed ← room.installLru .lruByteOverflow id ⟨resident,generation⟩
        let refreshed ← installed.refreshUsedBytes
        return (refreshed,.installedLru)

/-- The end of `promote_sync`: a replaced entry would give back its footprint. -/
def replaceLru (self : GpuExpertCache) (id : ℕ) (admission : GpuAdmission) :
    Except Panic GpuExpertCache :=
  let used := match Lru.peek self.lru id with
    | some previous => self.lruUsedBytes-previous.byteLen
    | none => self.lruUsedBytes
  installLru { self with lruUsedBytes := used } .lruByteOverflow id admission

def promoteSync (self : GpuExpertCache) (config : Config) (resident : GpuResident) :
    Except Panic (GpuExpertCache × Bool) :=
  let id := resident.id
  let bytes := resident.byteLen
  let cache := self.clearMarkers id
  let useAnchor := cache.anchorHasRoom config bytes
  if bytes = 0 then .ok (cache,false)
  else if (Lru.peek cache.anchor id).isSome then .ok (cache,true)
  else if (Lru.peek cache.lru id).isSome then
    .ok ({ cache with lru := Lru.touch cache.lru id },true)
  else if useAnchor = false ∧ config.lruCapacityBytes<bytes then .ok (cache,false)
  else if useAnchor = false ∧ cache.promotionBlocked config bytes = true then .ok (cache,false)
  else match cache.allocateGeneration with
  | none => .ok (cache,false)
  | some (allocated,generation) =>
    if useAnchor then do
      let installed ← allocated.installAnchor id ⟨resident,generation⟩
      let refreshed ← installed.refreshUsedBytes
      return (refreshed,true)
    else do
      let room ← evictUntilFits config promotionEviction [] bytes allocated.lru.length allocated
      let installed ← room.replaceLru id ⟨resident,generation⟩
      let refreshed ← installed.refreshUsedBytes
      return (refreshed,true)

def tryPromoteLruNoEvict (self : GpuExpertCache) (config : Config) (resident : GpuResident) :
    Except Panic (GpuExpertCache × Bool) :=
  let id := resident.id
  let bytes := resident.byteLen
  if bytes = 0 then .ok (self,false)
  else if self.contains id then .ok (self.clearMarkers id,false)
  else if fits config.lruCapacityBytes self.lruUsedBytes bytes = false then .ok (self,false)
  else match self.allocateGeneration with
  | none => .ok (self,false)
  | some (allocated,generation) => do
    let installed ← (allocated.clearMarkers id).installLru .lruByteOverflow id ⟨resident,generation⟩
    let refreshed ← installed.refreshUsedBytes
    return (refreshed,true)

def demandAdmitLru (self : GpuExpertCache) (config : Config) (resident : GpuResident) :
    Except Panic (GpuExpertCache × Except GpuDemandAdmissionError Bool) :=
  let id := resident.id
  let bytes := resident.byteLen
  let capacity := config.lruCapacityBytes
  if bytes = 0 then .ok (self,.error .emptyPayload)
  else if self.contains id then .ok (self,.ok false)
  else if capacity<bytes then .ok (self,.error (.payloadExceedsLruCapacity bytes capacity))
  else match checkedAdd usizeMax self.lruUsedBytes bytes with
  | none => .ok (self,.error (.protectedDemandCapacity usizeMax self.lruUsedBytes capacity))
  | some requiredBytes =>
    let evictableBytes := self.unprotectedBytes []
    if evictableBytes<requiredBytes-capacity then
      .ok (self,.error (.protectedDemandCapacity requiredBytes (self.lruUsedBytes-evictableBytes)
        capacity))
    else match self.allocateGeneration with
    | none => .ok (self,.error .generationExhausted)
    | some (allocated,generation) => do
      let room ← evictUntilFits config demandEviction [] bytes allocated.lru.length allocated
      let installed ← (room.clearMarkers id).installLru .demandByteOverflow id ⟨resident,generation⟩
      let refreshed ← installed.refreshUsedBytes
      return (refreshed,.ok true)

end GpuExpertCache

/-- The first repeated id, given those already seen. -/
def firstDuplicate : List ℕ → List ℕ → Option ℕ
  | _, [] => none
  | seen, expertId::expertIds =>
    if expertId ∈ seen then some expertId else firstDuplicate (expertId::seen) expertIds

/-- What the validating loop of `demand_admit_set` collects. -/
structure DemandScan where
  payloadRequired : List ℕ
  newIds : List ℕ
  selectedLruBytes : ℕ
  newBytes : ℕ

namespace GpuExpertCache

/-- The validating loop of `demand_admit_set`. -/
def scanDemand (self : GpuExpertCache) (config : Config) (sources : ℕ → Option GpuResident) :
    List ℕ → DemandScan → Except GpuDemandAdmissionError DemandScan
  | [], scan => .ok scan
  | expertId::expertIds, scan =>
    let capacity := config.lruCapacityBytes
    let overflow : GpuDemandAdmissionError := .demandSetExceedsLruCapacity usizeMax capacity
    if (Lru.peek self.anchor expertId).isSome then self.scanDemand config sources expertIds scan
    else match Lru.peek self.lru expertId with
    | some admission =>
      match checkedAdd usizeMax scan.selectedLruBytes admission.byteLen with
      | none => .error overflow
      | some selected =>
        self.scanDemand config sources expertIds { scan with selectedLruBytes := selected }
    | none =>
      match sources expertId with
      | none => self.scanDemand config sources expertIds
        { scan with payloadRequired := scan.payloadRequired++[expertId] }
      | some source =>
        let bytes := source.byteLen
        if source.id ≠ expertId then .error (.demandSourceIdentityMismatch expertId source.id)
        else if bytes = 0 then .error .emptyPayload
        else if capacity<bytes then .error (.payloadExceedsLruCapacity bytes capacity)
        else match checkedAdd usizeMax scan.selectedLruBytes bytes,
            checkedAdd usizeMax scan.newBytes bytes with
        | some selected, some fresh => self.scanDemand config sources expertIds
          { scan with
            newIds := scan.newIds++[expertId]
            selectedLruBytes := selected
            newBytes := fresh }
        | _, _ => .error overflow

/-- The installing loop of `demand_admit_set`, at some offset of its generations. -/
def installSet (sources : ℕ → Option GpuResident) (firstGeneration : ℕ) :
    ℕ → List ℕ → GpuExpertCache → Except Panic GpuExpertCache
  | _, [], cache => .ok cache
  | offset, expertId::expertIds, cache => do
    let source ← expect (sources expertId) .setSourceLost
    let generation ← expect (checkedAdd u64Max firstGeneration offset) .setGenerationRange
    let installed ← (cache.clearMarkers expertId).installLru .setByteOverflow expertId
      ⟨source,generation⟩
    installSet sources firstGeneration (offset+1) expertIds installed

/-- The admission of a selected expert, in either region. -/
def currentAdmission (self : GpuExpertCache) (id : ℕ) : Option GpuAdmission :=
  (Lru.peek self.anchor id).or (Lru.peek self.lru id)

def currentGeneration (self : GpuExpertCache) (id : ℕ) : Option ℕ :=
  (self.currentAdmission id).map GpuAdmission.generation

def containsGeneration (self : GpuExpertCache) (id generation : ℕ) : Bool :=
  decide (self.currentGeneration id = some generation)

def demandAdmitSet (self : GpuExpertCache) (config : Config) (expertIds : List ℕ)
    (sources : ℕ → Option GpuResident) :
    Except Panic (GpuExpertCache × Except GpuDemandAdmissionError GpuDemandSetAdmission) :=
  let capacity := config.lruCapacityBytes
  match firstDuplicate [] expertIds with
  | some expertId => .ok (self,.error (.duplicateDemandExpert expertId))
  | none =>
    match self.scanDemand config sources expertIds ⟨[],[],0,0⟩ with
    | .error e => .ok (self,.error e)
    | .ok scan =>
      if scan.payloadRequired ≠ [] then .ok (self,.ok (.payloadRequired scan.payloadRequired))
      else if capacity<scan.selectedLruBytes then
        .ok (self,.error (.demandSetExceedsLruCapacity scan.selectedLruBytes capacity))
      else match checkedAdd usizeMax self.lruUsedBytes scan.newBytes with
      | none => .ok (self,.error (.protectedDemandCapacity usizeMax self.lruUsedBytes capacity))
      | some requiredBytes =>
        let evictableBytes := self.unprotectedBytes expertIds
        if evictableBytes<requiredBytes-capacity then
          .ok (self,.error (.protectedDemandCapacity requiredBytes
            (self.lruUsedBytes-evictableBytes) capacity))
        else match checkedAdd u64Max self.nextGeneration scan.newIds.length with
        | none => .ok (self,.error .generationExhausted)
        | some nextGeneration => do
          let room ← evictUntilFits config setEviction expertIds scan.newBytes self.lru.length self
          let firstGeneration := room.nextGeneration
          let installed ← installSet sources firstGeneration 0 scan.newIds
            { room with nextGeneration := nextGeneration }
          let admissions ← expertIds.mapM fun expertId =>
            expect (installed.currentAdmission expertId) .setNotAdmitted
          let refreshed ← if 0<scan.newIds.length then installed.refreshUsedBytes else .ok installed
          return (refreshed,.ok (.ready admissions scan.newIds.length))

/-- The registration of `protect_demand_set`. -/
def registerProtections : List ℕ → GpuExpertCache → Except Panic GpuExpertCache
  | [], cache => .ok cache
  | expertId::expertIds, cache => do
    let count ← expect (checkedAdd usizeMax ((cache.demandProtections expertId).getD 0) 1)
      .protectionOverflow
    registerProtections expertIds { cache with
      demandProtections := Function.update cache.demandProtections expertId (some count) }

/-- Dropping a guard releases its references. -/
def releaseProtections : List ℕ → GpuExpertCache → Except Panic GpuExpertCache
  | [], cache => .ok cache
  | expertId::expertIds, cache => do
    let registered ← expect (cache.demandProtections expertId) .protectionLost
    let count ← expect (checkedSub registered 1) .protectionUnderflow
    releaseProtections expertIds { cache with
      demandProtections := Function.update cache.demandProtections expertId
        (if count = 0 then none else some count) }

end GpuExpertCache

end MicroExpertRouter.GpuCache
