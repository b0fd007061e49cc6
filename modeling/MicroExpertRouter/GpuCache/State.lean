import MicroExpertRouter.Lib.Lru
import MicroExpertRouter.Lib.Machine

/-! The logical GPU-admission cache of `expert_cache.rs`: a pinned Anchor Core and a byte-budgeted
LRU Edge under one lock. A panic is a value, so that its absence can be stated. Payload bytes,
dtypes and telemetry counters are left out. -/
namespace MicroExpertRouter.GpuCache

/-- The panics of the cache, each named after the `expect` that raises it. -/
inductive Panic
  | anchorByteOverflow
  | lruByteOverflow
  | admittedByteOverflow
  | hotVictimMissing
  | hotVictimLost
  | hotByteUnderflow
  | graduationLost
  | graduationByteUnderflow
  | promotionVictimMissing
  | promotionVictimLost
  | setVictimMissing
  | setVictimLost
  | setByteUnderflow
  | setByteOverflow
  | setSourceLost
  | setGenerationRange
  | setNotAdmitted
  | demandVictimMissing
  | demandVictimLost
  | demandByteOverflow
  | protectionOverflow
  | protectionLost
  | protectionUnderflow
  deriving DecidableEq, Repr

/-- `Option::expect`. -/
def expect {α : Type*} (value : Option α) (panic : Panic) : Except Panic α :=
  match value with
  | some a => .ok a
  | none => .error panic

/-- `GpuResident`: the expert and its byte charge, which need not be materialised. -/
structure GpuResident where
  id : ℕ
  byteLen : ℕ
  byteLen_le : byteLen ≤ usizeMax

structure GpuAdmission where
  resident : GpuResident
  generation : ℕ

def GpuAdmission.byteLen (self : GpuAdmission) : ℕ := self.resident.byteLen

/-- The fixed parts of a cache. -/
structure Config where
  anchorCapacityBytes : ℕ
  lruCapacityBytes : ℕ
  promoteAfterHits : ℕ
  bounded : anchorCapacityBytes+lruCapacityBytes ≤ usizeMax

/-- The capacities `new` splits; the anchor share is whatever the rounding of
`capacity_bytes as f32 * ratio` makes of it. -/
def Config.new (capacityBytes anchorCapacityBytes promoteAfterHits : ℕ)
    (hcapacity : capacityBytes ≤ usizeMax) (hanchor : anchorCapacityBytes ≤ usizeMax) : Config where
  anchorCapacityBytes := anchorCapacityBytes
  lruCapacityBytes := capacityBytes-anchorCapacityBytes
  promoteAfterHits := promoteAfterHits
  bounded := by omega

/-- `GpuExpertCacheInner` with the gauge of admitted bytes. The Anchor Core is a hash map, whose
order nothing reads; the LRU Edge is most recently used first. -/
structure GpuExpertCache where
  anchor : List (ℕ × GpuAdmission)
  anchorUsedBytes : ℕ
  lru : List (ℕ × GpuAdmission)
  lruUsedBytes : ℕ
  nextGeneration : ℕ
  promotionPending : Finset ℕ
  promotionRearm : Finset ℕ
  demandProtections : ℕ → Option ℕ
  logicalAdmittedBytes : ℕ

inductive GpuLookup
  | anchorHit (admission : GpuAdmission)
  | lruHit (admission : GpuAdmission)
  | miss

inductive GpuHotPromotionOutcome
  | movedLruToAnchor
  | installedAnchor
  | installedLru
  | alreadyAnchor
  | alreadyLruAnchorFull
  | payloadRequired
  | noCapacity
  | generationExhausted
  deriving DecidableEq, Repr

inductive GpuDemandAdmissionError
  | emptyPayload
  | payloadExceedsLruCapacity (bytes capacity : ℕ)
  | duplicateDemandExpert (expertId : ℕ)
  | demandSourceIdentityMismatch (selectedId sourceId : ℕ)
  | demandSetExceedsLruCapacity (requiredBytes capacity : ℕ)
  | protectedDemandCapacity (requiredBytes protectedBytes capacity : ℕ)
  | generationExhausted
  deriving DecidableEq, Repr

inductive GpuDemandSetAdmission
  | ready (admissions : List GpuAdmission) (newlyAdmitted : ℕ)
  | payloadRequired (expertIds : List ℕ)

/-- `used.checked_add(bytes)` exists and stays within the capacity. -/
def fits (capacity used bytes : ℕ) : Bool :=
  match checkedAdd usizeMax used bytes with
  | some total => total ≤ capacity
  | none => false

namespace GpuExpertCache

/-- `new`. -/
def empty : GpuExpertCache := ⟨[],0,[],0,1,∅,∅,fun _ => none,0⟩

def allocateGeneration (self : GpuExpertCache) : Option (GpuExpertCache × ℕ) :=
  (checkedAdd u64Max self.nextGeneration 1).map fun next =>
    ({ self with nextGeneration := next },self.nextGeneration)

/-- Remove an id from both marker sets. -/
def clearMarkers (self : GpuExpertCache) (id : ℕ) : GpuExpertCache :=
  { self with
    promotionPending := self.promotionPending.erase id
    promotionRearm := self.promotionRearm.erase id }

/-- `logical_lru_is_protected`. -/
def isProtected (self : GpuExpertCache) (additionallyProtected : List ℕ) (expertId : ℕ) : Bool :=
  decide (expertId ∈ additionallyProtected) ||
    match self.demandProtections expertId with
    | some count => decide (0<count)
    | none => false

/-- `oldest_unprotected_logical_lru`. -/
def oldestUnprotected (self : GpuExpertCache) (additionallyProtected : List ℕ) : Option ℕ :=
  Lru.oldest self.lru fun expertId => !self.isProtected additionallyProtected expertId

/-- `unprotected_logical_lru_bytes`. -/
def unprotectedBytes (self : GpuExpertCache) (additionallyProtected : List ℕ) : ℕ :=
  ((self.lru.filter fun entry => !self.isProtected additionallyProtected entry.1).map
    fun entry => entry.2.byteLen).sum

/-- `refresh_used_bytes`. -/
def refreshUsedBytes (self : GpuExpertCache) : Except Panic GpuExpertCache := do
  let total ← expect (checkedAdd usizeMax self.anchorUsedBytes self.lruUsedBytes)
    .admittedByteOverflow
  return { self with logicalAdmittedBytes := total }

end GpuExpertCache

/-- What differs between the eviction loops: their panics, and how they subtract. -/
structure Eviction where
  victimMissing : Panic
  victimLost : Panic
  subtract : ℕ → ℕ → Except Panic ℕ

/-- `saturating_sub`. -/
def saturatingSubtract (used bytes : ℕ) : Except Panic ℕ := .ok (used-bytes)

/-- `checked_sub(..).expect(..)`. -/
def checkedSubtract (panic : Panic) (used bytes : ℕ) : Except Panic ℕ :=
  expect (checkedSub used bytes) panic

def hotEviction : Eviction := ⟨.hotVictimMissing,.hotVictimLost,checkedSubtract .hotByteUnderflow⟩

def promotionEviction : Eviction :=
  ⟨.promotionVictimMissing,.promotionVictimLost,saturatingSubtract⟩

def setEviction : Eviction := ⟨.setVictimMissing,.setVictimLost,checkedSubtract .setByteUnderflow⟩

def demandEviction : Eviction := ⟨.demandVictimMissing,.demandVictimLost,saturatingSubtract⟩

/-- The loop that evicts until the bytes fit. Each turn takes an entry out of the LRU Edge, so
that as many turns as it has entries suffice. -/
def evictUntilFits (config : Config) (eviction : Eviction) (additionallyProtected : List ℕ)
    (bytes : ℕ) : ℕ → GpuExpertCache → Except Panic GpuExpertCache
  | turns, cache =>
    if fits config.lruCapacityBytes cache.lruUsedBytes bytes then .ok cache
    else match cache.oldestUnprotected additionallyProtected, turns with
    | none, _ => .error eviction.victimMissing
    | some _, 0 => .error eviction.victimMissing
    | some evictedId, turns+1 => do
      let victim ← expect (Lru.peek cache.lru evictedId) eviction.victimLost
      let used ← eviction.subtract cache.lruUsedBytes victim.byteLen
      evictUntilFits config eviction additionallyProtected bytes turns
        { cache with
          lru := Lru.pop cache.lru evictedId
          lruUsedBytes := used
          promotionRearm := insert evictedId cache.promotionRearm }

end MicroExpertRouter.GpuCache
