import Mathlib.Data.Finset.Max
import Mathlib.Data.Prod.Lex
import MicroExpertRouter.Lib.Machine
import MicroExpertRouter.Lib.EvictLoop

/-! The offline residency oracle of `gpu_native_oracle_routes.rs`: the production LRU
simulation, the Belady/MIN simulation over a complete future-use index, the stateful
warmup/measurement windows, and the analysis that reconciles both policies. The `f64`
resident fraction, which no check reads, is left out. -/
namespace MicroExpertRouter.Oracle

structure OracleTraceError where
  code : String
  detail : String
  deriving DecidableEq, Repr

structure PolicyCounts where
  routeReferences : ℕ := 0
  cacheHits : ℕ := 0
  missingInstalls : ℕ := 0
  missBoundaries : ℕ := 0
  compulsoryColdInstalls : ℕ := 0
  deriving DecidableEq, Repr

/-- `checked_add(..).ok_or_else(..)` on a `u64` counter. -/
def addCount (detail : String) (a b : ℕ) : Except OracleTraceError ℕ :=
  match checkedAdd u64Max a b with
  | some c => .ok c
  | none => .error ⟨"analysis-overflow",detail⟩

def PolicyCounts.checkedAccumulate (self other : PolicyCounts) :
    Except OracleTraceError PolicyCounts := do
  let routeReferences ← addCount "route count overflow" self.routeReferences other.routeReferences
  let cacheHits ← addCount "hit count overflow" self.cacheHits other.cacheHits
  let missingInstalls ← addCount "miss count overflow" self.missingInstalls other.missingInstalls
  let missBoundaries ← addCount "miss-boundary count overflow" self.missBoundaries
    other.missBoundaries
  let compulsoryColdInstalls ← addCount "compulsory miss count overflow"
    self.compulsoryColdInstalls other.compulsoryColdInstalls
  return ⟨routeReferences,cacheHits,missingInstalls,missBoundaries,compulsoryColdInstalls⟩

def validateIds (position experts : ℕ) : Finset ℕ → List ℕ → Except OracleTraceError Unit
  | _, [] => .ok ()
  | unique, id::ids =>
    if experts ≤ id ∨ id ∈ unique then
      .error ⟨"invalid-analysis-route",
        s!"position {position} contains invalid or duplicate expert {id}"⟩
    else validateIds position experts (insert id unique) ids

def validateFrom (capacity experts : ℕ) : ℕ → List (List ℕ) → Except OracleTraceError Unit
  | _, [] => .ok ()
  | position, ids::accesses =>
    if capacity < ids.length then
      let needed := ids.length
      .error ⟨"route-set-exceeds-capacity",
        s!"position {position} needs {needed} simultaneous experts but capacity is {capacity}"⟩
    else do
      validateIds position experts ∅ ids
      validateFrom capacity experts (position+1) accesses

def validateAccesses (capacity experts : ℕ) (accesses : List (List ℕ)) :
    Except OracleTraceError Unit :=
  if capacity = 0 ∨ experts = 0 ∨ experts < capacity then
    .error ⟨"invalid-simulation-capacity",
      s!"offline residency analysis requires 1 <= capacity <= experts; observed capacity={capacity} experts={experts}"⟩
  else validateFrom capacity experts 0 accesses

/-- The accumulators of the per-expert loop, for a store of type `σ`. -/
structure Scan (σ : Type) where
  residents : σ
  everSeen : Finset ℕ
  misses : List ℕ
  counts : PolicyCounts

/-- The miss arm of the per-expert loop, shared by both policies. -/
def Scan.miss {σ : Type} (s : Scan σ) (id : ℕ) : Scan σ :=
  { s with
    everSeen := insert id s.everSeen
    misses := s.misses++[id]
    counts := { s.counts with
      missingInstalls := s.counts.missingInstalls+1
      compulsoryColdInstalls :=
        if id ∈ s.everSeen then s.counts.compulsoryColdInstalls
        else s.counts.compulsoryColdInstalls+1 } }

/-- The hit arm: `touch` is what the policy does to its store. -/
def Scan.hit {σ : Type} (s : Scan σ) (touch : σ → σ) : Scan σ :=
  { s with
    residents := touch s.residents
    counts := { s.counts with cacheHits := s.counts.cacheHits+1 } }

/-- One turn of the per-expert loop, over a policy's residency test and its touch. -/
def Scan.visit {σ : Type} (holds : σ → ℕ → Bool) (touch : ℕ → σ → σ) (s : Scan σ) (id : ℕ) :
    Scan σ :=
  if holds s.residents id then s.hit (touch id) else s.miss id

/-- The counters as they stand after the per-expert loop. -/
def Scan.boundary {σ : Type} (s : Scan σ) : PolicyCounts :=
  if s.misses.isEmpty then s.counts
  else { s.counts with missBoundaries := s.counts.missBoundaries+1 }

structure ProductionLruSimulation where
  capacity : ℕ
  experts : ℕ
  /-- Residents from least to most recently used. -/
  lru : List ℕ
  everSeen : Finset ℕ
  deriving DecidableEq

namespace ProductionLruSimulation

def tryNew (capacity experts : ℕ) : Except OracleTraceError ProductionLruSimulation := do
  validateAccesses capacity experts []
  return ⟨capacity,experts,[],∅⟩

/-- A hit moves the expert to the most recent end. -/
def touch (id : ℕ) (lru : List ℕ) : List ℕ := lru.erase id++[id]

def visit : Scan (List ℕ) → ℕ → Scan (List ℕ) :=
  Scan.visit (fun lru id => id ∈ lru) touch

/-- Remove the oldest resident outside the requested set. -/
def evict (requested : List ℕ) (lru : List ℕ) : Option (List ℕ) :=
  (lru.findIdx? (· ∉ requested)).map lru.eraseIdx

def access (self : ProductionLruSimulation) (counts : PolicyCounts) (ids : List ℕ) :
    Except OracleTraceError (ProductionLruSimulation × PolicyCounts) := do
  let routeReferences ← addCount "route count overflow" counts.routeReferences ids.length
  let scan := ids.foldl visit ⟨self.lru,self.everSeen,[],
    { counts with routeReferences := routeReferences }⟩
  match evictUntil (fun lru => lru.length+scan.misses.length ≤ self.capacity) (evict ids)
      scan.residents.length scan.residents with
  | none => .error ⟨"no-unprotected-lru-victim",
      "validated simultaneous set left no legal LRU victim"⟩
  | some lru => return ({ self with lru := lru++scan.misses, everSeen := scan.everSeen },
      scan.boundary)

def serve (self : ProductionLruSimulation) (counts : PolicyCounts) :
    List (List ℕ) → Except OracleTraceError (ProductionLruSimulation × PolicyCounts)
  | [] => .ok (self,counts)
  | ids::accesses => do
    let (next,counts) ← self.access counts ids
    next.serve counts accesses

/-- One counter scope; residency, recency and compulsory-use history carry over. -/
def run (self : ProductionLruSimulation) (accesses : List (List ℕ)) :
    Except OracleTraceError (ProductionLruSimulation × PolicyCounts) := do
  validateAccesses self.capacity self.experts accesses
  self.serve {} accesses

end ProductionLruSimulation

structure BeladyMinSimulation where
  capacity : ℕ
  experts : ℕ
  residents : Finset ℕ
  everSeen : Finset ℕ
  /-- Remaining use positions of each expert, soonest first. -/
  future : ℕ → List ℕ
  plannedAccesses : List (List ℕ)
  nextPosition : ℕ

namespace BeladyMinSimulation

def noteUses (position : ℕ) (future : ℕ → List ℕ) (ids : List ℕ) : ℕ → List ℕ :=
  ids.foldl (fun future id => Function.update future id (future id++[position])) future

def buildFuture : ℕ → List (List ℕ) → (ℕ → List ℕ) → ℕ → List ℕ
  | _, [], future => future
  | position, ids::accesses, future =>
    buildFuture (position+1) accesses (noteUses position future ids)

def tryNew (capacity experts : ℕ) (completeAccesses : List (List ℕ)) :
    Except OracleTraceError BeladyMinSimulation := do
  validateAccesses capacity experts completeAccesses
  return ⟨capacity,experts,∅,∅,buildFuture 0 completeAccesses (fun _ => []),completeAccesses,0⟩

/-- Pop the current position from the use list of every requested expert. -/
def popUses (position : ℕ) : (ℕ → List ℕ) → List ℕ → Except OracleTraceError (ℕ → List ℕ)
  | future, [] => .ok future
  | future, id::ids =>
    if (future id).head? = some position then
      popUses position (Function.update future id (future id).tail) ids
    else .error ⟨"future-index-corrupt","next-use index did not match the current position"⟩

def visit : Scan (Finset ℕ) → ℕ → Scan (Finset ℕ) :=
  Scan.visit (fun residents id => id ∈ residents) (fun _ residents => residents)

/-- The `max_by_key` key: next use, absent uses last, ties to the larger id. -/
def victimKey (future : ℕ → List ℕ) (id : ℕ) : ℕ ×ₗ ℕ :=
  toLex ((future id).head?.getD usizeMax,id)

def evict (future : ℕ → List ℕ) (requested : List ℕ) (residents : Finset ℕ) :
    Option (Finset ℕ) :=
  (((residents.filter (· ∉ requested)).image (victimKey future)).max).map
    (fun key => residents.erase (ofLex key).2)

def access (self : BeladyMinSimulation) (counts : PolicyCounts) (ids : List ℕ) :
    Except OracleTraceError (BeladyMinSimulation × PolicyCounts) := do
  let position := self.nextPosition
  if self.plannedAccesses[position]? ≠ some ids then
    .error ⟨"min-sequence-drift",s!"MIN scope access differs from planned position {position}"⟩
  let future ← popUses position self.future ids
  let routeReferences ← addCount "route count overflow" counts.routeReferences ids.length
  let scan := ids.foldl visit ⟨self.residents,self.everSeen,[],
    { counts with routeReferences := routeReferences }⟩
  match evictUntil (fun residents => residents.card+scan.misses.length ≤ self.capacity)
      (evict future ids) scan.residents.card scan.residents with
  | none => .error ⟨"no-unprotected-min-victim",
      "validated simultaneous set left no legal MIN victim"⟩
  | some residents => return ({ self with
      residents := residents ∪ scan.misses.toFinset
      everSeen := scan.everSeen
      future := future
      nextPosition := position+1 },scan.boundary)

def serve (self : BeladyMinSimulation) (counts : PolicyCounts) :
    List (List ℕ) → Except OracleTraceError (BeladyMinSimulation × PolicyCounts)
  | [] => .ok (self,counts)
  | ids::accesses => do
    let (next,counts) ← self.access counts ids
    next.serve counts accesses

/-- One counter scope against the complete future-use index. -/
def run (self : BeladyMinSimulation) (accesses : List (List ℕ)) :
    Except OracleTraceError (BeladyMinSimulation × PolicyCounts) := do
  validateAccesses self.capacity self.experts accesses
  match checkedAdd usizeMax self.nextPosition accesses.length with
  | none => .error ⟨"analysis-overflow","position overflow"⟩
  | some scopeEnd =>
    if self.plannedAccesses.length < scopeEnd then
      .error ⟨"min-sequence-overrun","MIN counter scope exceeds the complete future-use sequence"⟩
    else self.serve {} accesses

def finish (self : BeladyMinSimulation) : Except OracleTraceError Unit :=
  if self.nextPosition ≠ self.plannedAccesses.length
      ∨ (List.range self.experts).any (fun id => !(self.future id).isEmpty) then
    .error ⟨"min-sequence-incomplete",
      "MIN simulation did not consume its complete future-use sequence"⟩
  else .ok ()

end BeladyMinSimulation

structure WindowPolicyCounts where
  uncountedWarmup : PolicyCounts
  countedMeasurement : PolicyCounts
  deriving DecidableEq, Repr

def zeroMeasuredRuns : OracleTraceError :=
  ⟨"zero-measured-runs","stateful analysis requires at least one measured route pass"⟩

def completeWindowAccesses (warmup measured : List (List ℕ)) (measuredRuns : ℕ) :
    Except OracleTraceError (List (List ℕ)) :=
  if measuredRuns = 0 then .error zeroMeasuredRuns
  else match (checkedMul usizeMax measured.length measuredRuns).bind
      (checkedAdd usizeMax warmup.length) with
  | none => .error ⟨"analysis-overflow","route count overflow"⟩
  | some _ => .ok (warmup++(List.replicate measuredRuns measured).flatten)

/-- `for _ in 0..measured_runs` of a policy's `run`, accumulating its counters. -/
def accumulateRuns {σ : Type} (run : σ → Except OracleTraceError (σ × PolicyCounts)) :
    ℕ → σ → PolicyCounts → Except OracleTraceError (σ × PolicyCounts)
  | 0, state, total => .ok (state,total)
  | runs+1, state, total => do
    let (state,counts) ← run state
    let total ← total.checkedAccumulate counts
    accumulateRuns run runs state total

def simulateProductionLruWindow (capacity experts : ℕ) (warmup measured : List (List ℕ))
    (measuredRuns : ℕ) : Except OracleTraceError WindowPolicyCounts :=
  if measuredRuns = 0 then .error zeroMeasuredRuns
  else do
    let state ← ProductionLruSimulation.tryNew capacity experts
    let (state,uncountedWarmup) ← state.run warmup
    let (_,countedMeasurement) ← accumulateRuns (·.run measured) measuredRuns state {}
    return ⟨uncountedWarmup,countedMeasurement⟩

def simulateBeladyMinWindow (capacity experts : ℕ) (warmup measured : List (List ℕ))
    (measuredRuns : ℕ) : Except OracleTraceError WindowPolicyCounts := do
  let complete ← completeWindowAccesses warmup measured measuredRuns
  let state ← BeladyMinSimulation.tryNew capacity experts complete
  let (state,uncountedWarmup) ← state.run warmup
  let (state,countedMeasurement) ← accumulateRuns (·.run measured) measuredRuns state {}
  state.finish
  return ⟨uncountedWarmup,countedMeasurement⟩

/-- Exact empty-start LRU simulation of one production demand-set pass. -/
def simulateProductionLru (capacity experts : ℕ) (accesses : List (List ℕ)) :
    Except OracleTraceError PolicyCounts := do
  return (← simulateProductionLruWindow capacity experts [] accesses 1).countedMeasurement

/-- Empty-start Belady/MIN simulation of one simultaneous-set pass. -/
def simulateBeladyMin (capacity experts : ℕ) (accesses : List (List ℕ)) :
    Except OracleTraceError PolicyCounts := do
  return (← simulateBeladyMinWindow capacity experts [] accesses 1).countedMeasurement

structure PolicyOracleAnalysis where
  cacheHits : ℕ
  missingExpertInstalls : ℕ
  layerMissBoundaries : ℕ
  bytesToMove : ℕ
  compulsoryFirstObservationInstalls : ℕ
  capacityReplacementInstalls : ℕ
  deriving DecidableEq, Repr

structure LayerOracleAnalysis where
  layerIndex : ℕ
  physicalExpertSlots : ℕ
  routeReferences : ℕ
  uniqueExpertsTouched : ℕ
  lru : PolicyOracleAnalysis
  minimum : PolicyOracleAnalysis
  deriving DecidableEq, Repr

def checkedTransferBytes (installs bytes : ℕ) : Except OracleTraceError ℕ :=
  match checkedMul u64Max installs bytes with
  | some total => .ok total
  | none => .error ⟨"analysis-overflow","transfer byte count overflow"⟩

def analyzePolicy (counts : PolicyCounts) (slotStrideBytes layerBoundaries : ℕ) :
    Except OracleTraceError PolicyOracleAnalysis := do
  let references ← addCount "counter overflow" counts.cacheHits counts.missingInstalls
  if references ≠ counts.routeReferences then
    .error ⟨"analysis-reconciliation",
      "cache hits plus missing installs do not equal route references"⟩
  else if layerBoundaries < counts.missBoundaries then
    .error ⟨"analysis-reconciliation","layer miss boundaries exceed analyzed layer records"⟩
  else match checkedSub counts.missingInstalls counts.compulsoryColdInstalls with
  | none => .error ⟨"analysis-reconciliation","compulsory installs exceed total missing installs"⟩
  | some capacityReplacementInstalls => do
    let bytesToMove ← checkedTransferBytes counts.missingInstalls slotStrideBytes
    return ⟨counts.cacheHits,counts.missingInstalls,counts.missBoundaries,bytesToMove,
      counts.compulsoryColdInstalls,capacityReplacementInstalls⟩

def expectedReferences : ℕ → List (List ℕ) → Except OracleTraceError ℕ
  | total, [] => .ok total
  | total, ids::accesses => do
    let total ← addCount "counter overflow" total ids.length
    expectedReferences total accesses

def analyzeLayerPhase (layerIndex physicalExpertSlots : ℕ) (accesses : List (List ℕ))
    (lru minimum : PolicyCounts) (slotStrideBytes : ℕ) :
    Except OracleTraceError LayerOracleAnalysis := do
  let references ← expectedReferences 0 accesses
  if lru.routeReferences ≠ references
      ∨ minimum.routeReferences ≠ references
      ∨ lru.compulsoryColdInstalls ≠ minimum.compulsoryColdInstalls
      ∨ lru.missingInstalls < minimum.missingInstalls then
    .error ⟨"analysis-reconciliation",
      s!"layer {layerIndex} LRU/MIN counters disagree with the phase route evidence"⟩
  else do
    let lru ← analyzePolicy lru slotStrideBytes accesses.length
    let minimum ← analyzePolicy minimum slotStrideBytes accesses.length
    return ⟨layerIndex,physicalExpertSlots,references,accesses.flatten.toFinset.card,lru,minimum⟩

end MicroExpertRouter.Oracle
