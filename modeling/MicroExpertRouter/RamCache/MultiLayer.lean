import MicroExpertRouter.RamCache.ExpertCache

/-! The RAM cache of the whole model, of `multi_layer_cache.rs`: one cache for each layer, and the
exact-demand reservation that plans its victims on a virtual copy before it touches a layer. An
operation answers nothing when a debug assertion or an `expect` of the source fires. -/
namespace MicroExpertRouter.RamCache

inductive ReservationError
  | capacity
  | victimUnavailable
  | costAwarePolicy
  | invalidExpertId
  | duplicateExpertId
  | concurrentReservationConflict
  deriving DecidableEq, Repr

/-- The layers are those below `numLayers`. -/
structure MultiLayerExpertCache where
  caches : ℕ → ExpertCache
  numLayers : ℕ
  expertsPerLayer : ℕ
  layersPositive : 0<numLayers
  stridePositive : 0<expertsPerLayer

/-- The first of the longest layers, none when all are empty. -/
def heaviest (lens : ℕ → ℕ) (numLayers : ℕ) : Option ℕ :=
  ((List.range numLayers).foldl (fun best layer =>
    if lens layer = 0 then best
    else match best with
    | some (_,bestLen) => if lens layer ≤ bestLen then best else some (layer,lens layer)
    | none => some (layer,lens layer)) (none : Option (ℕ × ℕ))).map Prod.fst

/-- All layers, beginning with this one. -/
def layersFrom (start numLayers : ℕ) : List ℕ :=
  (List.range numLayers).map fun offset => (start+offset) % numLayers

namespace MultiLayerExpertCache

/-- `with_capacities`; the other constructors are cases of it. -/
def withCapacities (perLayerCaps : List ℕ) (expertsPerLayer : ℕ) : Option MultiLayerExpertCache :=
  if h : 0<perLayerCaps.length ∧ 0<expertsPerLayer ∧ ∀ c ∈ perLayerCaps, 0<c then
    some { caches := fun layer => if hlayer : layer<perLayerCaps.length
             then .new perLayerCaps[layer] (h.2.2 _ (List.getElem_mem hlayer))
             else .new 1 Nat.one_pos
           numLayers := perLayerCaps.length
           expertsPerLayer := expertsPerLayer
           layersPositive := h.1
           stridePositive := h.2.1 }
  else none

def setLayer (self : MultiLayerExpertCache) (layer : ℕ) (cache : ExpertCache) :
    MultiLayerExpertCache :=
  { self with caches := Function.update self.caches layer cache }

@[simp] lemma caches_setLayer_self (self : MultiLayerExpertCache) (layer : ℕ) (cache : ExpertCache) :
    (self.setLayer layer cache).caches layer = cache :=
  Function.update_self ..

lemma caches_setLayer_of_ne (self : MultiLayerExpertCache) {layer l : ℕ} (h : l ≠ layer)
    (cache : ExpertCache) : (self.setLayer layer cache).caches l = self.caches l :=
  Function.update_of_ne h ..

lemma setLayer_self (self : MultiLayerExpertCache) (layer : ℕ) :
    self.setLayer layer (self.caches layer) = self := by
  unfold setLayer
  rw [Function.update_eq_self]

def tryLayerIdx (self : MultiLayerExpertCache) (id : ℕ) : Option ℕ :=
  let layer := id/self.expertsPerLayer
  if layer<self.numLayers then some layer else none

def len (self : MultiLayerExpertCache) : ℕ :=
  ∑ layer ∈ Finset.range self.numLayers, (self.caches layer).len

def capacity (self : MultiLayerExpertCache) : ℕ :=
  ∑ layer ∈ Finset.range self.numLayers, (self.caches layer).capacity

def get (self : MultiLayerExpertCache) (id : ℕ) : MultiLayerExpertCache × Option ExpertResident :=
  match self.tryLayerIdx id with
  | none => (self,none)
  | some layer =>
    let (cache,found) := (self.caches layer).get id
    (self.setLayer layer cache,found)

def insert (self : MultiLayerExpertCache) (colder : ℕ → ℕ → Bool) (resident : ExpertResident) :
    MultiLayerExpertCache × Except ExpertResident (Option ExpertResident) :=
  match self.tryLayerIdx resident.id with
  | none => (self,.error resident)
  | some layer =>
    let (cache,result) := (self.caches layer).insert colder resident
    (self.setLayer layer cache,result)

def pin (self : MultiLayerExpertCache) (id : ℕ) : MultiLayerExpertCache :=
  match self.tryLayerIdx id with
  | none => self
  | some layer => self.setLayer layer ((self.caches layer).pin id)

def unpin (self : MultiLayerExpertCache) (id : ℕ) : MultiLayerExpertCache :=
  match self.tryLayerIdx id with
  | none => self
  | some layer => self.setLayer layer ((self.caches layer).unpin id)

def setCostAware (self : MultiLayerExpertCache) (on : Bool) : MultiLayerExpertCache :=
  { self with caches := fun layer => if layer<self.numLayers
      then (self.caches layer).setCostAware on else self.caches layer }

/-- The first of these layers that gives up a resident. -/
def evictFirst (evict : ExpertCache → ExpertCache × Option ExpertResident) :
    List ℕ → MultiLayerExpertCache → MultiLayerExpertCache × Option ExpertResident
  | [], self => (self,none)
  | layer::layers, self => match evict (self.caches layer) with
    | (cache,some resident) => (self.setLayer layer cache,some resident)
    | (cache,none) => evictFirst evict layers (self.setLayer layer cache)

def evictLru (self : MultiLayerExpertCache) (colder : ℕ → ℕ → Bool) :
    MultiLayerExpertCache × Option ExpertResident :=
  match heaviest (fun layer => (self.caches layer).len) self.numLayers with
  | none => (self,none)
  | some start =>
    evictFirst (fun cache => cache.evictLru colder) (layersFrom start self.numLayers) self

def evictLruShadowBacked (self : MultiLayerExpertCache) :
    MultiLayerExpertCache × Option ExpertResident :=
  let order := (List.range self.numLayers).mergeSort
    fun i j => decide ((self.caches j).len ≤ (self.caches i).len)
  evictFirst ExpertCache.evictLruShadowBacked order self

end MultiLayerExpertCache

inductive VirtualCacheEntry
  | resident (id : ℕ) (pinned : Bool)
  | outstandingReservation
  | requested (id requestIndex : ℕ) (pinned : Bool)
  deriving DecidableEq, Repr

def VirtualCacheEntry.pinned : VirtualCacheEntry → Bool
  | resident _ pinned => pinned
  | outstandingReservation => false
  | requested _ _ pinned => pinned

/-- A requested expert, its layer and whether it is pinned there. -/
structure Request where
  id : ℕ
  layer : ℕ
  pinned : Bool
  deriving DecidableEq, Repr

/-- The variables of `plan_sequential_victims`; layers are most recently used first. -/
structure VictimPlan where
  layers : ℕ → List VirtualCacheEntry
  total : ℕ
  evictionIds : List ℕ
  residentVictims : List (ℕ × ℕ)
  requestFinalLayers : List (Option ℕ)

namespace VictimPlan

/-- `remove_victim`: nothing when every entry of the layer is pinned. -/
def removeVictim (layer : ℕ) (self : VictimPlan) : Except ReservationError (Option VictimPlan) :=
  match takeLast (fun entry => !entry.pinned) (self.layers layer) with
  | none => .ok none
  | some (.resident id _,left) => .ok (some { self with
      layers := Function.update self.layers layer left
      evictionIds := self.evictionIds++[id]
      residentVictims := self.residentVictims++[(layer,id)] })
  | some (.requested id requestIndex _,left) => .ok (some { self with
      layers := Function.update self.layers layer left
      evictionIds := self.evictionIds++[id]
      requestFinalLayers := self.requestFinalLayers.set requestIndex none })
  | some (.outstandingReservation,_) => .error .concurrentReservationConflict

/-- The first of these layers that has a victim. -/
def removeFirst : List ℕ → VictimPlan → Except ReservationError (Option VictimPlan)
  | [], _ => .ok none
  | layer::layers, self => do
    match ← self.removeVictim layer with
    | some next => return some next
    | none => removeFirst layers self

/-- Count a removal, or report that there was no victim. -/
def removed : Option VictimPlan → Except ReservationError VictimPlan
  | none => .error .victimUnavailable
  | some next => .ok { next with total := next.total-1 }

/-- The aggregate eviction before an insertion. -/
def makeRoom (numLayers totalCapacity : ℕ) (self : VictimPlan) :
    Except ReservationError VictimPlan :=
  if totalCapacity ≤ self.total then
    match heaviest (fun layer => (self.layers layer).length) numLayers with
    | none => .error .victimUnavailable
    | some start => do removed (← self.removeFirst (layersFrom start numLayers))
  else .ok self

/-- The eviction in the target layer. -/
def makeRoomIn (capacities : ℕ → ℕ) (layer : ℕ) (self : VictimPlan) :
    Except ReservationError VictimPlan :=
  if capacities layer ≤ (self.layers layer).length then do removed (← self.removeVictim layer)
  else .ok self

def place (requestIndex : ℕ) (request : Request) (self : VictimPlan) : VictimPlan :=
  { self with
    layers := Function.update self.layers request.layer
      (.requested request.id requestIndex request.pinned::self.layers request.layer)
    total := self.total+1 }

/-- One turn of the request loop. -/
def serve (numLayers : ℕ) (capacities : ℕ → ℕ) (requestIndex : ℕ) (request : Request)
    (self : VictimPlan) : Except ReservationError VictimPlan := do
  let roomy ← self.makeRoom numLayers (∑ layer ∈ Finset.range numLayers, capacities layer)
  let ready ← roomy.makeRoomIn capacities request.layer
  return ready.place requestIndex request

def serveAll (numLayers : ℕ) (capacities : ℕ → ℕ) :
    ℕ → List Request → VictimPlan → Except ReservationError VictimPlan
  | _, [], self => .ok self
  | requestIndex, request::requests, self => do
    let next ← self.serve numLayers capacities requestIndex request
    serveAll numLayers capacities (requestIndex+1) requests next

def start (numLayers : ℕ) (layers : ℕ → List VirtualCacheEntry) (requested : List Request) :
    VictimPlan where
  layers := layers
  total := ∑ layer ∈ Finset.range numLayers, (layers layer).length
  evictionIds := []
  residentVictims := []
  requestFinalLayers := requested.map fun request => some request.layer

/-- `plan_sequential_victims`. -/
def planSequentialVictims (numLayers : ℕ) (layers : ℕ → List VirtualCacheEntry)
    (capacities : ℕ → ℕ) (requested : List Request) : Except ReservationError VictimPlan :=
  serveAll numLayers capacities 0 requested (start numLayers layers requested)

/-- The debug assertions at the end of the planner. -/
def Asserted (numLayers : ℕ) (capacities : ℕ → ℕ) (self : VictimPlan) : Prop :=
  (∀ layer ∈ List.range numLayers, (self.layers layer).length ≤ capacities layer) ∧
    ∑ layer ∈ Finset.range numLayers, (self.layers layer).length ≤
      ∑ layer ∈ Finset.range numLayers, capacities layer

instance (numLayers : ℕ) (capacities : ℕ → ℕ) (self : VictimPlan) :
    Decidable (self.Asserted numLayers capacities) :=
  inferInstanceAs (Decidable (_ ∧ _))

/-- The requests that end up in a layer. -/
def finalReservations (self : VictimPlan) (layer : ℕ) : ℕ :=
  self.requestFinalLayers.count (some layer)

end VictimPlan

/-- `MultiLayerCacheReservation`: the positions left of the guard of each layer, and the requests
with the layer in which they end up. -/
structure CacheReservation where
  layers : ℕ → Option ℕ
  requests : List (ℕ × Option ℕ)
  nextRequest : ℕ

structure ReservationOutcome where
  reservation : CacheReservation
  evictionIds : List ℕ
  victims : List ExpertResident

namespace MultiLayerExpertCache

/-- The layers of the requests, if they are distinct experts of the namespace and no layer gets
more of them than it has places. -/
def requestLayers (self : MultiLayerExpertCache) :
    List ℕ → List ℕ → (ℕ → ℕ) → Except ReservationError (List ℕ)
  | [], _, _ => .ok []
  | globalId::globalIds, seen, requestedPerLayer =>
    if globalId ∈ seen then .error .duplicateExpertId
    else match self.tryLayerIdx globalId with
    | none => .error .invalidExpertId
    | some layer =>
      if (self.caches layer).capacity<requestedPerLayer layer+1 then .error .capacity
      else do
        let rest ← self.requestLayers globalIds (globalId::seen)
          (Function.update requestedPerLayer layer (requestedPerLayer layer+1))
        return layer::rest

def residentEntry (pinned : Finset ℕ) (entry : ℕ × PooledBuffer) : VirtualCacheEntry :=
  .resident entry.1 (decide (entry.1 ∈ pinned))

/-- Foreign reservations, then the residents. -/
def virtualLayer (cache : ExpertCache) : List VirtualCacheEntry :=
  List.replicate cache.reservedSlots .outstandingReservation++
    cache.inner.entries.map (residentEntry cache.pinned)

def requested (self : MultiLayerExpertCache) (globalIds layers : List ℕ) : List Request :=
  (globalIds.zip layers).map fun request =>
    ⟨request.1,request.2,decide (request.1 ∈ (self.caches request.2).pinned)⟩

def popVictims : List (ℕ × ℕ) → MultiLayerExpertCache →
    Option (MultiLayerExpertCache × List ExpertResident)
  | [], self => some (self,[])
  | (layer,id)::rest, self => match (self.caches layer).inner.pop id with
    | (_,none) => none
    | (inner,some buffer) => do
      let (emptied,victims) ← popVictims rest
        (self.setLayer layer ((self.caches layer).setInner inner))
      return (emptied,⟨id,buffer⟩::victims)

/-- The guards of all layers. -/
def reserve (self : MultiLayerExpertCache) (counts : ℕ → ℕ) : MultiLayerExpertCache :=
  { self with caches := fun layer => (self.caches layer).reserve (counts layer) }

/-- The debug assertions after the guards were made. -/
def Asserted (self : MultiLayerExpertCache) : Prop :=
  (∀ layer ∈ List.range self.numLayers, (self.caches layer).len+(self.caches layer).reservedSlots ≤
      (self.caches layer).capacity) ∧
    ∑ layer ∈ Finset.range self.numLayers,
        ((self.caches layer).len+(self.caches layer).reservedSlots) ≤ self.capacity

instance (self : MultiLayerExpertCache) : Decidable self.Asserted :=
  inferInstanceAs (Decidable (_ ∧ _))

/-- What follows the plan, under all the locks. -/
def realize (self : MultiLayerExpertCache) (globalIds : List ℕ) (plan : VictimPlan) :
    Option (MultiLayerExpertCache × ReservationOutcome) := do
  let capacities := fun layer => (self.caches layer).capacity
  guard (plan.Asserted self.numLayers capacities)
  let (emptied,victims) ← popVictims plan.residentVictims self
  guard (∀ layer ∈ List.range self.numLayers,
    (emptied.caches layer).len+(emptied.caches layer).reservedSlots+plan.finalReservations layer =
        (plan.layers layer).length ∧
      (plan.layers layer).length ≤ capacities layer)
  let reserved := emptied.reserve plan.finalReservations
  guard reserved.Asserted
  let guards := fun layer =>
    if 0<plan.finalReservations layer then some (plan.finalReservations layer) else none
  return (reserved,⟨⟨guards,globalIds.zip plan.requestFinalLayers,0⟩,plan.evictionIds,victims⟩)

def tryReserveExactDemand (self : MultiLayerExpertCache) (globalIds : List ℕ) :
    Option (MultiLayerExpertCache × Except ReservationError ReservationOutcome) :=
  match self.requestLayers globalIds [] (fun _ => 0) with
  | .error e => some (self,.error e)
  | .ok layers =>
    if ∃ layer ∈ List.range self.numLayers, (self.caches layer).costAware = true then
      some (self,.error .costAwarePolicy)
    else match VictimPlan.planSequentialVictims self.numLayers
      (fun layer => virtualLayer (self.caches layer)) (fun layer => (self.caches layer).capacity)
      (self.requested globalIds layers) with
    | .error e => some (self,.error e)
    | .ok plan => do
      let (reserved,outcome) ← self.realize globalIds plan
      return (reserved,.ok outcome)

/-- `MultiLayerCacheReservation::commit`. -/
def commit (self : MultiLayerExpertCache) (reservation : CacheReservation)
    (resident : ExpertResident) :
    Option (MultiLayerExpertCache × CacheReservation × Except ExpertResident Bool) :=
  match reservation.requests[reservation.nextRequest]? with
  | none => some (self,reservation,.error resident)
  | some (expectedId,finalLayer) =>
    if resident.id ≠ expectedId then some (self,reservation,.error resident)
    else match finalLayer with
    | none => some (self,{ reservation with nextRequest := reservation.nextRequest+1 },.ok false)
    | some layer => match reservation.layers layer with
      | none => some (self,reservation,.error resident)
      | some 0 => some (self,reservation,.error resident)
      | some (remaining+1) => do
        let (cache,result) ← (self.caches layer).commitSlot resident
        match result with
        | .error resident => some (self.setLayer layer cache,reservation,.error resident)
        | .ok _ => some (self.setLayer layer cache,{ reservation with
            layers := Function.update reservation.layers layer (some remaining)
            nextRequest := reservation.nextRequest+1 },.ok true)

end MultiLayerExpertCache

end MicroExpertRouter.RamCache
