import MicroExpertRouter.RamCache.ExactDemand

/-! The multi-layer cache under any interleaving of its operations with any number of reservations.
A step is an operation or one of its critical sections. A dropped reservation hands its guards
back one at a time. -/
namespace MicroExpertRouter.RamCache
open MultiLayerExpertCache

/-- The cache, the reservations of the callers, and the guards of dropped reservations that are
not released yet, with their layer and their positions. -/
structure System where
  cache : MultiLayerExpertCache
  live : List CacheReservation
  falling : List (ℕ × ℕ)

inductive Operation
  | get (id : ℕ)
  | insert (colder : ℕ → ℕ → Bool) (resident : ExpertResident)
  | evictLru (colder : ℕ → ℕ → Bool)
  | evictLruIn (colder : ℕ → ℕ → Bool) (layer : ℕ)
  | evictLruShadowBacked
  | evictLruShadowBackedIn (layer : ℕ)
  | pin (id : ℕ)
  | unpin (id : ℕ)
  | setCostAware (on : Bool)
  | setCostAwareIn (on : Bool) (layer : ℕ)
  | tryReserveExactDemand (globalIds : List ℕ)
  | commit (index : ℕ) (resident : ExpertResident)
  | drop (index : ℕ)
  | release (index : ℕ)

inductive Answer
  | unit
  | found (resident : Option ExpertResident)
  | inserted (result : Except ExpertResident (Option ExpertResident))
  | reserved (result : Except ReservationError ReservationOutcome)
  | committed (result : Except ExpertResident Bool)

/-- The positions of a layer that these guards hold. -/
def held (guards : List (ℕ × ℕ)) (layer : ℕ) : ℕ :=
  ((guards.filter fun slots => slots.1 = layer).map Prod.snd).sum

/-- The guards that a reservation still has, in the order of their release. -/
def CacheReservation.guards (self : CacheReservation) (numLayers : ℕ) : List (ℕ × ℕ) :=
  (List.range numLayers).filterMap fun layer =>
    (self.layers layer).map fun remaining => (layer,remaining)

namespace System

def new (cache : MultiLayerExpertCache) : System := ⟨cache,[],[]⟩

def store (self : System) (cache : MultiLayerExpertCache) : System := { self with cache }

def tryReserve (self : System) (globalIds : List ℕ) : Option (System × Answer) :=
  match self.cache.tryReserveExactDemand globalIds with
  | none => none
  | some (cache,.error e) => some (self.store cache,.reserved (.error e))
  | some (cache,.ok outcome) =>
    some (⟨cache,self.live++[outcome.reservation],self.falling⟩,.reserved (.ok outcome))

def commit (self : System) (index : ℕ) (resident : ExpertResident) : Option (System × Answer) :=
  match self.live[index]? with
  | none => some (self,.unit)
  | some reservation => match self.cache.commit reservation resident with
    | none => none
    | some (cache,reservation,result) =>
      some (⟨cache,self.live.set index reservation,self.falling⟩,.committed result)

def drop (self : System) (index : ℕ) : System :=
  match self.live[index]? with
  | none => self
  | some reservation =>
    ⟨self.cache,self.live.eraseIdx index,
      self.falling++reservation.guards self.cache.numLayers⟩

/-- `ExpertCacheSlotReservation::drop`. -/
def release (self : System) (index : ℕ) : Option System :=
  match self.falling[index]? with
  | none => some self
  | some (layer,remaining) => match (self.cache.caches layer).release remaining with
    | none => none
    | some cache =>
      some ⟨self.cache.setLayer layer cache,self.live,self.falling.eraseIdx index⟩

/-- Nothing when an assertion or the `expect` fires; nothing happens on a reservation or a guard
that is not there. -/
def step (self : System) : Operation → Option (System × Answer)
  | .get id =>
    let (cache,found) := self.cache.get id
    some (self.store cache,.found found)
  | .insert colder resident =>
    let (cache,result) := self.cache.insert colder resident
    some (self.store cache,.inserted result)
  | .evictLru colder =>
    let (cache,victim) := self.cache.evictLru colder
    some (self.store cache,.found victim)
  | .evictLruIn colder layer =>
    let (cache,victim) := (self.cache.caches layer).evictLru colder
    some (self.store (self.cache.setLayer layer cache),.found victim)
  | .evictLruShadowBacked =>
    let (cache,victim) := self.cache.evictLruShadowBacked
    some (self.store cache,.found victim)
  | .evictLruShadowBackedIn layer =>
    let (cache,victim) := (self.cache.caches layer).evictLruShadowBacked
    some (self.store (self.cache.setLayer layer cache),.found victim)
  | .pin id => some (self.store (self.cache.pin id),.unit)
  | .unpin id => some (self.store (self.cache.unpin id),.unit)
  | .setCostAware on => some (self.store (self.cache.setCostAware on),.unit)
  | .setCostAwareIn on layer =>
    some (self.store (self.cache.setLayer layer ((self.cache.caches layer).setCostAware on)),.unit)
  | .tryReserveExactDemand globalIds => self.tryReserve globalIds
  | .commit index resident => self.commit index resident
  | .drop index => some (self.drop index,.unit)
  | .release index => (self.release index).map fun system => (system,.unit)

/-- A run, as long as nothing panics. -/
def run (self : System) (operations : List Operation) : Option System :=
  operations.foldlM (fun system operation => (system.step operation).map Prod.fst) self

/-- The positions of a layer that the live guards hold. -/
def remaining (self : System) (layer : ℕ) : ℕ :=
  (self.live.map fun reservation => reservation.remainingIn layer).sum+held self.falling layer

end System

/-- `Sound` in every layer. -/
structure LayersSound (a b : MultiLayerExpertCache) : Prop where
  numLayers : b.numLayers = a.numLayers
  stride : b.expertsPerLayer = a.expertsPerLayer
  layer : ∀ layer, ExpertCache.Sound (a.caches layer) (b.caches layer)

namespace LayersSound
variable {a b c : MultiLayerExpertCache}

lemma refl (a : MultiLayerExpertCache) : LayersSound a a := ⟨rfl,rfl,fun _ => .refl _⟩

lemma setLayer {layer : ℕ} {cache : ExpertCache}
    (h : ExpertCache.Sound (a.caches layer) cache) : LayersSound a (a.setLayer layer cache) := by
  refine ⟨rfl,rfl,fun l => ?_⟩
  by_cases hl : l = layer
  · subst hl
    rw [caches_setLayer_self]
    exact h
  · rw [caches_setLayer_of_ne _ hl]
    exact .refl _

lemma get (a : MultiLayerExpertCache) (id : ℕ) : LayersSound a (a.get id).1 := by
  unfold MultiLayerExpertCache.get
  cases a.tryLayerIdx id with
  | none => exact .refl a
  | some layer => exact .setLayer (.get _ id)

lemma insert (hroom : ∀ layer<a.numLayers,
      (a.caches layer).len+(a.caches layer).reservedSlots ≤ (a.caches layer).capacity)
    (colder : ℕ → ℕ → Bool) (resident : ExpertResident) :
    LayersSound a (a.insert colder resident).1 := by
  unfold MultiLayerExpertCache.insert
  cases hlayer : a.tryLayerIdx resident.id with
  | none => exact .refl a
  | some layer =>
    exact .setLayer (ExpertCache.insert_sound (hroom layer (tryLayerIdx_eq_some hlayer)))

lemma pin (a : MultiLayerExpertCache) (id : ℕ) : LayersSound a (a.pin id) := by
  unfold MultiLayerExpertCache.pin
  cases a.tryLayerIdx id with
  | none => exact .refl a
  | some layer => exact .setLayer (.pin _ id)

lemma unpin (a : MultiLayerExpertCache) (id : ℕ) : LayersSound a (a.unpin id) := by
  unfold MultiLayerExpertCache.unpin
  cases a.tryLayerIdx id with
  | none => exact .refl a
  | some layer => exact .setLayer (.unpin _ id)

lemma setCostAware (a : MultiLayerExpertCache) (on : Bool) : LayersSound a (a.setCostAware on) := by
  refine ⟨rfl,rfl,fun layer => ?_⟩
  change ExpertCache.Sound (a.caches layer)
    (if layer<a.numLayers then (a.caches layer).setCostAware on else a.caches layer)
  split_ifs
  · exact .setCostAware _ on
  · exact .refl _

/-- A chain of evictions that leave the pins as they are. -/
lemma evictFirst {evict : ExpertCache → ExpertCache × Option ExpertResident}
    (hsound : ∀ cache, ExpertCache.Sound cache (evict cache).1)
    (hpinned : ∀ cache, (evict cache).1.pinned = cache.pinned) (layers : List ℕ) :
    ∀ a : MultiLayerExpertCache, LayersSound a (MultiLayerExpertCache.evictFirst evict layers a).1 := by
  induction layers with
  | nil => exact refl
  | cons layer layers ih =>
    intro a
    have hlayer := hsound (a.caches layer)
    have hpins := hpinned (a.caches layer)
    unfold MultiLayerExpertCache.evictFirst
    generalize evict (a.caches layer) = evicted at hlayer hpins
    obtain ⟨cache,victim⟩ := evicted
    cases victim with
    | some resident => exact .setLayer hlayer
    | none =>
      have hfirst := setLayer hlayer
      have hrest := ih (a.setLayer layer cache)
      refine ⟨hrest.numLayers.trans hfirst.numLayers,hrest.stride.trans hfirst.stride,fun l =>
        (hfirst.layer l).trans (hrest.layer l) ?_⟩
      by_cases hl : l = layer
      · subst hl
        rw [caches_setLayer_self]
        exact hpins
      · rw [caches_setLayer_of_ne _ hl]

lemma evictLru (a : MultiLayerExpertCache) (colder : ℕ → ℕ → Bool) :
    LayersSound a (a.evictLru colder).1 := by
  unfold MultiLayerExpertCache.evictLru
  cases heaviest (fun layer => (a.caches layer).len) a.numLayers with
  | none => exact .refl a
  | some start =>
    exact evictFirst (fun cache => cache.evictLru_sound colder)
      (fun cache => cache.pinned_evictLru colder) _ a

lemma evictLruShadowBacked (a : MultiLayerExpertCache) :
    LayersSound a a.evictLruShadowBacked.1 :=
  evictFirst ExpertCache.evictLruShadowBacked_sound ExpertCache.pinned_evictLruShadowBacked _ a

end LayersSound

section Counting

lemma held_append (guards more : List (ℕ × ℕ)) (layer : ℕ) :
    held (guards++more) layer = held guards layer+held more layer := by
  simp [held]

lemma held_cons (slots : ℕ × ℕ) (guards : List (ℕ × ℕ)) (layer : ℕ) :
    held (slots::guards) layer = (if slots.1 = layer then slots.2 else 0)+held guards layer := by
  rw [held, List.filter_cons]
  by_cases h : slots.1 = layer
  · simp [h, held]
  · simp [h, held]

lemma held_guards (reservation : CacheReservation) (layer numLayers : ℕ) :
    held (reservation.guards numLayers) layer =
      if layer<numLayers then reservation.remainingIn layer else 0 := by
  induction numLayers with
  | zero => rfl
  | succ n ih =>
    rw [CacheReservation.guards, List.range_succ, List.filterMap_append, held_append]
    rw [CacheReservation.guards] at ih
    rw [ih, CacheReservation.remainingIn]
    by_cases hlayer : layer = n
    · subst hlayer
      cases hslots : reservation.layers layer with
      | none => simp [hslots, held]
      | some remaining => simp [hslots, held]
    · have hlt : layer<n+1 ↔ layer<n := by omega
      have hne : ¬ n = layer := fun h => hlayer h.symm
      cases hslots : reservation.layers n with
      | none => simp [hslots, held, hlt]
      | some remaining => simp [hslots, held, hlt, hne]

lemma mem_guards {reservation : CacheReservation} {numLayers : ℕ} {slots : ℕ × ℕ}
    (h : slots ∈ reservation.guards numLayers) : slots.1<numLayers := by
  obtain ⟨layer,hlayer,hslots⟩ := List.mem_filterMap.mp h
  obtain ⟨remaining,-,rfl⟩ := Option.map_eq_some_iff.mp hslots
  exact List.mem_range.mp hlayer

/-- A list around one of its elements. -/
lemma split_getElem? {α : Type*} {xs : List α} {i : ℕ} {x : α} (h : xs[i]? = some x) :
    ∃ before after, xs = before++x::after ∧ xs.eraseIdx i = before++after ∧
      ∀ y, xs.set i y = before++y::after := by
  obtain ⟨hlt,hx⟩ := List.getElem?_eq_some_iff.mp h
  refine ⟨xs.take i,xs.drop (i+1),?_,List.eraseIdx_eq_take_drop_succ xs i,fun y => ?_⟩
  · rw [← hx, ← List.drop_eq_getElem_cons hlt, List.take_append_drop]
  · rw [List.set_eq_take_append_cons_drop, if_pos hlt]

lemma sum_map_set {α : Type*} {xs : List α} {i : ℕ} {x : α} (h : xs[i]? = some x) (f : α → ℕ)
    (y : α) : ((xs.set i y).map f).sum+f x = (xs.map f).sum+f y := by
  obtain ⟨before,after,hsplit,-,hset⟩ := split_getElem? h
  rw [hset, hsplit]
  simp only [List.map_append, List.map_cons, List.sum_append, List.sum_cons]
  omega

lemma sum_map_eraseIdx {α : Type*} {xs : List α} {i : ℕ} {x : α} (h : xs[i]? = some x)
    (f : α → ℕ) : ((xs.eraseIdx i).map f).sum+f x = (xs.map f).sum := by
  obtain ⟨before,after,hsplit,herase,-⟩ := split_getElem? h
  rw [herase, hsplit]
  simp only [List.map_append, List.map_cons, List.sum_append, List.sum_cons]
  omega

lemma held_eraseIdx {guards : List (ℕ × ℕ)} {i owner slots : ℕ}
    (h : guards[i]? = some (owner,slots)) (layer : ℕ) :
    held (guards.eraseIdx i) layer+(if owner = layer then slots else 0) = held guards layer := by
  obtain ⟨before,after,hsplit,herase,-⟩ := split_getElem? h
  rw [herase, hsplit, held_append, held_append, held_cons]
  dsimp only
  omega

end Counting

/-- Commits in order: a position for every one to come, each in the layer of its id. -/
structure CacheReservation.Ordered (whole : CacheReservation) (cache : MultiLayerExpertCache) :
    Prop where
  consistent : whole.Consistent
  addressed : ∀ id layer, (id,some layer) ∈ whole.requests → cache.tryLayerIdx id = some layer

/-- Residents and reserved positions share the capacity, and every reserved position belongs to a
live guard. -/
structure Accounted (start : MultiLayerExpertCache) (system : System) : Prop where
  numLayers : system.cache.numLayers = start.numLayers
  stride : system.cache.expertsPerLayer = start.expertsPerLayer
  capacity : ∀ layer, (system.cache.caches layer).capacity = (start.caches layer).capacity
  distinct : ∀ layer, (system.cache.caches layer).residentIds.Nodup
  room : ∀ layer<start.numLayers,
    (system.cache.caches layer).len+(system.cache.caches layer).reservedSlots ≤
      (system.cache.caches layer).capacity
  reserved : ∀ layer<start.numLayers,
    (system.cache.caches layer).reservedSlots = system.remaining layer
  ordered : ∀ reservation ∈ system.live, reservation.Ordered start
  falling : ∀ slots ∈ system.falling, slots.1<start.numLayers

/-- The pinned residents of every layer are still there. -/
def PinnedKept (a b : MultiLayerExpertCache) : Prop :=
  ∀ layer, ∀ id ∈ (a.caches layer).pinned, id ∈ (a.caches layer).residentIds →
    id ∈ (b.caches layer).residentIds

/-- A commit leaves the residents alone, and adds its own at most. -/
def OnlyAdds (resident : ExpertResident) (a b : MultiLayerExpertCache) : Prop :=
  ∀ layer, (b.caches layer).inner.entries = (a.caches layer).inner.entries ∨
    (b.caches layer).inner.entries = resident.entry::(a.caches layer).inner.entries

lemma OnlyAdds.refl (resident : ExpertResident) (a : MultiLayerExpertCache) :
    OnlyAdds resident a a :=
  fun _ => .inl rfl

lemma OnlyAdds.pinnedKept {resident : ExpertResident} {a b : MultiLayerExpertCache}
    (h : OnlyAdds resident a b) : PinnedKept a b := by
  intro layer id _ hmem
  obtain ⟨buffer,hbuffer⟩ := ExpertCache.mem_residentIds.mp hmem
  refine ExpertCache.mem_residentIds.mpr ⟨buffer,?_⟩
  cases h layer with
  | inl hsame =>
    rw [hsame]
    exact hbuffer
  | inr hadded =>
    rw [hadded]
    exact List.mem_cons_of_mem _ hbuffer

lemma tryLayerIdx_congr {a b : MultiLayerExpertCache} (hlayers : b.numLayers = a.numLayers)
    (hstride : b.expertsPerLayer = a.expertsPerLayer) (id : ℕ) :
    b.tryLayerIdx id = a.tryLayerIdx id := by
  rw [tryLayerIdx, tryLayerIdx, hlayers, hstride]

namespace Accounted
variable {start : MultiLayerExpertCache} {system : System}

lemma new {caps : List ℕ} {stride : ℕ} (h : withCapacities caps stride = some start) :
    Accounted start (.new start) := by
  unfold withCapacities at h
  split_ifs at h with hok
  cases h
  refine ⟨rfl,rfl,fun _ => rfl,fun layer => ExpertCache.nodup_residentIds _,fun layer hlayer => ?_,
    fun layer hlayer => ?_,List.forall_mem_nil _,List.forall_mem_nil _⟩
  · change layer<caps.length at hlayer
    change (dite _ _ _ : ExpertCache).len+(dite _ _ _ : ExpertCache).reservedSlots ≤
      (dite _ _ _ : ExpertCache).capacity
    rw [dif_pos hlayer]
    exact Nat.zero_le _
  · change layer<caps.length at hlayer
    change (dite _ _ _ : ExpertCache).reservedSlots = _
    rw [dif_pos hlayer]
    rfl

lemma store (h : Accounted start system) {cache : MultiLayerExpertCache}
    (hsound : LayersSound system.cache cache) : Accounted start (system.store cache) := by
  refine ⟨hsound.numLayers.trans h.numLayers,hsound.stride.trans h.stride,fun layer =>
    (hsound.layer layer).capacity.trans (h.capacity layer),fun _ => ExpertCache.nodup_residentIds _,
    fun layer hlayer => (hsound.layer layer).room (h.room layer hlayer),fun layer hlayer =>
    (hsound.layer layer).reserved.trans (h.reserved layer hlayer),h.ordered,h.falling⟩

lemma rooms (h : Accounted start system) : ∀ layer<system.cache.numLayers,
    (system.cache.caches layer).len+(system.cache.caches layer).reservedSlots ≤
      (system.cache.caches layer).capacity := by
  intro layer hlayer
  rw [h.numLayers] at hlayer
  exact h.room layer hlayer

/-- A reservation declines and changes nothing, or its positions are accounted for. -/
lemma tryReserve (h : Accounted start system) (ids : List ℕ) :
    (∃ error, system.tryReserve ids = some (system,.reserved (.error error))) ∨
      ∃ next outcome, system.tryReserve ids = some (next,.reserved (.ok outcome)) ∧
        Accounted start next ∧ PinnedKept system.cache next.cache := by
  unfold System.tryReserve
  obtain ⟨error,hspec⟩ | ⟨requests,plan,emptied,victims,hplan,hspec⟩ :=
    tryReserveExactDemand_spec h.rooms ids
  · rw [hspec]
    exact .inl ⟨error,rfl⟩
  rw [hspec]
  have hplanned := hplan.planned
  obtain ⟨hremaining,hconsistent⟩ := hplan.consistent
  refine .inr ⟨_,_,rfl,⟨hplanned.leaves.numLayers.trans h.numLayers,
    hplanned.leaves.stride.trans h.stride,fun layer =>
      (hplanned.leaves.layer layer).capacity.trans (h.capacity layer),
    fun _ => ExpertCache.nodup_residentIds _,fun layer hlayer => ?_,fun layer hlayer => ?_,?_,
    h.falling⟩,hplanned.leaves.pinned⟩
  · change (emptied.caches layer).len+((emptied.caches layer).reservedSlots+_) ≤
      (emptied.caches layer).capacity
    rw [← Nat.add_assoc, hplanned.finalReservations, (hplanned.leaves.layer layer).capacity]
    rw [← h.numLayers] at hlayer
    exact hplanned.bounded layer hlayer
  · have hsum := h.reserved layer hlayer
    change (emptied.caches layer).reservedSlots+plan.finalReservations layer = _
    unfold System.remaining at hsum ⊢
    dsimp only
    rw [(hplanned.leaves.layer layer).reserved, hsum, List.map_append, List.sum_append,
      List.map_singleton, List.sum_singleton, hremaining]
    omega
  · rw [List.forall_mem_append, List.forall_mem_singleton]
    refine ⟨h.ordered,hconsistent,fun id layer hmem => ?_⟩
    obtain ⟨i,hi⟩ := List.mem_iff_getElem?.mp hmem
    obtain ⟨hid,hfinal⟩ := List.getElem?_zip_eq_some.mp hi
    obtain ⟨request,hrequest,rfl⟩ := Option.map_eq_some_iff.mp (hplanned.target i layer hfinal)
    rw [← hplan.asked, List.getElem?_map, hrequest] at hid
    cases hid
    rw [← tryLayerIdx_congr h.numLayers h.stride]
    exact (hplan.layers request (List.mem_of_getElem? hrequest)).1

/-- Another reservation in the place of a live one. -/
lemma ordered_set (h : Accounted start system) {next : CacheReservation} (hnext : next.Ordered start)
    {index : ℕ} : ∀ reservation ∈ system.live.set index next, reservation.Ordered start := by
  intro reservation hmem
  obtain hold | rfl := List.mem_or_eq_of_mem_set hmem
  · exact h.ordered reservation hold
  · exact hnext

lemma remainingIn_le (h : Accounted start system) {index : ℕ} {reservation : CacheReservation}
    (hlive : system.live[index]? = some reservation) {layer : ℕ} (hlayer : layer<start.numLayers) :
    reservation.remainingIn layer ≤ (system.cache.caches layer).reservedSlots := by
  have hsum := sum_map_eraseIdx hlive fun reservation => reservation.remainingIn layer
  rw [h.reserved layer hlayer, System.remaining]
  omega

/-- The same positions under another turn. -/
lemma turn (h : Accounted start system) {index : ℕ} {reservation next : CacheReservation}
    (hlive : system.live[index]? = some reservation) (hnext : next.Ordered start)
    (hsame : ∀ layer, next.remainingIn layer = reservation.remainingIn layer) :
    Accounted start ⟨system.cache,system.live.set index next,system.falling⟩ := by
  refine ⟨h.numLayers,h.stride,h.capacity,h.distinct,h.room,fun layer hlayer => ?_,
    h.ordered_set hnext,h.falling⟩
  have hset := sum_map_set hlive (fun reservation => reservation.remainingIn layer) next
  dsimp only
  rw [h.reserved layer hlayer, System.remaining, System.remaining]
  dsimp only
  rw [hsame] at hset
  omega

/-- A commit of a request that stays takes a reserved position. -/
lemma consume (h : Accounted start system) {index id layer : ℕ} {reservation : CacheReservation}
    (hlive : system.live[index]? = some reservation)
    (hnext : reservation.requests[reservation.nextRequest]? = some (id,some layer))
    {inner : LruCache ℕ PooledBuffer} {entry : ℕ × PooledBuffer}
    (hentries : inner.entries = entry::(system.cache.caches layer).inner.entries)
    (hcap : inner.cap = (system.cache.caches layer).inner.cap) :
    Accounted start ⟨system.cache.setLayer layer { system.cache.caches layer with
        inner := inner, reservedSlots := (system.cache.caches layer).reservedSlots-1 },
      system.live.set index (reservation.consume layer),system.falling⟩ := by
  have hordered := h.ordered reservation (List.mem_of_getElem? hlive)
  have hlayer := tryLayerIdx_eq_some (hordered.addressed _ _ (List.mem_of_getElem? hnext))
  have hpositive := hordered.consistent.positive hnext
  have hle := h.remainingIn_le hlive hlayer
  refine ⟨h.numLayers,h.stride,fun l => ?_,fun _ => ExpertCache.nodup_residentIds _,
    fun l hl => ?_,fun l hl => ?_,
    h.ordered_set ⟨hordered.consistent.consume hnext,hordered.addressed⟩,h.falling⟩
  · dsimp only
    by_cases heq : l = layer
    · subst heq
      rw [caches_setLayer_self]
      exact hcap.trans (h.capacity l)
    · rw [caches_setLayer_of_ne _ heq]
      exact h.capacity l
  · dsimp only
    by_cases heq : l = layer
    · subst heq
      have hroom := h.room l hl
      rw [caches_setLayer_self]
      change inner.entries.length+((system.cache.caches l).reservedSlots-1) ≤ inner.cap
      change (system.cache.caches l).inner.entries.length+_ ≤
        (system.cache.caches l).inner.cap at hroom
      rw [hentries, hcap, List.length_cons]
      omega
    · rw [caches_setLayer_of_ne _ heq]
      exact h.room l hl
  · have hset := sum_map_set hlive (fun reservation => reservation.remainingIn l)
      (reservation.consume layer)
    have hsum := h.reserved l hl
    rw [CacheReservation.remainingIn_consume] at hset
    rw [System.remaining] at hsum ⊢
    dsimp only
    by_cases heq : l = layer
    · subst heq
      rw [if_pos rfl] at hset
      rw [caches_setLayer_self]
      dsimp only
      omega
    · rw [if_neg heq] at hset
      rw [caches_setLayer_of_ne _ heq]
      omega

/-- What a commit on a live reservation does. -/
lemma commit (h : Accounted start system) {index : ℕ} {reservation : CacheReservation}
    (hlive : system.live[index]? = some reservation) (resident : ExpertResident) :
    ∃ next result, system.commit index resident = some (next,.committed result) ∧
      Accounted start next ∧ OnlyAdds resident system.cache next.cache ∧
      ∀ error, result = .error error →
        reservation.requests[reservation.nextRequest]?.map Prod.fst = some resident.id →
        ∃ layer, start.tryLayerIdx resident.id = some layer ∧
          resident.id ∈ (system.cache.caches layer).residentIds := by
  have hordered := h.ordered reservation (List.mem_of_getElem? hlive)
  unfold System.commit
  rw [hlive]
  dsimp only
  by_cases hturn : reservation.requests[reservation.nextRequest]?.map Prod.fst = some resident.id
  · obtain ⟨⟨id,final⟩,hnext,hid⟩ := Option.map_eq_some_iff.mp hturn
    cases hid
    cases final with
    | none =>
      rw [commit_evicted hnext]
      exact ⟨_,_,rfl,h.turn hlive ⟨hordered.consistent.advance hnext,hordered.addressed⟩
        fun _ => rfl,.refl _ _,nofun⟩
    | some layer =>
      have hlayer := hordered.addressed _ _ (List.mem_of_getElem? hnext)
      have hrange := tryLayerIdx_eq_some hlayer
      obtain ⟨hmem,hcommit⟩ | ⟨-,inner,hcommit,hentries,hcap⟩ :=
        commit_final hnext hordered.consistent (h.remainingIn_le hlive hrange) (h.room layer hrange)
      · rw [hcommit]
        exact ⟨_,_,rfl,h.turn hlive hordered fun _ => rfl,.refl _ _,fun _ _ _ =>
          ⟨layer,hlayer,hmem⟩⟩
      · rw [hcommit]
        refine ⟨_,_,rfl,h.consume hlive hnext hentries hcap,fun l => ?_,nofun⟩
        dsimp only
        by_cases heq : l = layer
        · subst heq
          rw [caches_setLayer_self]
          exact .inr hentries
        · rw [caches_setLayer_of_ne _ heq]
          exact .inl rfl
  · rw [commit_out_of_turn hturn]
    exact ⟨_,_,rfl,h.turn hlive hordered fun _ => rfl,.refl _ _,fun _ _ hfirst =>
      absurd hfirst hturn⟩

lemma drop (h : Accounted start system) (index : ℕ) : Accounted start (system.drop index) := by
  unfold System.drop
  cases hlive : system.live[index]? with
  | none => exact h
  | some reservation =>
    refine ⟨h.numLayers,h.stride,h.capacity,h.distinct,h.room,fun layer hlayer => ?_,
      fun other hmem => h.ordered other (List.mem_of_mem_eraseIdx hmem),?_⟩
    · have herase := sum_map_eraseIdx hlive fun reservation => reservation.remainingIn layer
      have hguards := held_guards reservation layer start.numLayers
      rw [if_pos hlayer] at hguards
      dsimp only
      rw [h.reserved layer hlayer, System.remaining, System.remaining, h.numLayers]
      dsimp only
      rw [held_append]
      omega
    · rw [List.forall_mem_append]
      refine ⟨h.falling,fun slots hmem => ?_⟩
      rw [← h.numLayers]
      exact mem_guards hmem

/-- A guard gives back positions that are still reserved. -/
lemma release (h : Accounted start system) (index : ℕ) :
    ∃ next, system.release index = some next ∧ Accounted start next ∧
      PinnedKept system.cache next.cache := by
  unfold System.release
  cases hfalling : system.falling[index]? with
  | none => exact ⟨system,rfl,h,fun _ _ _ hmem => hmem⟩
  | some slots =>
    obtain ⟨layer,remaining⟩ := slots
    have hlayer := h.falling _ (List.mem_of_getElem? hfalling)
    have hsum := h.reserved layer hlayer
    have herased := held_eraseIdx hfalling layer
    rw [System.remaining] at hsum
    rw [if_pos rfl] at herased
    obtain ⟨cache,hrelease,hreserved,hinner⟩ :
        ∃ cache, (system.cache.caches layer).release remaining = some cache ∧
          cache.reservedSlots = (system.cache.caches layer).reservedSlots-remaining ∧
          cache.inner = (system.cache.caches layer).inner := by
      unfold ExpertCache.release
      split_ifs with hzero hunder
      · exact ⟨_,rfl,by omega,rfl⟩
      · omega
      · exact ⟨_,rfl,rfl,rfl⟩
    dsimp only
    rw [hrelease]
    have hinners : ∀ l, ((system.cache.setLayer layer cache).caches l).inner =
        (system.cache.caches l).inner := by
      intro l
      by_cases heq : l = layer
      · subst heq
        rw [caches_setLayer_self]
        exact hinner
      · rw [caches_setLayer_of_ne _ heq]
    refine ⟨_,rfl,⟨h.numLayers,h.stride,fun l => ?_,fun _ => ExpertCache.nodup_residentIds _,
      fun l hl => ?_,fun l hl => ?_,h.ordered,fun slots hmem =>
        h.falling slots (List.mem_of_mem_eraseIdx hmem)⟩,fun l id _ hmem => ?_⟩
    · change ((system.cache.setLayer layer cache).caches l).inner.cap = _
      rw [hinners]
      exact h.capacity l
    · have hroom := h.room l hl
      change ((system.cache.setLayer layer cache).caches l).inner.len+_ ≤
        ((system.cache.setLayer layer cache).caches l).inner.cap
      change (system.cache.caches l).inner.len+_ ≤ (system.cache.caches l).inner.cap at hroom
      rw [hinners]
      by_cases heq : l = layer
      · subst heq
        rw [caches_setLayer_self]
        omega
      · rw [caches_setLayer_of_ne _ heq]
        exact hroom
    · have hold := h.reserved l hl
      have herase := held_eraseIdx hfalling l
      rw [System.remaining] at hold ⊢
      dsimp only
      by_cases heq : l = layer
      · subst heq
        rw [caches_setLayer_self]
        omega
      · rw [caches_setLayer_of_ne _ heq]
        rw [if_neg fun hcontra => heq hcontra.symm] at herase
        omega
    · change id ∈ ((system.cache.setLayer layer cache).caches l).inner.keys
      rw [hinners]
      exact hmem

lemma pinnedKept_of_sound {a b : MultiLayerExpertCache} (h : LayersSound a b) : PinnedKept a b :=
  fun layer id hpinned hmem => (h.layer layer).pinned id hpinned hmem

/-- No step panics, loses a position, lets one be taken twice, or removes a pinned resident. -/
theorem step (h : Accounted start system) (operation : Operation) :
    ∃ next answer, system.step operation = some (next,answer) ∧ Accounted start next ∧
      PinnedKept system.cache next.cache := by
  have hstore : ∀ {cache : MultiLayerExpertCache}, LayersSound system.cache cache →
      Accounted start (system.store cache) ∧ PinnedKept system.cache (system.store cache).cache :=
    fun hsound => ⟨h.store hsound,pinnedKept_of_sound hsound⟩
  cases operation with
  | get id => exact ⟨_,_,rfl,hstore (.get _ id)⟩
  | insert colder resident => exact ⟨_,_,rfl,hstore (.insert h.rooms colder resident)⟩
  | evictLru colder => exact ⟨_,_,rfl,hstore (.evictLru _ colder)⟩
  | evictLruIn colder layer => exact ⟨_,_,rfl,hstore (.setLayer (ExpertCache.evictLru_sound _ colder))⟩
  | evictLruShadowBacked => exact ⟨_,_,rfl,hstore (.evictLruShadowBacked _)⟩
  | evictLruShadowBackedIn layer =>
    exact ⟨_,_,rfl,hstore (.setLayer (ExpertCache.evictLruShadowBacked_sound _))⟩
  | pin id => exact ⟨_,_,rfl,hstore (.pin _ id)⟩
  | unpin id => exact ⟨_,_,rfl,hstore (.unpin _ id)⟩
  | setCostAware on => exact ⟨_,_,rfl,hstore (.setCostAware _ on)⟩
  | setCostAwareIn on layer => exact ⟨_,_,rfl,hstore (.setLayer (.setCostAware _ on))⟩
  | tryReserveExactDemand ids =>
    obtain ⟨error,hdeclined⟩ | ⟨next,outcome,hreserved,hnext,hkept⟩ := h.tryReserve ids
    · exact ⟨_,_,hdeclined,h,fun _ _ _ hmem => hmem⟩
    · exact ⟨_,_,hreserved,hnext,hkept⟩
  | commit index resident =>
    cases hlive : system.live[index]? with
    | none =>
      refine ⟨system,.unit,?_,h,fun _ _ _ hmem => hmem⟩
      change system.commit index resident = _
      unfold System.commit
      rw [hlive]
    | some reservation =>
      obtain ⟨next,result,hcommit,hnext,hadds,-⟩ := h.commit hlive resident
      exact ⟨_,_,hcommit,hnext,hadds.pinnedKept⟩
  | drop index =>
    refine ⟨_,_,rfl,h.drop index,fun layer id _ hmem => ?_⟩
    unfold System.drop
    cases system.live[index]? with
    | none => exact hmem
    | some reservation => exact hmem
  | release index =>
    obtain ⟨next,hrelease,hnext,hkept⟩ := h.release index
    refine ⟨next,.unit,?_,hnext,hkept⟩
    change (system.release index).map _ = _
    rw [hrelease]
    rfl

theorem run (h : Accounted start system) (operations : List Operation) :
    ∃ last, system.run operations = some last ∧ Accounted start last := by
  induction operations generalizing system with
  | nil => exact ⟨system,rfl,h⟩
  | cons operation operations ih =>
    obtain ⟨next,answer,hstep,hnext,-⟩ := h.step operation
    obtain ⟨last,hrun,hlast⟩ := ih hnext
    refine ⟨last,?_,hlast⟩
    rw [System.run, List.foldlM_cons, hstep]
    exact hrun

end Accounted

/-- What every operation does from here. -/
structure Careful (start : MultiLayerExpertCache) (system : System) : Prop where
  proceeds : ∀ operation, ∃ next answer, system.step operation = some (next,answer)
  pinned : ∀ operation next answer, system.step operation = some (next,answer) →
    PinnedKept system.cache next.cache
  commits : ∀ index resident next answer, system.step (.commit index resident) = some (next,answer) →
    OnlyAdds resident system.cache next.cache
  fails : ∀ index (reservation : CacheReservation) resident next error,
    system.live[index]? = some reservation →
    reservation.requests[reservation.nextRequest]?.map Prod.fst = some resident.id →
    system.step (.commit index resident) = some (next,.committed (.error error)) →
    ∃ layer, start.tryLayerIdx resident.id = some layer ∧
      resident.id ∈ (system.cache.caches layer).residentIds
  refuses : ∀ colder resident next error,
    system.step (.insert colder resident) = some (next,.inserted (.error error)) → next = system
  declines : ∀ ids next error,
    system.step (.tryReserveExactDemand ids) = some (next,.reserved (.error error)) → next = system

lemma insert_error {self : MultiLayerExpertCache} {colder : ℕ → ℕ → Bool}
    {resident error : ExpertResident} (h : (self.insert colder resident).2 = .error error) :
    (self.insert colder resident).1 = self := by
  unfold MultiLayerExpertCache.insert at h ⊢
  cases hlayer : self.tryLayerIdx resident.id with
  | none => rfl
  | some layer =>
    rw [hlayer] at h
    change self.setLayer layer ((self.caches layer).insert colder resident).1 = self
    rw [ExpertCache.insert_error h, setLayer_self]

lemma Accounted.careful {start : MultiLayerExpertCache} {system : System}
    (h : Accounted start system) : Careful start system where
  proceeds operation := by
    obtain ⟨next,answer,hstep,-⟩ := h.step operation
    exact ⟨next,answer,hstep⟩
  pinned operation next answer hstep := by
    obtain ⟨_,_,hstep',-,hkept⟩ := h.step operation
    rw [hstep] at hstep'
    cases hstep'
    exact hkept
  commits index resident next answer hstep := by
    change system.commit index resident = _ at hstep
    cases hlive : system.live[index]? with
    | none =>
      unfold System.commit at hstep
      rw [hlive] at hstep
      cases hstep
      exact .refl _ _
    | some reservation =>
      obtain ⟨_,_,hcommit,-,hadds,-⟩ := h.commit hlive resident
      rw [hstep] at hcommit
      cases hcommit
      exact hadds
  fails index reservation resident next error hlive hturn hstep := by
    obtain ⟨_,_,hcommit,-,-,hfails⟩ := h.commit hlive resident
    change system.commit index resident = _ at hstep
    rw [hstep] at hcommit
    cases hcommit
    exact hfails error rfl hturn
  refuses colder resident next error hstep := by
    have hpair := Option.some.inj hstep
    have hresult := Answer.inserted.inj (congrArg Prod.snd hpair)
    have hnext : system.store (system.cache.insert colder resident).1 = next :=
      congrArg Prod.fst hpair
    rw [← hnext, insert_error hresult]
    rfl
  declines ids next error hstep := by
    change system.tryReserve ids = _ at hstep
    obtain ⟨_,hdeclined⟩ | ⟨_,_,hreserved,-⟩ := h.tryReserve ids
    · rw [hstep] at hdeclined
      cases hdeclined
      rfl
    · rw [hstep] at hreserved
      cases hreserved

/-- Reserved positions are never stolen and never leak: whatever operations ran in whatever order,
none panicked, residents and reserved positions share the capacity of each layer, every reserved
position belongs to a live guard, and the next operation is careful again. -/
theorem interleavings_keep_reservations {perLayerCaps : List ℕ} {expertsPerLayer : ℕ}
    {start : MultiLayerExpertCache} (h : withCapacities perLayerCaps expertsPerLayer = some start)
    (operations : List Operation) :
    ∃ system, (System.new start).run operations = some system ∧ Accounted start system ∧
      Careful start system := by
  obtain ⟨system,hrun,hsystem⟩ := (Accounted.new h).run operations
  exact ⟨system,hrun,hsystem,hsystem.careful⟩

/-- A reservation for the experts 2 and 9 spares the pinned expert 0. While it lives, an insertion
finds no room; after one commit its other position falls back. -/
theorem interleavings_keep_reservations_dropped :
    ∃ start system, withCapacities [2,1] 8 = some start ∧
      (System.new start).run [.insert (fun _ _ => true) ⟨0,⟨false⟩⟩,.pin 0,
        .insert (fun _ _ => true) ⟨1,⟨false⟩⟩,.tryReserveExactDemand [2,9],
        .insert (fun _ _ => true) ⟨3,⟨false⟩⟩,.commit 0 ⟨2,⟨false⟩⟩,.drop 0,.release 0,.release 0] =
          some system ∧
      (system.cache.caches 0).residentIds = [2,0] ∧ system.remaining 1 = 0 ∧
      (system.cache.caches 1).reservedSlots = 0 := by
  obtain ⟨start,hstart⟩ : ∃ start, withCapacities [2,1] 8 = some start := ⟨_,rfl⟩
  obtain ⟨system,hrun,hsystem,-⟩ := interleavings_keep_reservations hstart
    [.insert (fun _ _ => true) ⟨0,⟨false⟩⟩,.pin 0,
      .insert (fun _ _ => true) ⟨1,⟨false⟩⟩,.tryReserveExactDemand [2,9],
      .insert (fun _ _ => true) ⟨3,⟨false⟩⟩,.commit 0 ⟨2,⟨false⟩⟩,.drop 0,.release 0,.release 0]
  have hend : ((withCapacities [2,1] 8).bind fun start => ((System.new start).run
      [.insert (fun _ _ => true) ⟨0,⟨false⟩⟩,.pin 0,
        .insert (fun _ _ => true) ⟨1,⟨false⟩⟩,.tryReserveExactDemand [2,9],
        .insert (fun _ _ => true) ⟨3,⟨false⟩⟩,.commit 0 ⟨2,⟨false⟩⟩,.drop 0,.release 0,
        .release 0]).map fun system =>
          ((system.cache.caches 0).residentIds,system.remaining 1)) = some ([2,0],0) := by
    decide +kernel
  rw [hstart, Option.bind_some, hrun, Option.map_some] at hend
  obtain ⟨hids,hremaining⟩ := Prod.mk.inj (Option.some.inj hend)
  refine ⟨start,system,hstart,hrun,hids,hremaining,?_⟩
  rw [hsystem.reserved 1, hremaining]
  cases hstart
  decide

end MicroExpertRouter.RamCache
