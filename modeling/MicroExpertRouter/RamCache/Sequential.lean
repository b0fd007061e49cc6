import MicroExpertRouter.RamCache.ExactDemand

/-! The legacy fetch loop, which evicts and inserts one expert after the other, beside the
exact-demand reservation that plans the same evictions ahead. -/
namespace MicroExpertRouter.RamCache
open MultiLayerExpertCache

namespace MultiLayerExpertCache

/-- The cache side of the legacy `fetch_once`: the evicted ids in order. -/
def fetchOnce (self : MultiLayerExpertCache) (colder : ℕ → ℕ → Bool) (resident : ExpertResident) :
    MultiLayerExpertCache × List ℕ :=
  let (roomy,first) := if self.capacity ≤ self.len then self.evictLru colder else (self,none)
  match roomy.insert colder resident with
  | (next,.error _) => (next,(first.map ExpertResident.id).toList)
  | (next,.ok second) =>
    (next,(first.map ExpertResident.id).toList++(second.map ExpertResident.id).toList)

def fetchSequentially (colder : ℕ → ℕ → Bool) :
    List ExpertResident → MultiLayerExpertCache → MultiLayerExpertCache × List ℕ
  | [], self => (self,[])
  | resident::residents, self =>
    let (next,evicted) := self.fetchOnce colder resident
    let (last,rest) := fetchSequentially colder residents next
    (last,evicted++rest)

/-- Commits in request order, with their answers. -/
def commitAll : List ExpertResident → MultiLayerExpertCache → CacheReservation →
    Option (MultiLayerExpertCache × CacheReservation × List (Except ExpertResident Bool))
  | [], self, reservation => some (self,reservation,[])
  | resident::residents, self, reservation => do
    let (next,rest,answer) ← self.commit reservation resident
    let (last,final,answers) ← commitAll residents next rest
    return (last,final,answer::answers)

end MultiLayerExpertCache

/-- The resident that a virtual entry of a layer stands for. -/
def Matches (whole : MultiLayerExpertCache) (residents : List ExpertResident) (layer : ℕ)
    (entry : VirtualCacheEntry) (real : ℕ × PooledBuffer) : Prop :=
  match entry with
  | .resident id pinned => real.1 = id ∧ real ∈ (whole.caches layer).inner.entries ∧
      pinned = decide (real.1 ∈ (whole.caches layer).pinned)
  | .requested id i pinned => real.1 = id ∧
      residents[i]?.map ExpertResident.entry = some real ∧
      pinned = decide (real.1 ∈ (whole.caches layer).pinned)
  | .outstandingReservation => False

section Matches
variable {whole : MultiLayerExpertCache} {residents : List ExpertResident} {layer : ℕ}
  {entry : VirtualCacheEntry} {real other : ℕ × PooledBuffer}

lemma Matches.unpinned {cache : ExpertCache} (h : Matches whole residents layer entry real)
    (hpinned : cache.pinned = (whole.caches layer).pinned) :
    (!entry.pinned) = cache.unpinned real := by
  rw [ExpertCache.unpinned, hpinned, decide_not]
  cases entry with
  | resident id pinned => exact congrArg _ h.2.2
  | requested id i pinned => exact congrArg _ h.2.2
  | outstandingReservation => exact h.elim

lemma Matches.unique (h : Matches whole residents layer entry real)
    (h' : Matches whole residents layer entry other) : real = other := by
  cases entry with
  | resident id pinned =>
    refine Prod.ext (h.1.trans h'.1.symm) ?_
    have hsame : real.1 = other.1 := h.1.trans h'.1.symm
    have hmem : (other.1,real.2) ∈ (whole.caches layer).inner.entries := by
      rw [← hsame]
      exact h.2.1
    exact (whole.caches layer).inner.distinct.eq hmem h'.2.1
  | requested id i pinned => exact Option.some.inj (h.2.1.symm.trans h'.2.1)
  | outstandingReservation => exact h.elim

end Matches

lemma heaviest_congr {lens lens' : ℕ → ℕ} {n : ℕ} (h : ∀ layer<n, lens layer = lens' layer) :
    heaviest lens n = heaviest lens' n := by
  unfold heaviest
  congr 1
  refine List.foldl_ext _ _ _ fun best layer hlayer => ?_
  rw [h layer (List.mem_range.mp hlayer)]

/-- The legacy cache after some fetches is what the layers of the plan stand for; the residents
from `k` on are still to come. -/
structure Simulates (whole : MultiLayerExpertCache) (residents : List ExpertResident) (k : ℕ)
    (layers : ℕ → List VirtualCacheEntry) (seq : MultiLayerExpertCache) : Prop where
  numLayers : seq.numLayers = whole.numLayers
  stride : seq.expertsPerLayer = whole.expertsPerLayer
  layer : ∀ layer<whole.numLayers,
    List.Forall₂ (Matches whole residents layer) (layers layer) (seq.caches layer).inner.entries
  frame : ∀ layer<whole.numLayers, ExpertCache.Holding (whole.caches layer) (seq.caches layer)
    (seq.caches layer).inner.entries
  absent : ∀ i, k ≤ i → ∀ resident, residents[i]? = some resident → ∀ layer<whole.numLayers,
    resident.id ∉ (seq.caches layer).residentIds

section Simulation
variable {whole seq : MultiLayerExpertCache} {residents : List ExpertResident} {k : ℕ}
  {plan : VictimPlan} {colder : ℕ → ℕ → Bool}

lemma Simulates.setLayer {layers : ℕ → List VirtualCacheEntry}
    (h : Simulates whole residents k layers seq) {layer j : ℕ} (hlayer : layer<whole.numLayers)
    {entries : List VirtualCacheEntry} {real : List (ℕ × PooledBuffer)} {cache : ExpertCache}
    (hmatch : List.Forall₂ (Matches whole residents layer) entries real)
    (hholding : ExpertCache.Holding (seq.caches layer) cache real) (hj : k ≤ j)
    (habsent : ∀ i, j ≤ i → ∀ resident, residents[i]? = some resident →
      resident.id ∉ real.map Prod.fst) :
    Simulates whole residents j (Function.update layers layer entries)
      (seq.setLayer layer cache) := by
  refine ⟨h.numLayers,h.stride,fun l hl => ?_,fun l hl => ?_,fun i hi resident hresident l hl => ?_⟩
  · by_cases heq : l = layer
    · subst heq
      rw [Function.update_self, caches_setLayer_self, hholding.entries]
      exact hmatch
    · rw [Function.update_of_ne heq, caches_setLayer_of_ne _ heq]
      exact h.layer l hl
  · by_cases heq : l = layer
    · subst heq
      rw [caches_setLayer_self, hholding.entries]
      exact (h.frame l hl).trans hholding
    · rw [caches_setLayer_of_ne _ heq]
      exact h.frame l hl
  · by_cases heq : l = layer
    · subst heq
      rw [caches_setLayer_self]
      change resident.id ∉ cache.inner.entries.map Prod.fst
      rw [hholding.entries]
      exact habsent i hi resident hresident
    · rw [caches_setLayer_of_ne _ heq]
      exact h.absent i (hj.trans hi) resident hresident l hl

/-- The victim of the plan in a layer is the last unpinned resident of the legacy cache. -/
lemma Simulates.takes (h : Simulates whole residents k plan.layers seq) {layer : ℕ}
    (hlayer : layer<whole.numLayers) :
    (takeLast (seq.caches layer).unpinned (seq.caches layer).inner.entries = none ∧
      plan.removeVictim layer = .ok none) ∨
    ∃ entry left next rest,
      takeLast (seq.caches layer).unpinned (seq.caches layer).inner.entries = some (entry,left) ∧
      plan.removeVictim layer = .ok (some next) ∧
      next.evictionIds = plan.evictionIds++[entry.1] ∧
      next.layers = Function.update plan.layers layer rest ∧
      List.Forall₂ (Matches whole residents layer) rest left ∧
      ∀ i, k ≤ i → ∀ resident, residents[i]? = some resident →
        resident.id ∉ left.map Prod.fst := by
  have hframe := h.frame layer hlayer
  unfold VictimPlan.removeVictim
  rcases takeLast_forall₂ (h.layer layer hlayer) fun entry real hmatch =>
    hmatch.unpinned hframe.pinned with
    ⟨hplan,hnone⟩ | ⟨virt,rest,entry,left,hplan,hsome,hmatch,hrest⟩
  · rw [hplan]
    exact .inl ⟨hnone,rfl⟩
  rw [hplan]
  obtain ⟨-,before,after,hsplit,hleft,-⟩ := takeLast_eq_some hsome
  have habsent : ∀ i, k ≤ i → ∀ resident, residents[i]? = some resident →
      resident.id ∉ left.map Prod.fst := by
    intro i hi resident hresident hmem
    refine h.absent i hi resident hresident layer hlayer ?_
    change resident.id ∈ (seq.caches layer).inner.entries.map Prod.fst
    rw [hleft, List.map_append, List.mem_append] at hmem
    rw [hsplit, List.map_append, List.map_cons, List.mem_append, List.mem_cons]
    exact hmem.imp id .inr
  cases virt with
  | resident id pinned =>
    obtain rfl := hmatch.1
    exact .inr ⟨entry,left,_,rest,hsome,rfl,rfl,rfl,hrest,habsent⟩
  | requested id i pinned =>
    obtain rfl := hmatch.1
    exact .inr ⟨entry,left,_,rest,hsome,rfl,rfl,rfl,hrest,habsent⟩
  | outstandingReservation => exact hmatch.elim

/-- A removal and the eviction of the same layer. -/
lemma Simulates.removeVictim (h : Simulates whole residents k plan.layers seq) {layer : ℕ}
    (hlayer : layer<whole.numLayers) (hstrict : (whole.caches layer).costAware = false) :
    (plan.removeVictim layer = .ok none ∧
      (seq.caches layer).evictLru colder = (seq.caches layer,none)) ∨
    ∃ next victim, plan.removeVictim layer = .ok (some next) ∧
      next.evictionIds = plan.evictionIds++[victim.id] ∧
      ((seq.caches layer).evictLru colder).2 = some victim ∧
      Simulates whole residents k next.layers
        (seq.setLayer layer ((seq.caches layer).evictLru colder).1) := by
  have hcost := (h.frame layer hlayer).costAware.trans hstrict
  rcases @ExpertCache.evictLru_strict (seq.caches layer) colder hcost with
    ⟨hnone,hevict⟩ | ⟨entry,left,hsome,hvictim,hholding⟩
  · rcases h.takes hlayer with ⟨-,hplan⟩ | ⟨_,_,_,_,hcontra,-⟩
    · exact .inl ⟨hplan,hevict⟩
    · rw [hnone] at hcontra
      cases hcontra
  · rcases h.takes hlayer with ⟨hcontra,-⟩ |
      ⟨entry',left',next,rest,hsome',hplan,hids,hlayers,hrest,habsent⟩
    · rw [hsome] at hcontra
      cases hcontra
    rw [hsome] at hsome'
    cases hsome'
    refine .inr ⟨next,⟨entry.1,entry.2⟩,hplan,hids,hvictim,?_⟩
    rw [hlayers]
    exact h.setLayer hlayer hrest hholding le_rfl habsent

/-- The walk over the layers finds the same victim. -/
lemma Simulates.removeFirst (h : Simulates whole residents k plan.layers seq)
    (hstrict : ∀ layer<whole.numLayers, (whole.caches layer).costAware = false) {layers : List ℕ}
    (hlayers : ∀ layer ∈ layers, layer<whole.numLayers) {next : VictimPlan}
    (hremove : plan.removeFirst layers = .ok (some next)) :
    ∃ roomy victim, evictFirst (fun cache => cache.evictLru colder) layers seq =
        (roomy,some victim) ∧
      next.evictionIds = plan.evictionIds++[victim.id] ∧
      Simulates whole residents k next.layers roomy := by
  induction layers with
  | nil => cases hremove
  | cons layer layers ih =>
    obtain ⟨hlayer,hlayers⟩ := List.forall_mem_cons.mp hlayers
    obtain ⟨result,hresult,hremove⟩ := bind_eq_ok.mp hremove
    unfold evictFirst
    rcases @Simulates.removeVictim _ _ _ _ _ colder h layer hlayer (hstrict layer hlayer) with
      ⟨hnone,hevict⟩ | ⟨removed,victim,hsome,hids,hvictim,hnext⟩
    · rw [hnone] at hresult
      cases hresult
      rw [hevict]
      dsimp only
      rw [setLayer_self]
      exact ih hlayers hremove
    · rw [hsome] at hresult
      cases hresult
      cases hremove
      generalize (seq.caches layer).evictLru colder = evicted at hvictim hnext
      obtain ⟨cache,answer⟩ := evicted
      cases hvictim
      exact ⟨_,victim,rfl,hids,hnext⟩

/-- The lengths of the plan are those of the legacy cache. -/
lemma Simulates.lengths (h : Simulates whole residents k plan.layers seq) {layer : ℕ}
    (hlayer : layer<whole.numLayers) : (plan.layers layer).length = (seq.caches layer).len :=
  (h.layer layer hlayer).length_eq

lemma Simulates.len (h : Simulates whole residents k plan.layers seq) :
    seq.len = ∑ layer ∈ Finset.range whole.numLayers, (plan.layers layer).length := by
  unfold MultiLayerExpertCache.len
  rw [h.numLayers]
  exact Finset.sum_congr rfl fun layer hlayer => (h.lengths (Finset.mem_range.mp hlayer)).symm

lemma Simulates.capacity (h : Simulates whole residents k plan.layers seq) :
    seq.capacity = ∑ layer ∈ Finset.range whole.numLayers, (whole.caches layer).capacity := by
  unfold MultiLayerExpertCache.capacity
  rw [h.numLayers]
  exact Finset.sum_congr rfl fun layer hlayer =>
    (h.frame layer (Finset.mem_range.mp hlayer)).capacity

/-- The aggregate eviction and the first half of a legacy fetch. -/
lemma Simulates.makeRoom (h : Simulates whole residents k plan.layers seq)
    (hstrict : ∀ layer<whole.numLayers, (whole.caches layer).costAware = false)
    (htotal : plan.total =
      ∑ layer ∈ Finset.range whole.numLayers, (plan.layers layer).length) {roomy : VictimPlan}
    (hroom : plan.makeRoom whole.numLayers
      (∑ layer ∈ Finset.range whole.numLayers, (whole.caches layer).capacity) = .ok roomy) :
    ∃ next first, (if seq.capacity ≤ seq.len then seq.evictLru colder else (seq,none)) =
        (next,first) ∧
      roomy.evictionIds = plan.evictionIds++(first.map ExpertResident.id).toList ∧
      Simulates whole residents k roomy.layers next := by
  unfold VictimPlan.makeRoom at hroom
  rw [h.capacity, h.len, ← htotal]
  split_ifs at hroom ⊢ with hfull
  · unfold MultiLayerExpertCache.evictLru
    have hsame : heaviest (fun layer => (seq.caches layer).len) seq.numLayers =
        heaviest (fun layer => (plan.layers layer).length) whole.numLayers := by
      rw [h.numLayers]
      exact heaviest_congr fun layer hlayer => (h.lengths hlayer).symm
    rw [hsame]
    cases hheaviest : heaviest (fun layer => (plan.layers layer).length) whole.numLayers with
    | none =>
      rw [hheaviest] at hroom
      cases hroom
    | some start =>
      rw [hheaviest] at hroom
      obtain ⟨result,hresult,hroom⟩ := bind_eq_ok.mp hroom
      cases result with
      | none => cases hroom
      | some removed =>
        cases hroom
        obtain ⟨next,victim,hevict,hids,hnext⟩ := @Simulates.removeFirst _ _ _ _ _ colder h hstrict
          (layersFrom start whole.numLayers)
          (fun layer hlayer => mem_layersFrom whole.layersPositive hlayer) removed hresult
        refine ⟨next,some victim,?_,hids,hnext⟩
        dsimp only
        rw [h.numLayers]
        exact hevict
  · cases hroom
    exact ⟨seq,none,rfl,(List.append_nil _).symm,h⟩

/-- Distinct residents have their ids at one position each. -/
lemma position_unique (hnodup : (residents.map ExpertResident.id).Nodup) {i j : ℕ}
    {resident other : ExpertResident} (hi : residents[i]? = some resident)
    (hj : residents[j]? = some other) (hid : resident.id = other.id) : i = j := by
  have hi' : (residents.map ExpertResident.id)[i]? = some resident.id := by
    rw [List.getElem?_map, hi]
    rfl
  have hj' : (residents.map ExpertResident.id)[j]? = some resident.id := by
    rw [List.getElem?_map, hj, hid]
    rfl
  exact (List.getElem?_inj (List.getElem?_eq_some_iff.mp hi').1 hnodup).mp (hi'.trans hj'.symm)

/-- The target eviction, the placement and the second half of a legacy fetch. -/
lemma Simulates.insert (h : Simulates whole residents k plan.layers seq)
    (hstrict : ∀ layer<whole.numLayers, (whole.caches layer).costAware = false)
    (hreserved : ∀ layer<whole.numLayers, (whole.caches layer).reservedSlots = 0)
    (hnodup : (residents.map ExpertResident.id).Nodup) {resident : ExpertResident}
    (hresident : residents[k]? = some resident) {request : Request}
    (hid : request.id = resident.id)
    (hlayer : whole.tryLayerIdx request.id = some request.layer ∧
      request.pinned = decide (request.id ∈ (whole.caches request.layer).pinned))
    {ready : VictimPlan}
    (hroom : plan.makeRoomIn (fun layer => (whole.caches layer).capacity) request.layer =
      .ok ready) :
    ∃ next second, seq.insert colder resident = (next,.ok second) ∧
      (ready.place k request).evictionIds =
        plan.evictionIds++(second.map ExpertResident.id).toList ∧
      Simulates whole residents (k+1) (ready.place k request).layers next := by
  have hlt := tryLayerIdx_eq_some hlayer.1
  have hframe := h.frame request.layer hlt
  have hindex : seq.tryLayerIdx resident.id = some request.layer := by
    rw [← hid, ← hlayer.1]
    unfold tryLayerIdx
    rw [h.numLayers, h.stride]
  -- Later requests are other experts.
  have hlater : ∀ i, k+1 ≤ i → ∀ other, residents[i]? = some other → other.id ≠ resident.id := by
    intro i hi other hother heq
    have hsame := position_unique hnodup hother hresident heq
    omega
  have hmatch : Matches whole residents request.layer
      (.requested request.id k request.pinned) resident.entry := by
    refine ⟨hid.symm,?_,?_⟩
    · rw [hresident]
      rfl
    · rw [hlayer.2, hid]
      rfl
  have habsent := h.absent k le_rfl resident hresident request.layer hlt
  have hzero : (seq.caches request.layer).reservedSlots = 0 :=
    hframe.reserved.trans (hreserved request.layer hlt)
  have hlength := h.lengths hlt
  have hcapacity := hframe.capacity
  unfold MultiLayerExpertCache.insert
  rw [hindex]
  dsimp only
  rcases @ExpertCache.insert_strict (seq.caches request.layer) colder resident
    (hframe.costAware.trans (hstrict request.layer hlt)) habsent with
    ⟨hfree,hanswer,hholding⟩ | ⟨hfull,hnone,-⟩ | ⟨entry,left,hfull,hsome,hanswer,hholding⟩
  · -- The layer has a place left.
    have hready : ready = plan := by
      rw [VictimPlan.makeRoomIn, if_neg (by omega)] at hroom
      cases hroom
      rfl
    subst hready
    refine ⟨_,none,Prod.ext rfl hanswer,(List.append_nil _).symm,?_⟩
    refine h.setLayer hlt (.cons hmatch (h.layer request.layer hlt)) hholding (Nat.le_succ k) ?_
    intro i hi other hother hmem
    rcases List.mem_cons.mp hmem with heq | hmem
    · exact hlater i hi other hother heq
    · exact h.absent i (by omega) other hother request.layer hlt hmem
  · -- Nobody may go, so there is no plan.
    rcases h.takes hlt with ⟨-,hremove⟩ | ⟨_,_,_,_,hcontra,-⟩
    · rw [VictimPlan.makeRoomIn, if_pos (by omega), hremove] at hroom
      cases hroom
    · rw [hnone] at hcontra
      cases hcontra
  · rcases h.takes hlt with ⟨hcontra,-⟩ |
      ⟨entry',left',removed,rest,hsome',hremove,hids,hlayers,hrest,hgone⟩
    · rw [hsome] at hcontra
      cases hcontra
    rw [hsome] at hsome'
    cases hsome'
    rw [VictimPlan.makeRoomIn, if_pos (by omega), hremove] at hroom
    cases hroom
    refine ⟨_,some ⟨entry.1,entry.2⟩,Prod.ext rfl hanswer,hids,?_⟩
    have hplaced : ∀ virt : VirtualCacheEntry,
        Function.update removed.layers request.layer (virt::removed.layers request.layer) =
          Function.update plan.layers request.layer (virt::rest) := by
      intro virt
      rw [hlayers, Function.update_self, Function.update_idem]
    change Simulates whole residents (k+1) (Function.update removed.layers request.layer
      (_::removed.layers request.layer)) _
    rw [hplaced]
    refine h.setLayer hlt (.cons hmatch hrest) hholding (Nat.le_succ k) ?_
    intro i hi other hother hmem
    rcases List.mem_cons.mp hmem with heq | hmem
    · exact hlater i hi other hother heq
    · exact hgone i (by omega) other hother hmem

end Simulation

section Fetches
variable {whole : MultiLayerExpertCache} {residents : List ExpertResident}
  {requests : List Request} {colder : ℕ → ℕ → Bool}

/-- A demand of absent experts on a cache without reservations and without cost-aware eviction. -/
structure Demanded (whole : MultiLayerExpertCache) (residents : List ExpertResident)
    (requests : List Request) : Prop where
  strict : ∀ layer<whole.numLayers, (whole.caches layer).costAware = false
  unreserved : ∀ layer<whole.numLayers, (whole.caches layer).reservedSlots = 0
  nodup : (residents.map ExpertResident.id).Nodup
  asked : requests.map Request.id = residents.map ExpertResident.id
  layers : ∀ request ∈ requests, whole.tryLayerIdx request.id = some request.layer ∧
    request.pinned = decide (request.id ∈ (whole.caches request.layer).pinned)
  absent : ∀ resident ∈ residents, ∀ layer<whole.numLayers,
    resident.id ∉ (whole.caches layer).residentIds

lemma Demanded.request (h : Demanded whole residents requests) {i : ℕ} {resident : ExpertResident}
    (hresident : residents[i]? = some resident) :
    ∃ request, requests[i]? = some request ∧ request.id = resident.id := by
  have hid : (requests.map Request.id)[i]? = some resident.id := by
    rw [h.asked, List.getElem?_map, hresident]
    rfl
  rw [List.getElem?_map] at hid
  obtain ⟨request,hrequest,hid⟩ := Option.map_eq_some_iff.mp hid
  exact ⟨request,hrequest,hid⟩

lemma Demanded.simulates (h : Demanded whole residents requests) :
    Simulates whole residents 0 (fun layer => virtualLayer (whole.caches layer)) whole := by
  refine ⟨rfl,rfl,fun layer hlayer => ?_,fun layer _ => ⟨rfl,rfl,rfl,rfl,rfl⟩,
    fun i _ resident hresident => h.absent resident (List.mem_of_getElem? hresident)⟩
  rw [virtualLayer, h.unreserved layer hlayer, List.replicate_zero, List.nil_append,
    List.forall₂_map_left_iff, List.forall₂_same]
  exact fun entry hentry => ⟨rfl,hentry,rfl⟩

/-- One turn of the planner is one legacy fetch. -/
lemma Simulates.serve (hdemand : Demanded whole residents requests) {k : ℕ}
    {plan next : VictimPlan} {seq : MultiLayerExpertCache}
    (h : Simulates whole residents k plan.layers seq)
    (htotal : plan.total = ∑ layer ∈ Finset.range whole.numLayers, (plan.layers layer).length)
    {resident : ExpertResident} (hresident : residents[k]? = some resident) {request : Request}
    (hrequest : requests[k]? = some request)
    (hserve : plan.serve whole.numLayers (fun layer => (whole.caches layer).capacity) k request =
      .ok next) :
    ∃ fetched evicted, seq.fetchOnce colder resident = (fetched,evicted) ∧
      next.evictionIds = plan.evictionIds++evicted ∧
      Simulates whole residents (k+1) next.layers fetched := by
  obtain ⟨roomy,hroomy,hserve⟩ := bind_eq_ok.mp hserve
  obtain ⟨ready,hready,hserve⟩ := bind_eq_ok.mp hserve
  cases hserve
  obtain ⟨other,hother,hid⟩ := hdemand.request hresident
  rw [hrequest] at hother
  cases hother
  obtain ⟨middle,first,hfirst,hids,hmiddle⟩ :=
    @Simulates.makeRoom _ _ _ _ _ colder h hdemand.strict htotal roomy hroomy
  obtain ⟨fetched,second,hsecond,hids',hfetched⟩ := @Simulates.insert _ _ _ _ _ colder hmiddle
    hdemand.strict hdemand.unreserved hdemand.nodup resident hresident request hid
    (hdemand.layers request (List.mem_of_getElem? hrequest)) ready hready
  refine ⟨fetched,(first.map ExpertResident.id).toList++(second.map ExpertResident.id).toList,?_,?_,
    hfetched⟩
  · unfold fetchOnce
    rw [hfirst]
    dsimp only
    rw [hsecond]
  · rw [hids', hids, List.append_assoc]

/-- The plan of a demand is the legacy loop over it. -/
lemma Simulates.serveAll (hdemand : Demanded whole residents requests) (left : List ExpertResident) :
    ∀ {rest done : List Request} {fetched : List ExpertResident} {plan last : VictimPlan}
      {seq emptied : MultiLayerExpertCache} {victims : List ExpertResident},
      done++rest = requests → fetched++left = residents → done.length = fetched.length →
      rest.length = left.length → Planned whole requests done.length plan emptied victims →
      Simulates whole residents done.length plan.layers seq →
      VictimPlan.serveAll whole.numLayers (fun layer => (whole.caches layer).capacity) done.length
        rest plan = .ok last →
      ∃ final evicted, fetchSequentially colder left seq = (final,evicted) ∧
        last.evictionIds = plan.evictionIds++evicted ∧
        Simulates whole residents residents.length last.layers final := by
  induction left with
  | nil =>
    intro rest done fetched plan last seq emptied victims hdone hfetched hlength hrest hplanned h
      hserve
    obtain rfl := List.length_eq_zero_iff.mp hrest
    cases hserve
    rw [List.append_nil] at hfetched
    subst hfetched
    rw [hlength] at h
    exact ⟨seq,[],rfl,(List.append_nil _).symm,h⟩
  | cons resident left ih =>
    intro rest done fetched plan last seq emptied victims hdone hfetched hlength hrest hplanned h
      hserve
    cases rest with
    | nil => cases hrest
    | cons request rest =>
      obtain ⟨next,hnext,hserve⟩ := bind_eq_ok.mp hserve
      have hrequest : requests[done.length]? = some request := by
        rw [← hdone, List.getElem?_append_right le_rfl, Nat.sub_self]
        rfl
      have hresident : residents[done.length]? = some resident := by
        rw [hlength, ← hfetched, List.getElem?_append_right le_rfl, Nat.sub_self]
        rfl
      have hlayer := tryLayerIdx_eq_some
        (hdemand.layers request (List.mem_of_getElem? hrequest)).1
      obtain ⟨emptied',victims',hplanned'⟩ := hplanned.serve hrequest hlayer hnext
      obtain ⟨seq',evicted,hfetch,hids,hsimulates⟩ := @Simulates.serve whole residents requests
        colder hdemand done.length plan next seq h hplanned.total resident hresident request
        hrequest hnext
      have hcount : (done++[request]).length = done.length+1 := by
        rw [List.length_append, List.length_singleton]
      rw [← hcount] at hplanned' hsimulates hserve
      have hdone' : (done++[request])++rest = requests := by
        rw [List.append_assoc]
        exact hdone
      have hfetched' : (fetched++[resident])++left = residents := by
        rw [List.append_assoc]
        exact hfetched
      obtain ⟨final,more,hfinal,hids',hlast⟩ := ih hdone' hfetched'
        (by rw [hcount, hlength, List.length_append, List.length_singleton])
        (Nat.succ.inj hrest) hplanned' hsimulates hserve
      refine ⟨final,evicted++more,?_,?_,hlast⟩
      · unfold fetchSequentially
        rw [hfetch]
        dsimp only
        rw [hfinal]
      · rw [hids', hids, List.append_assoc]

end Fetches

section Commits
variable {whole emptied cache : MultiLayerExpertCache} {residents : List ExpertResident}
  {requests : List Request} {finals : List (Option ℕ)} {reservation : CacheReservation} {j : ℕ}

/-- The residents committed to a layer so far, latest first. -/
def committed (residents : List ExpertResident) (finals : List (Option ℕ)) (j layer : ℕ) :
    List (ℕ × PooledBuffer) :=
  (placed finals j layer).filterMap fun i => residents[i]?.map ExpertResident.entry

/-- The cache after `j` commits of a reservation on an otherwise unreserved cache. -/
structure Committing (whole emptied : MultiLayerExpertCache) (residents : List ExpertResident)
    (finals : List (Option ℕ)) (j : ℕ) (cache : MultiLayerExpertCache)
    (reservation : CacheReservation) : Prop where
  requests : reservation.requests = (residents.map ExpertResident.id).zip finals
  next : reservation.nextRequest = j
  consistent : reservation.Consistent
  numLayers : cache.numLayers = whole.numLayers
  entries : ∀ layer<whole.numLayers, (cache.caches layer).inner.entries =
    committed residents finals j layer++(emptied.caches layer).inner.entries
  reserved : ∀ layer<whole.numLayers,
    (cache.caches layer).reservedSlots = reservation.remainingIn layer
  room : ∀ layer<whole.numLayers,
    (cache.caches layer).len+(cache.caches layer).reservedSlots ≤ (cache.caches layer).capacity

lemma committed_succ_of_eq {resident : ExpertResident} {layer : ℕ}
    (hresident : residents[j]? = some resident) (h : finals[j]? = some (some layer)) :
    committed residents finals (j+1) layer =
      resident.entry::committed residents finals j layer := by
  rw [committed, placed_succ_of_eq h, List.filterMap_cons_some]
  · rfl
  · rw [hresident]
    rfl

lemma committed_succ_of_ne {layer : ℕ} (h : finals[j]? ≠ some (some layer)) :
    committed residents finals (j+1) layer = committed residents finals j layer := by
  rw [committed, placed_succ_of_ne h]
  rfl

/-- A resident is committed before its turn for no layer. -/
lemma notMem_committed (hnodup : (residents.map ExpertResident.id).Nodup)
    {resident : ExpertResident} (hresident : residents[j]? = some resident) (layer : ℕ) :
    resident.id ∉ (committed residents finals j layer).map Prod.fst := by
  intro hmem
  obtain ⟨entry,hentry,hid⟩ := List.mem_map.mp hmem
  obtain ⟨i,hi,hfound⟩ := List.mem_filterMap.mp hentry
  obtain ⟨other,hother,rfl⟩ := Option.map_eq_some_iff.mp hfound
  have hlt := (mem_placed.mp hi).1
  have hsame := position_unique hnodup hother hresident hid
  omega

/-- A commit in turn succeeds, and says whether the request stays. -/
lemma Committing.commit (h : Committing whole emptied residents finals j cache reservation)
    (hnodup : (residents.map ExpertResident.id).Nodup) {resident : ExpertResident}
    (hresident : residents[j]? = some resident)
    (habsent : ∀ layer<whole.numLayers, resident.id ∉ (emptied.caches layer).residentIds)
    {final : Option ℕ} (hfinal : finals[j]? = some final)
    (hlayer : ∀ layer, final = some layer → layer<whole.numLayers) :
    ∃ next rest, cache.commit reservation resident = some (next,rest,.ok final.isSome) ∧
      Committing whole emptied residents finals (j+1) next rest := by
  have hnext : reservation.requests[reservation.nextRequest]? = some (resident.id,final) := by
    rw [h.requests, h.next, List.getElem?_zip_eq_some, List.getElem?_map, hresident]
    exact ⟨rfl,hfinal⟩
  cases final with
  | none =>
    refine ⟨cache,reservation.advance,commit_evicted hnext,h.requests,?_,
      h.consistent.advance hnext,h.numLayers,fun layer hlt => ?_,h.reserved,h.room⟩
    · exact congrArg Nat.succ h.next
    · rw [committed_succ_of_ne (by rw [hfinal]; exact nofun)]
      exact h.entries layer hlt
  | some layer =>
    have hlt := hlayer layer rfl
    have hpositive := h.consistent.positive hnext
    have hreserved := h.reserved layer hlt
    rcases @commit_final cache reservation resident layer hnext h.consistent hreserved.ge
      (h.room layer hlt) with ⟨hmem,-⟩ | ⟨-,inner,hcommit,hentries,hcap⟩
    · -- Neither an earlier commit nor a resident that was left has this id.
      change resident.id ∈ (cache.caches layer).inner.entries.map Prod.fst at hmem
      rw [h.entries layer hlt, List.map_append, List.mem_append] at hmem
      exact hmem.elim (absurd · (notMem_committed hnodup hresident layer))
        (absurd · (habsent layer hlt))
    · have hsize : inner.len = (cache.caches layer).len+1 := by
        change inner.entries.length = _
        rw [hentries]
        rfl
      have hold := h.room layer hlt
      refine ⟨_,_,hcommit,h.requests,congrArg Nat.succ h.next,h.consistent.consume hnext,h.numLayers,
        fun l hl => ?_,fun l hl => ?_,fun l hl => ?_⟩
      · by_cases heq : l = layer
        · subst heq
          rw [caches_setLayer_self, committed_succ_of_eq hresident hfinal, List.cons_append,
            ← h.entries l hl]
          exact hentries
        · rw [caches_setLayer_of_ne _ heq, committed_succ_of_ne]
          · exact h.entries l hl
          · rw [hfinal]
            exact fun hsame => heq (Option.some.inj (Option.some.inj hsame)).symm
      · rw [CacheReservation.remainingIn_consume]
        by_cases heq : l = layer
        · subst heq
          rw [caches_setLayer_self, if_pos rfl, ← hreserved]
        · rw [caches_setLayer_of_ne _ heq, if_neg heq]
          exact h.reserved l hl
      · by_cases heq : l = layer
        · subst heq
          rw [caches_setLayer_self]
          change inner.len+((cache.caches l).reservedSlots-1) ≤ inner.cap
          rw [hsize, hcap]
          change _ ≤ (cache.caches l).capacity
          omega
        · rw [caches_setLayer_of_ne _ heq]
          exact h.room l hl

/-- All commits of a reservation. -/
lemma Committing.commitAll (hnodup : (residents.map ExpertResident.id).Nodup)
    (hlength : residents.length = finals.length)
    (habsent : ∀ resident ∈ residents, ∀ layer<whole.numLayers,
      resident.id ∉ (emptied.caches layer).residentIds)
    (hfinals : ∀ layer, some layer ∈ finals → layer<whole.numLayers)
    (left : List ExpertResident) :
    ∀ {done : List ExpertResident} {cache : MultiLayerExpertCache} {reservation : CacheReservation},
      done++left = residents →
      Committing whole emptied residents finals done.length cache reservation →
      ∃ last rest, commitAll left cache reservation =
          some (last,rest,(finals.drop done.length).map fun final => .ok final.isSome) ∧
        Committing whole emptied residents finals residents.length last rest := by
  induction left with
  | nil =>
    intro done cache reservation hdone h
    rw [List.append_nil] at hdone
    subst hdone
    refine ⟨cache,reservation,?_,h⟩
    rw [hlength, List.drop_length]
    rfl
  | cons resident left ih =>
    intro done cache reservation hdone h
    have hresident : residents[done.length]? = some resident := by
      rw [← hdone, List.getElem?_append_right le_rfl, Nat.sub_self]
      rfl
    have hlt : done.length<finals.length := by
      rw [← hlength]
      exact (List.getElem?_eq_some_iff.mp hresident).1
    have hfinal : finals[done.length]? = some finals[done.length] := List.getElem?_eq_getElem hlt
    obtain ⟨next,rest,hcommit,hnext⟩ := h.commit hnodup hresident
      (habsent resident (List.mem_of_getElem? hresident)) hfinal
      (fun layer hlayer => hfinals layer (hlayer ▸ List.getElem_mem hlt))
    have hcount : (done++[resident]).length = done.length+1 := by
      rw [List.length_append, List.length_singleton]
    rw [← hcount] at hnext
    obtain ⟨last,final,hlast,hall⟩ := ih (by rw [List.append_assoc]; exact hdone) hnext
    refine ⟨last,final,?_,hall⟩
    unfold MultiLayerExpertCache.commitAll
    rw [hcommit]
    change (do let rest ← MultiLayerExpertCache.commitAll left next rest; _) = _
    rw [hlast, List.drop_eq_getElem_cons hlt, hcount]
    rfl

end Commits

section Refinement
variable {whole : MultiLayerExpertCache} {residents : List ExpertResident}

/-- What the requests of a virtual layer stand for. -/
lemma forall₂_requested {requests : List Request} {layer : ℕ} {tail : List VirtualCacheEntry}
    (indices : List ℕ) :
    ∀ {real : List (ℕ × PooledBuffer)},
      List.Forall₂ (Matches whole residents layer) (indices.map (requestEntry requests)++tail) real →
      ∃ rest, real =
          indices.filterMap (fun i => residents[i]?.map ExpertResident.entry)++rest ∧
        List.Forall₂ (Matches whole residents layer) tail rest := by
  induction indices with
  | nil => exact fun {real} h => ⟨real,rfl,h⟩
  | cons i indices ih =>
    intro real h
    rw [List.map_cons, List.cons_append] at h
    cases h with
    | @cons _ first _ real hfirst hrest =>
      obtain ⟨rest,rfl,htail⟩ := ih hrest
      have hentry : residents[i]?.map ExpertResident.entry = some first := by
        unfold requestEntry at hfirst
        cases hrequest : requests[i]? with
        | none =>
          rw [hrequest] at hfirst
          exact hfirst.elim
        | some request =>
          rw [hrequest] at hfirst
          exact hfirst.2.1
      refine ⟨rest,?_,htail⟩
      rw [List.filterMap_cons, hentry]
      rfl

/-- What the residents of a virtual layer stand for. -/
lemma forall₂_residents {layer : ℕ} {pinned : Finset ℕ} (entries : List (ℕ × PooledBuffer)) :
    ∀ {real : List (ℕ × PooledBuffer)},
      (∀ entry ∈ entries, entry ∈ (whole.caches layer).inner.entries) →
      List.Forall₂ (Matches whole residents layer) (entries.map (residentEntry pinned)) real →
      real = entries := by
  induction entries with
  | nil =>
    intro real _ h
    cases h
    rfl
  | cons entry entries ih =>
    intro real hmem h
    rw [List.map_cons] at h
    obtain ⟨hentry,hmem⟩ := List.forall_mem_cons.mp hmem
    cases h with
    | @cons _ first _ real hfirst hrest =>
      rw [ih hmem hrest]
      have hid : first.1 = entry.1 := hfirst.1
      have hsame : (entry.1,first.2) ∈ (whole.caches layer).inner.entries := by
        rw [← hid]
        exact hfirst.2.1
      rw [Prod.ext hid ((whole.caches layer).inner.distinct.eq hsame hentry)]

/-- A request is evicted again exactly when the legacy loop evicts its id. -/
lemma Planned.evicted_iff {requests : List Request} {plan : VictimPlan}
    {emptied : MultiLayerExpertCache} {victims : List ExpertResident}
    (hplanned : Planned whole requests requests.length plan emptied victims)
    (hdemand : Demanded whole residents requests) {i : ℕ} {resident : ExpertResident}
    (hresident : residents[i]? = some resident) :
    resident.id ∈ plan.evictionIds ↔ plan.requestFinalLayers[i]? = some none := by
  rw [hplanned.evicted]
  constructor
  · rintro (hvictim | ⟨j,hnone,hid⟩)
    · obtain ⟨victim,hvictim,hid⟩ := List.mem_map.mp hvictim
      obtain ⟨layer,hlayer,hmem⟩ := hplanned.gone victim hvictim
      rw [hid] at hmem
      exact absurd hmem (hdemand.absent resident (List.mem_of_getElem? hresident) layer hlayer)
    · have hj : (residents.map ExpertResident.id)[j]? = some resident.id := by
        rw [← hdemand.asked, List.getElem?_map]
        exact hid
      rw [List.getElem?_map] at hj
      obtain ⟨other,hother,hid⟩ := Option.map_eq_some_iff.mp hj
      have hsame := position_unique hdemand.nodup hresident hother hid.symm
      rw [hsame]
      exact hnone
  · intro hnone
    obtain ⟨request,hrequest,hid⟩ := hdemand.request hresident
    refine .inr ⟨i,hnone,?_⟩
    rw [hrequest]
    exact congrArg some hid

/-- The plan puts requests into layers of the cache only. -/
lemma Reserved.final_lt {ids : List ℕ} {requests : List Request} {plan : VictimPlan}
    {emptied : MultiLayerExpertCache} {victims : List ExpertResident}
    (h : Reserved whole ids requests plan emptied victims) {layer : ℕ}
    (hlayer : some layer ∈ plan.requestFinalLayers) : layer<whole.numLayers := by
  obtain ⟨i,hi⟩ := List.mem_iff_getElem?.mp hlayer
  obtain ⟨request,hrequest,rfl⟩ := Option.map_eq_some_iff.mp (h.planned.target i layer hi)
  exact tryLayerIdx_eq_some (h.layers request (List.mem_of_getElem? hrequest)).1

/-- A reservation before its first commit. -/
lemma Reserved.committing {requests : List Request} {plan : VictimPlan}
    {emptied : MultiLayerExpertCache} {victims : List ExpertResident}
    (h : Reserved whole (residents.map ExpertResident.id) requests plan emptied victims)
    (hreserved : ∀ layer<whole.numLayers, (whole.caches layer).reservedSlots = 0) :
    Committing whole emptied residents plan.requestFinalLayers 0
      (emptied.reserve plan.finalReservations)
      ⟨plan.guards,(residents.map ExpertResident.id).zip plan.requestFinalLayers,0⟩ := by
  have hplanned := h.planned
  obtain ⟨hremaining,hconsistent⟩ := h.consistent
  have hzero : ∀ layer<whole.numLayers, (emptied.caches layer).reservedSlots = 0 :=
    fun layer hlayer => (hplanned.leaves.layer layer).reserved.trans (hreserved layer hlayer)
  refine ⟨rfl,rfl,hconsistent,hplanned.leaves.numLayers,fun layer _ => rfl,fun layer hlayer => ?_,
    fun layer hlayer => ?_⟩
  · rw [hremaining]
    change (emptied.caches layer).reservedSlots+_ = _
    rw [hzero layer hlayer, Nat.zero_add]
  · change (emptied.caches layer).len+((emptied.caches layer).reservedSlots+_) ≤
      (emptied.caches layer).capacity
    rw [← Nat.add_assoc, hplanned.finalReservations, (hplanned.leaves.layer layer).capacity]
    exact hplanned.bounded layer hlayer

/-- The commits tell apart the requests that the plan keeps and those it evicts again. -/
lemma Planned.results {requests : List Request} {plan : VictimPlan}
    {emptied : MultiLayerExpertCache} {victims : List ExpertResident}
    (hplanned : Planned whole requests requests.length plan emptied victims)
    (hdemand : Demanded whole residents requests)
    (hlength : residents.length = plan.requestFinalLayers.length) :
    plan.requestFinalLayers.map Option.isSome =
      residents.map fun resident => decide (resident.id ∉ plan.evictionIds) := by
  refine List.ext_getElem? fun i => ?_
  rw [List.getElem?_map, List.getElem?_map]
  cases hresident : residents[i]? with
  | none =>
    rw [List.getElem?_eq_none (hlength ▸ List.getElem?_eq_none_iff.mp hresident)]
    rfl
  | some resident =>
    have hiff := hplanned.evicted_iff hdemand hresident
    have hlt : i<plan.requestFinalLayers.length := by
      rw [← hlength]
      exact (List.getElem?_eq_some_iff.mp hresident).1
    rw [List.getElem?_eq_getElem hlt] at hiff ⊢
    simp only [Option.map_some, Option.some.injEq] at hiff ⊢
    rw [Bool.eq_iff_iff, decide_eq_true_iff, hiff, Option.isSome_iff_ne_none]

/-- A layer of the legacy cache after the whole plan: the requests that stay, over what the plan
left of the residents. -/
lemma Simulates.entries {requests : List Request} {plan : VictimPlan} {k : ℕ}
    {emptied seq : MultiLayerExpertCache} {victims : List ExpertResident}
    (h : Simulates whole residents k plan.layers seq)
    (hplanned : Planned whole requests k plan emptied victims) {layer : ℕ}
    (hlayer : layer<whole.numLayers) (hreserved : (whole.caches layer).reservedSlots = 0) :
    (seq.caches layer).inner.entries =
      committed residents plan.requestFinalLayers k layer++(emptied.caches layer).inner.entries := by
  have hmatch := h.layer layer hlayer
  rw [hplanned.layers layer] at hmatch
  obtain ⟨rest,hsplit,htail⟩ := forall₂_requested _ hmatch
  rw [virtualLayer, (hplanned.leaves.layer layer).reserved, hreserved,
    List.replicate_zero, List.nil_append] at htail
  have hrest := forall₂_residents (emptied.caches layer).inner.entries
    (fun entry hentry => (hplanned.leaves.kept layer).subset hentry) htail
  rw [hsplit, hrest]
  rfl

/-- The exact-demand reservation refines the legacy loop. On a cache without reservations and
cost-aware eviction, whatever its residents and pins: a reservation of absent experts, committed
in order, evicts the same ids in the same order as fetching one after the other, leaves every
layer as that does, and tells apart the requests that are evicted again. -/
theorem reservation_refines_sequential (colder : ℕ → ℕ → Bool)
    (hreserved : ∀ layer<whole.numLayers, (whole.caches layer).reservedSlots = 0)
    (hstrict : ∀ layer<whole.numLayers, (whole.caches layer).costAware = false)
    (habsent : ∀ resident ∈ residents, ∀ layer<whole.numLayers,
      resident.id ∉ (whole.caches layer).residentIds)
    {reserved : MultiLayerExpertCache} {outcome : ReservationOutcome}
    (h : whole.tryReserveExactDemand (residents.map ExpertResident.id) =
      some (reserved,.ok outcome)) :
    ∃ last rest,
      commitAll residents reserved outcome.reservation = some (last,rest,
          residents.map fun resident =>
            .ok (decide (resident.id ∉ (fetchSequentially colder residents whole).2))) ∧
        outcome.evictionIds = (fetchSequentially colder residents whole).2 ∧
        ∀ layer<whole.numLayers, (last.caches layer).inner.entries =
          ((fetchSequentially colder residents whole).1.caches layer).inner.entries := by
  have hroom : ∀ layer<whole.numLayers, (whole.caches layer).len+(whole.caches layer).reservedSlots ≤
      (whole.caches layer).capacity := by
    intro layer hlayer
    rw [hreserved layer hlayer]
    exact (whole.caches layer).inner.bounded
  obtain ⟨error,hcontra⟩ | ⟨requests,plan,emptied,victims,hplan,hsame⟩ :=
    tryReserveExactDemand_spec hroom (residents.map ExpertResident.id)
  · rw [h] at hcontra
    cases hcontra
  rw [h] at hsame
  cases hsame
  have hplanned := hplan.planned
  have hdemand : Demanded whole residents requests :=
    ⟨hstrict,hreserved,hplan.nodup,hplan.asked,hplan.layers,habsent⟩
  have hcount : requests.length = residents.length := by
    rw [← List.length_map Request.id, hplan.asked, List.length_map]
  -- The legacy loop is the plan.
  obtain ⟨final,evicted,hfetch,hids,hfinal⟩ := @Simulates.serveAll whole residents requests colder
    hdemand residents requests [] [] _ plan whole whole [] rfl rfl rfl hcount (.start hroom)
    hdemand.simulates hplan.served
  rw [hfetch]
  change plan.evictionIds = evicted at hids
  -- The commits fill the places that the plan left.
  have hlength : residents.length = plan.requestFinalLayers.length := by
    rw [hplanned.length, hcount]
  obtain ⟨last,rest,hcommits,hlast⟩ := @Committing.commitAll whole emptied residents
    plan.requestFinalLayers hplan.nodup hlength
    (fun resident hresident layer hlayer hmem => habsent resident hresident layer hlayer
      (((hplanned.leaves.kept layer).map Prod.fst).subset hmem))
    (fun layer => hplan.final_lt) residents [] _ _ rfl (hplan.committing hreserved)
  refine ⟨last,rest,?_,hids,fun layer hlayer => ?_⟩
  · have hresults := congrArg (List.map (@Except.ok ExpertResident Bool))
      (hplanned.results hdemand hlength)
    rw [List.map_map, List.map_map, hids] at hresults
    rw [hcommits, List.length_nil, List.drop_zero]
    exact congrArg (fun results => some (last,rest,results)) hresults
  · rw [← hcount] at hlast hfinal
    rw [hlast.entries layer hlayer]
    exact (hfinal.entries hplanned hlayer (hreserved layer hlayer)).symm

/-- Two layers of one place each, both taken. -/
def smallCache : MultiLayerExpertCache where
  caches layer := if layer = 0
    then ⟨⟨[(0,⟨false⟩)],1,Nat.one_pos,List.nodup_singleton 0,le_rfl⟩,∅,false,0⟩
    else ⟨⟨[(8,⟨false⟩)],1,Nat.one_pos,List.nodup_singleton 8,le_rfl⟩,∅,false,0⟩
  numLayers := 2
  expertsPerLayer := 8
  layersPositive := Nat.two_pos
  stridePositive := Nat.succ_pos 7

/-- Expert 1 takes the place of expert 0 and makes room again when expert 9 comes. -/
theorem reservation_refines_sequential_evicted :
    ∃ reserved outcome last rest,
      smallCache.tryReserveExactDemand [1,9] = some (reserved,.ok outcome) ∧
      outcome.evictionIds = [0,1,8] ∧
      commitAll [⟨1,⟨false⟩⟩,⟨9,⟨false⟩⟩] reserved outcome.reservation =
        some (last,rest,[.ok false,.ok true]) ∧
      (last.caches 0).inner.entries = [] ∧ (last.caches 1).inner.entries = [(9,⟨false⟩)] := by
  obtain ⟨reserved,outcome,hreserve⟩ : ∃ reserved outcome,
      smallCache.tryReserveExactDemand [1,9] = some (reserved,.ok outcome) := ⟨_,_,rfl⟩
  have hfetch : (fetchSequentially (fun _ _ => true) [⟨1,⟨false⟩⟩,⟨9,⟨false⟩⟩] smallCache).2 =
      [0,1,8] := by decide +kernel
  obtain ⟨last,rest,hcommits,hids,hlayers⟩ := @reservation_refines_sequential smallCache
    [⟨1,⟨false⟩⟩,⟨9,⟨false⟩⟩] (fun _ _ => true) (by decide) (by decide) (by decide) reserved outcome
    hreserve
  refine ⟨reserved,outcome,last,rest,hreserve,hids.trans hfetch,?_,?_,?_⟩
  · rw [hcommits, hfetch]
    rfl
  · rw [hlayers 0 (by decide)]
    decide +kernel
  · rw [hlayers 1 (by decide)]
    decide +kernel

end Refinement

end MicroExpertRouter.RamCache
