import MicroExpertRouter.RamCache.VictimPlan

/-! The exact-demand reservation as a whole: it declines without touching the cache, or takes out
exactly the planned victims and reserves a position for every request that stays. -/
namespace MicroExpertRouter.RamCache
open MultiLayerExpertCache

section Requests
variable {self : MultiLayerExpertCache}

lemma tryLayerIdx_eq_some {id layer : ℕ} (h : self.tryLayerIdx id = some layer) :
    layer<self.numLayers := by
  unfold tryLayerIdx at h
  dsimp only at h
  split_ifs at h with hlt
  cases h
  exact hlt

/-- Requests that pass the checks are distinct experts of the namespace. -/
lemma requestLayers_ok {ids : List ℕ} :
    ∀ {seen layers : List ℕ} {counts : ℕ → ℕ}, self.requestLayers ids seen counts = .ok layers →
      (∀ id ∈ ids, id ∉ seen) ∧ ids.Nodup ∧
        List.Forall₂ (fun id layer => self.tryLayerIdx id = some layer) ids layers := by
  induction ids with
  | nil =>
    intro seen layers counts h
    cases h
    exact ⟨nofun,List.nodup_nil,.nil⟩
  | cons id ids ih =>
    intro seen layers counts h
    unfold requestLayers at h
    split_ifs at h with hseen
    cases hlayer : self.tryLayerIdx id with
    | none =>
      rw [hlayer] at h
      cases h
    | some layer =>
      rw [hlayer] at h
      dsimp only at h
      split_ifs at h with hcapacity
      obtain ⟨rest,hrest,h⟩ := bind_eq_ok.mp h
      cases h
      obtain ⟨hfresh,hnodup,hlayers⟩ := ih hrest
      refine ⟨List.forall_mem_cons.mpr ⟨hseen,fun other hother hmem =>
        hfresh other hother (List.mem_cons_of_mem _ hmem)⟩,List.nodup_cons.mpr ⟨fun hmem =>
          hfresh id hmem List.mem_cons_self,hnodup⟩,.cons hlayer hlayers⟩

lemma map_id_requested {ids layers : List ℕ} (h : ids.length = layers.length) :
    (self.requested ids layers).map Request.id = ids := by
  rw [requested, List.map_map]
  exact List.map_fst_zip h.le

lemma requested_mem {ids layers : List ℕ} {request : Request}
    (h : List.Forall₂ (fun id layer => self.tryLayerIdx id = some layer) ids layers)
    (hmem : request ∈ self.requested ids layers) :
    self.tryLayerIdx request.id = some request.layer ∧
      request.pinned = decide (request.id ∈ (self.caches request.layer).pinned) := by
  obtain ⟨⟨id,layer⟩,hpair,rfl⟩ := List.mem_map.mp hmem
  exact ⟨List.forall₂_iff_zip.mp h |>.2 hpair,rfl⟩

end Requests

section Realize
variable {self emptied : MultiLayerExpertCache} {requests : List Request} {plan : VictimPlan}
  {victims : List ExpertResident}

/-- The positions that the plan leaves for the requests of a layer. -/
lemma Planned.finalReservations (h : Planned self requests requests.length plan emptied victims)
    (layer : ℕ) :
    (emptied.caches layer).len+(emptied.caches layer).reservedSlots+
      plan.finalReservations layer = (plan.layers layer).length := by
  rw [h.layers, List.length_append, List.length_map, ← h.length, length_placed, virtualLayer,
    List.length_append, List.length_replicate, List.length_map]
  change (emptied.caches layer).inner.entries.length+_+_ = _
  rw [VictimPlan.finalReservations]
  omega

/-- The guards of a plan. -/
def VictimPlan.guards (plan : VictimPlan) (layer : ℕ) : Option ℕ :=
  if 0<plan.finalReservations layer then some (plan.finalReservations layer) else none

lemma guard_of_pos {p : Prop} [Decidable p] (h : p) : (guard p : Option Unit) = some () := if_pos h

/-- No assertion fires on a plan. -/
lemma Planned.realize (h : Planned self requests requests.length plan emptied victims)
    (ids : List ℕ) :
    self.realize ids plan = some (emptied.reserve plan.finalReservations,
      ⟨⟨plan.guards,ids.zip plan.requestFinalLayers,0⟩,plan.evictionIds,victims⟩) := by
  have hplan : plan.Asserted self.numLayers fun layer => (self.caches layer).capacity :=
    ⟨fun layer hlayer => h.bounded layer (List.mem_range.mp hlayer),
      Finset.sum_le_sum fun layer hlayer => h.bounded layer (Finset.mem_range.mp hlayer)⟩
  have hlocked : ∀ layer ∈ List.range self.numLayers,
      (emptied.caches layer).len+(emptied.caches layer).reservedSlots+
          plan.finalReservations layer = (plan.layers layer).length ∧
        (plan.layers layer).length ≤ (self.caches layer).capacity :=
    fun layer hlayer => ⟨h.finalReservations layer,h.bounded layer (List.mem_range.mp hlayer)⟩
  have hroom : ∀ layer<self.numLayers, (emptied.caches layer).len+
      ((emptied.caches layer).reservedSlots+plan.finalReservations layer) ≤
        (emptied.caches layer).capacity := by
    intro layer hlayer
    rw [← Nat.add_assoc, h.finalReservations, (h.leaves.layer layer).capacity]
    exact h.bounded layer hlayer
  have hreserved : (emptied.reserve plan.finalReservations).Asserted := by
    refine ⟨fun layer hlayer => hroom layer ?_,Finset.sum_le_sum fun layer hlayer =>
      hroom layer ?_⟩
    · rw [← h.leaves.numLayers]
      exact List.mem_range.mp hlayer
    · rw [← h.leaves.numLayers]
      exact Finset.mem_range.mp hlayer
  unfold MultiLayerExpertCache.realize
  simp only [guard_of_pos hplan, h.popped, Option.bind_eq_bind, Option.bind_some,
    guard_of_pos hlocked, guard_of_pos hreserved]
  rfl

end Realize

/-- A demand that was reserved. -/
structure Reserved (whole : MultiLayerExpertCache) (ids : List ℕ) (requests : List Request)
    (plan : VictimPlan) (emptied : MultiLayerExpertCache) (victims : List ExpertResident) :
    Prop where
  nodup : ids.Nodup
  asked : requests.map Request.id = ids
  layers : ∀ request ∈ requests, whole.tryLayerIdx request.id = some request.layer ∧
    request.pinned = decide (request.id ∈ (whole.caches request.layer).pinned)
  strict : ∀ layer<whole.numLayers, (whole.caches layer).costAware = false
  served : VictimPlan.planSequentialVictims whole.numLayers
    (fun layer => virtualLayer (whole.caches layer)) (fun layer => (whole.caches layer).capacity)
    requests = .ok plan
  planned : Planned whole requests requests.length plan emptied victims

/-- The reservation declines and leaves the cache as it is, or carries out its plan; none of its
assertions fires. -/
theorem tryReserveExactDemand_spec {self : MultiLayerExpertCache} (hroom : ∀ layer<self.numLayers,
      (self.caches layer).len+(self.caches layer).reservedSlots ≤ (self.caches layer).capacity)
    (ids : List ℕ) :
    (∃ error, self.tryReserveExactDemand ids = some (self,.error error)) ∨
      ∃ requests plan emptied victims, Reserved self ids requests plan emptied victims ∧
        self.tryReserveExactDemand ids = some (emptied.reserve plan.finalReservations,
          .ok ⟨⟨plan.guards,ids.zip plan.requestFinalLayers,0⟩,plan.evictionIds,victims⟩) := by
  unfold tryReserveExactDemand
  cases hlayers : self.requestLayers ids [] (fun _ => 0) with
  | error e => exact .inl ⟨e,rfl⟩
  | ok layers =>
    dsimp only
    split_ifs with hcost
    · exact .inl ⟨_,rfl⟩
    obtain ⟨-,hnodup,hpairs⟩ := requestLayers_ok hlayers
    cases hplan : VictimPlan.planSequentialVictims self.numLayers
        (fun layer => virtualLayer (self.caches layer)) (fun layer => (self.caches layer).capacity)
        (self.requested ids layers) with
    | error e => exact .inl ⟨e,rfl⟩
    | ok plan =>
      have hmem := fun request => @requested_mem self ids layers request hpairs
      obtain ⟨emptied,victims,hplanned⟩ := planSequentialVictims_planned hroom
        (fun request hrequest => tryLayerIdx_eq_some (hmem request hrequest).1) hplan
      refine .inr ⟨_,plan,emptied,victims,⟨hnodup,map_id_requested hpairs.length_eq,hmem,
        fun layer hlayer => ?_,hplan,hplanned⟩,?_⟩
      · by_contra hon
        exact hcost ⟨layer,List.mem_range.mpr hlayer,Bool.eq_true_of_not_eq_false hon⟩
      · dsimp only
        rw [hplanned.realize]
        rfl

lemma Reserved.length {self : MultiLayerExpertCache} {ids : List ℕ} {requests : List Request}
    {plan : VictimPlan} {emptied : MultiLayerExpertCache} {victims : List ExpertResident}
    (h : Reserved self ids requests plan emptied victims) :
    ids.length = plan.requestFinalLayers.length := by
  rw [← h.asked, List.length_map, h.planned.length]

namespace CacheReservation

/-- The positions that the reservation holds in a layer. -/
def remainingIn (self : CacheReservation) (layer : ℕ) : ℕ := (self.layers layer).getD 0

/-- The requests that are still to be committed to a layer. -/
def pendingIn (self : CacheReservation) (layer : ℕ) : ℕ :=
  ((self.requests.drop self.nextRequest).map Prod.snd).count (some layer)

/-- A position for every commit to come. -/
def Consistent (self : CacheReservation) : Prop := ∀ layer, self.remainingIn layer = self.pendingIn layer

def advance (self : CacheReservation) : CacheReservation :=
  { self with nextRequest := self.nextRequest+1 }

/-- A commit uses up a position of its layer. -/
def consume (self : CacheReservation) (layer : ℕ) : CacheReservation :=
  { self with
    layers := Function.update self.layers layer (some (self.remainingIn layer-1))
    nextRequest := self.nextRequest+1 }

variable {self : CacheReservation} {id layer : ℕ}

lemma drop_nextRequest {final : Option ℕ}
    (h : self.requests[self.nextRequest]? = some (id,final)) :
    self.requests.drop self.nextRequest =
      (id,final)::self.requests.drop (self.nextRequest+1) := by
  obtain ⟨hlt,hget⟩ := List.getElem?_eq_some_iff.mp h
  rw [List.drop_eq_getElem_cons hlt, hget]

lemma Consistent.advance (h : self.Consistent)
    (hnext : self.requests[self.nextRequest]? = some (id,none)) : self.advance.Consistent := by
  intro layer
  have hold := h layer
  rw [pendingIn, drop_nextRequest hnext, List.map_cons, List.count_cons] at hold
  rw [if_neg (by simp), Nat.add_zero] at hold
  exact hold

lemma Consistent.positive (h : self.Consistent)
    (hnext : self.requests[self.nextRequest]? = some (id,some layer)) :
    0<self.remainingIn layer := by
  rw [h layer, pendingIn, drop_nextRequest hnext, List.map_cons, List.count_cons_self]
  exact Nat.succ_pos _

lemma remainingIn_consume (self : CacheReservation) (layer l : ℕ) :
    (self.consume layer).remainingIn l =
      if l = layer then self.remainingIn layer-1 else self.remainingIn l := by
  unfold remainingIn consume
  dsimp only
  split_ifs with hl
  · subst hl
    rw [Function.update_self]
    rfl
  · rw [Function.update_of_ne hl]

lemma Consistent.consume (h : self.Consistent)
    (hnext : self.requests[self.nextRequest]? = some (id,some layer)) :
    (self.consume layer).Consistent := by
  intro l
  have hold := h l
  rw [pendingIn, drop_nextRequest hnext, List.map_cons, List.count_cons] at hold
  rw [remainingIn_consume]
  change _ = ((self.requests.drop (self.nextRequest+1)).map Prod.snd).count (some l)
  by_cases hl : l = layer
  · subst hl
    rw [if_pos rfl, hold]
    simp
  · have hne : ¬ layer = l := fun heq => hl heq.symm
    rw [if_neg hl, hold]
    simp [hne]

end CacheReservation

/-- A new reservation has the positions that its plan left. -/
lemma Reserved.consistent {self : MultiLayerExpertCache} {ids : List ℕ} {requests : List Request}
    {plan : VictimPlan} {emptied : MultiLayerExpertCache} {victims : List ExpertResident}
    (h : Reserved self ids requests plan emptied victims) :
    (∀ layer, CacheReservation.remainingIn ⟨plan.guards,ids.zip plan.requestFinalLayers,0⟩ layer =
        plan.finalReservations layer) ∧
      CacheReservation.Consistent ⟨plan.guards,ids.zip plan.requestFinalLayers,0⟩ := by
  have hremaining : ∀ layer,
      CacheReservation.remainingIn ⟨plan.guards,ids.zip plan.requestFinalLayers,0⟩ layer =
        plan.finalReservations layer := by
    intro layer
    change (plan.guards layer).getD 0 = _
    unfold VictimPlan.guards
    split_ifs with hpositive
    · rfl
    · exact (Nat.eq_zero_of_not_pos hpositive).symm
  refine ⟨hremaining,fun layer => ?_⟩
  rw [hremaining, CacheReservation.pendingIn, List.drop_zero, List.map_snd_zip h.length.ge]
  rfl

section Commit
variable {self : MultiLayerExpertCache} {reservation : CacheReservation} {resident : ExpertResident}

/-- The commit of a resident whose turn it is not. -/
lemma commit_out_of_turn
    (h : reservation.requests[reservation.nextRequest]?.map Prod.fst ≠ some resident.id) :
    self.commit reservation resident = some (self,reservation,.error resident) := by
  unfold commit
  cases hnext : reservation.requests[reservation.nextRequest]? with
  | none => rfl
  | some request =>
    obtain ⟨expectedId,final⟩ := request
    rw [hnext] at h
    dsimp only
    rw [if_pos]
    exact fun heq => h (by rw [heq]; rfl)

/-- The commit of a request that the plan evicted again. -/
lemma commit_evicted
    (h : reservation.requests[reservation.nextRequest]? = some (resident.id,none)) :
    self.commit reservation resident = some (self,reservation.advance,.ok false) := by
  unfold commit
  rw [h]
  dsimp only
  rw [if_neg (not_not.mpr rfl)]
  rfl

/-- The commit of a request that stays: it fails exactly on a resident id, and else adds the
resident to its layer. -/
lemma commit_final {layer : ℕ}
    (h : reservation.requests[reservation.nextRequest]? = some (resident.id,some layer))
    (hconsistent : reservation.Consistent)
    (hreserved : reservation.remainingIn layer ≤ (self.caches layer).reservedSlots)
    (hroom : (self.caches layer).len+(self.caches layer).reservedSlots ≤
      (self.caches layer).capacity) :
    (resident.id ∈ (self.caches layer).residentIds ∧
      self.commit reservation resident = some (self,reservation,.error resident)) ∨
    resident.id ∉ (self.caches layer).residentIds ∧ ∃ inner,
      self.commit reservation resident =
          some (self.setLayer layer { self.caches layer with
            inner := inner, reservedSlots := (self.caches layer).reservedSlots-1 },
            reservation.consume layer,.ok true) ∧
        inner.entries = resident.entry::(self.caches layer).inner.entries ∧
        inner.cap = (self.caches layer).inner.cap := by
  have hpositive := hconsistent.positive h
  have hremaining : ∃ remaining, reservation.layers layer = some (remaining+1) ∧
      remaining = reservation.remainingIn layer-1 := by
    unfold CacheReservation.remainingIn at hpositive ⊢
    cases hlayer : reservation.layers layer with
    | none =>
      rw [hlayer] at hpositive
      exact absurd hpositive (lt_irrefl 0)
    | some count =>
      rw [hlayer, Option.getD_some] at hpositive
      refine ⟨count-1,?_,rfl⟩
      rw [Nat.sub_add_cancel hpositive]
  obtain ⟨remaining,hlayer,hcount⟩ := hremaining
  unfold commit
  rw [h]
  dsimp only
  rw [if_neg (not_not.mpr rfl), hlayer]
  dsimp only
  rcases @ExpertCache.commitSlot_spec (self.caches layer) resident (by omega) hroom with
    ⟨hmem,hcommit⟩ | ⟨habsent,inner,hcommit,hentries,hcap⟩
  · refine .inl ⟨hmem,?_⟩
    rw [hcommit]
    change some (self.setLayer layer (self.caches layer),reservation,_) = _
    rw [setLayer_self]
  · refine .inr ⟨habsent,inner,?_,hentries,hcap⟩
    rw [hcommit, hcount]
    rfl

end Commit

end MicroExpertRouter.RamCache
