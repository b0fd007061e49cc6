import MicroExpertRouter.RamCache.MultiLayer
import MicroExpertRouter.Lib.Machine

/-! What the planner knows at each turn: which requests are still placed and which residents are
gone. Every layer of the plan is the requests still placed in it, latest first, then the foreign
reservations and the residents that are left. -/
namespace MicroExpertRouter.RamCache
open MultiLayerExpertCache

/-- The requests among the first `k` that are still placed in a layer, latest first. -/
def placed (finalLayers : List (Option ℕ)) (k layer : ℕ) : List ℕ :=
  ((List.range k).filter fun i => decide (finalLayers[i]? = some (some layer))).reverse

section Placed
variable {finalLayers : List (Option ℕ)} {k layer i : ℕ}

lemma mem_placed : i ∈ placed finalLayers k layer ↔ i<k ∧ finalLayers[i]? = some (some layer) := by
  simp [placed]

lemma nodup_placed (finalLayers : List (Option ℕ)) (k layer : ℕ) :
    (placed finalLayers k layer).Nodup :=
  List.nodup_reverse.mpr (List.nodup_range.filter _)

lemma placed_succ_of_eq (h : finalLayers[k]? = some (some layer)) :
    placed finalLayers (k+1) layer = k::placed finalLayers k layer := by
  rw [placed, List.range_succ, List.filter_append, List.reverse_append]
  simp [h, placed]

lemma placed_succ_of_ne (h : finalLayers[k]? ≠ some (some layer)) :
    placed finalLayers (k+1) layer = placed finalLayers k layer := by
  rw [placed, List.range_succ, List.filter_append, List.reverse_append]
  simp [h, placed]

/-- Withdrawing a request. -/
lemma placed_set (finalLayers : List (Option ℕ)) (k layer i : ℕ) :
    placed (finalLayers.set i none) k layer = (placed finalLayers k layer).filter (· ≠ i) := by
  rw [placed, placed, List.filter_reverse, List.filter_filter]
  congr 1
  apply List.filter_congr
  intro j _
  rw [List.getElem?_set]
  by_cases hij : i = j
  · subst hij
    by_cases hlength : i<finalLayers.length
    · simp [hlength]
    · simp [hlength]
  · have hji : j ≠ i := fun h => hij h.symm
    simp [hij, hji]

/-- Withdrawing the request that gives up its place. -/
lemma placed_set_takeLast {p : ℕ → Bool} {left : List ℕ}
    (h : takeLast p (placed finalLayers k layer) = some (i,left)) :
    placed (finalLayers.set i none) k layer = left := by
  obtain ⟨-,before,after,hsplit,rfl,-⟩ := takeLast_eq_some h
  have hnodup := nodup_placed finalLayers k layer
  rw [hsplit] at hnodup
  have hapart := List.nodup_append.mp hnodup
  rw [placed_set, hsplit, List.filter_append, List.filter_cons]
  have hbefore : before.filter (fun x => decide (x ≠ i)) = before := by
    rw [List.filter_eq_self]
    intro x hx
    exact decide_eq_true fun heq => hapart.2.2 x hx i List.mem_cons_self heq
  have hafter : after.filter (fun x => decide (x ≠ i)) = after := by
    rw [List.filter_eq_self]
    intro x hx
    refine decide_eq_true fun heq => (List.nodup_cons.mp hapart.2.1).1 ?_
    rw [← heq]
    exact hx
  rw [hbefore, hafter]
  simp

lemma placed_set_of_ne {other : ℕ} (h : finalLayers[i]? = some (some layer))
    (hne : other ≠ layer) :
    placed (finalLayers.set i none) k other = placed finalLayers k other := by
  rw [placed_set, List.filter_eq_self]
  intro j hj
  refine decide_eq_true ?_
  rintro rfl
  rw [(mem_placed.mp hj).2] at h
  exact hne (Option.some.inj (Option.some.inj h))

lemma length_placed (finalLayers : List (Option ℕ)) (layer : ℕ) :
    (placed finalLayers finalLayers.length layer).length = finalLayers.count (some layer) := by
  induction finalLayers using List.reverseRecOn with
  | nil => rfl
  | append_singleton finalLayers last ih =>
    have hbefore : placed (finalLayers++[last]) finalLayers.length layer =
        placed finalLayers finalLayers.length layer := by
      unfold placed
      congr 1
      apply List.filter_congr
      intro i hi
      rw [List.getElem?_append_left (List.mem_range.mp hi)]
    have hlast : (finalLayers++[last])[finalLayers.length]? = some last :=
      List.getElem?_concat_length
    rw [List.length_append, List.length_singleton, List.count_append, List.count_singleton, ← ih]
    by_cases heq : last = some layer
    · rw [placed_succ_of_eq (by rw [hlast, heq]), hbefore, List.length_cons]
      simp [heq]
    · rw [placed_succ_of_ne (by rw [hlast]; exact fun h => heq (Option.some.inj h)), hbefore]
      simp [heq]

end Placed

/-- The virtual entry of a request. -/
def requestEntry (requests : List Request) (i : ℕ) : VirtualCacheEntry :=
  match requests[i]? with
  | some request => .requested request.id i request.pinned
  | none => .outstandingReservation

/-- The residents left after these victims were taken out. -/
structure Emptied (whole emptied : MultiLayerExpertCache) : Prop where
  numLayers : emptied.numLayers = whole.numLayers
  stride : emptied.expertsPerLayer = whole.expertsPerLayer
  layer : ∀ layer, ExpertCache.Holding (whole.caches layer) (emptied.caches layer)
    (emptied.caches layer).inner.entries
  kept : ∀ layer, (emptied.caches layer).inner.entries.Sublist (whole.caches layer).inner.entries
  pinned : ∀ layer id, id ∈ (whole.caches layer).pinned → id ∈ (whole.caches layer).residentIds →
    id ∈ (emptied.caches layer).residentIds

lemma Emptied.refl (self : MultiLayerExpertCache) : Emptied self self :=
  ⟨rfl,rfl,fun _ => ⟨rfl,rfl,rfl,rfl,rfl⟩,fun _ => .refl _,fun _ _ _ h => h⟩

/-- The plan after `k` requests, and the cache without the residents that it has evicted. -/
structure Planned (whole : MultiLayerExpertCache) (requests : List Request) (k : ℕ)
    (plan : VictimPlan) (emptied : MultiLayerExpertCache) (victims : List ExpertResident) :
    Prop where
  popped : popVictims plan.residentVictims whole = some (emptied,victims)
  leaves : Emptied whole emptied
  layers : ∀ layer, plan.layers layer =
    (placed plan.requestFinalLayers k layer).map (requestEntry requests)++
      virtualLayer (emptied.caches layer)
  length : plan.requestFinalLayers.length = requests.length
  pending : ∀ i, k ≤ i →
    plan.requestFinalLayers[i]? = requests[i]?.map fun request => some request.layer
  target : ∀ (i layer : ℕ), plan.requestFinalLayers[i]? = some (some layer) →
    requests[i]?.map Request.layer = some layer
  total : plan.total = ∑ layer ∈ Finset.range whole.numLayers, (plan.layers layer).length
  bounded : ∀ layer<whole.numLayers,
    (plan.layers layer).length ≤ (whole.caches layer).capacity
  gone : ∀ victim ∈ victims, ∃ layer<whole.numLayers,
    victim.id ∈ (whole.caches layer).residentIds
  evicted : ∀ x, x ∈ plan.evictionIds ↔ x ∈ victims.map ExpertResident.id ∨
    ∃ i : ℕ, plan.requestFinalLayers[i]? = some none ∧ requests[i]?.map Request.id = some x

lemma popVictims_concat {emptied : MultiLayerExpertCache} {layer id : ℕ} {buffer : PooledBuffer}
    (gone : List (ℕ × ℕ)) :
    ∀ {self : MultiLayerExpertCache} {victims : List ExpertResident},
      popVictims gone self = some (emptied,victims) →
      ((emptied.caches layer).inner.pop id).2 = some buffer →
      popVictims (gone++[(layer,id)]) self =
        some (emptied.setLayer layer ((emptied.caches layer).setInner
          ((emptied.caches layer).inner.pop id).1),victims++[⟨id,buffer⟩]) := by
  induction gone with
  | nil =>
    intro self victims h hpop
    cases h
    rw [List.nil_append, popVictims]
    generalize (emptied.caches layer).inner.pop id = popped at hpop
    obtain ⟨inner,value⟩ := popped
    cases hpop
    rfl
  | cons first gone ih =>
    intro self victims h hpop
    obtain ⟨firstLayer,firstId⟩ := first
    rw [List.cons_append, popVictims]
    rw [popVictims] at h
    generalize (self.caches firstLayer).inner.pop firstId = popped at h
    obtain ⟨inner,value⟩ := popped
    cases value with
    | none => cases h
    | some firstBuffer =>
      dsimp only at h ⊢
      obtain ⟨⟨rest,restVictims⟩,hrest,h⟩ := Option.bind_eq_some_iff.mp h
      cases h
      rw [ih hrest hpop]
      rfl

/-- Another length for one layer. -/
lemma sum_length_update {α : Type*} {n layer : ℕ} (hlayer : layer<n) (layers : ℕ → List α)
    (entries : List α) :
    ∑ l ∈ Finset.range n, (Function.update layers layer entries l).length+(layers layer).length =
      ∑ l ∈ Finset.range n, (layers l).length+entries.length := by
  have hmem : layer ∈ Finset.range n := Finset.mem_range.mpr hlayer
  have hrest : ∑ l ∈ (Finset.range n).erase layer, (Function.update layers layer entries l).length =
      ∑ l ∈ (Finset.range n).erase layer, (layers l).length := by
    apply Finset.sum_congr rfl
    intro l hl
    rw [Function.update_of_ne (Finset.ne_of_mem_erase hl)]
  rw [← Finset.add_sum_erase _ _ hmem, ← Finset.add_sum_erase _ (fun l => (layers l).length) hmem,
    hrest, Function.update_self]
  omega

section Steps
variable {self emptied : MultiLayerExpertCache} {requests : List Request} {k layer : ℕ}
  {plan next : VictimPlan} {victims : List ExpertResident}

/-- Which entry a removal takes, and what it does. -/
lemma removeVictim_some (h : plan.removeVictim layer = .ok (some next)) :
    (∃ id pinned left, takeLast (fun entry => !entry.pinned) (plan.layers layer) =
        some (.resident id pinned,left) ∧ next = { plan with
          layers := Function.update plan.layers layer left
          evictionIds := plan.evictionIds++[id]
          residentVictims := plan.residentVictims++[(layer,id)] }) ∨
    ∃ id i pinned left, takeLast (fun entry => !entry.pinned) (plan.layers layer) =
        some (.requested id i pinned,left) ∧ next = { plan with
          layers := Function.update plan.layers layer left
          evictionIds := plan.evictionIds++[id]
          requestFinalLayers := plan.requestFinalLayers.set i none } := by
  unfold VictimPlan.removeVictim at h
  cases htake : takeLast (fun entry => !entry.pinned) (plan.layers layer) with
  | none =>
    rw [htake] at h
    cases h
  | some found =>
    obtain ⟨entry,left⟩ := found
    rw [htake] at h
    cases entry with
    | resident id pinned =>
      cases h
      exact .inl ⟨id,pinned,left,rfl,rfl⟩
    | outstandingReservation => cases h
    | requested id i pinned =>
      cases h
      exact .inr ⟨id,i,pinned,left,rfl,rfl⟩

/-- The last entry that may go is a resident, then a foreign reservation, then a request. -/
lemma Planned.takeLast_layer (h : Planned self requests k plan emptied victims) (layer : ℕ) :
    (∃ entry left, takeLast (emptied.caches layer).unpinned (emptied.caches layer).inner.entries =
        some (entry,left) ∧
      takeLast (fun entry => !entry.pinned) (plan.layers layer) =
        some (residentEntry (emptied.caches layer).pinned entry,
          (placed plan.requestFinalLayers k layer).map (requestEntry requests)++
            (List.replicate (emptied.caches layer).reservedSlots .outstandingReservation++
              left.map (residentEntry (emptied.caches layer).pinned)))) ∨
    takeLast (emptied.caches layer).unpinned (emptied.caches layer).inner.entries = none ∧
      ((∃ left, takeLast (fun entry => !entry.pinned) (plan.layers layer) =
          some (.outstandingReservation,left)) ∨
        (emptied.caches layer).reservedSlots = 0 ∧
          takeLast (fun entry => !entry.pinned) (plan.layers layer) =
            (takeLast (fun i => !(requestEntry requests i).pinned)
              (placed plan.requestFinalLayers k layer)).map fun found =>
                (requestEntry requests found.1,
                  found.2.map (requestEntry requests)++virtualLayer (emptied.caches layer))) := by
  set cache := emptied.caches layer with hcache
  have hpinned : (fun entry => !(residentEntry cache.pinned entry).pinned) = cache.unpinned := by
    funext entry
    rw [ExpertCache.unpinned, decide_not]
    rfl
  have hresidents := takeLast_map (q := fun entry => !entry.pinned) (residentEntry cache.pinned)
    cache.inner.entries
  rw [hpinned] at hresidents
  rw [h.layers layer, ← hcache, virtualLayer]
  cases htake : takeLast cache.unpinned cache.inner.entries with
  | some found =>
    obtain ⟨entry,left⟩ := found
    rw [htake] at hresidents
    refine .inl ⟨entry,left,rfl,?_⟩
    exact takeLast_append_of_some (takeLast_append_of_some hresidents _) _
  | none =>
    rw [htake] at hresidents
    refine .inr ⟨rfl,?_⟩
    have houtstanding := takeLast_append_of_none hresidents
      (List.replicate cache.reservedSlots .outstandingReservation)
    cases hreserved : cache.reservedSlots with
    | zero =>
      refine .inr ⟨rfl,?_⟩
      rw [hreserved] at houtstanding
      rw [takeLast_append_of_none houtstanding, takeLast_map, Option.map_map]
      rfl
    | succ n =>
      refine .inl ?_
      rw [hreserved] at houtstanding
      cases hlast : takeLast (fun entry => !entry.pinned)
          (List.replicate (n+1) VirtualCacheEntry.outstandingReservation) with
      | none =>
        have hall := takeLast_eq_none.mp hlast .outstandingReservation
          (List.mem_replicate.mpr ⟨Nat.succ_ne_zero n,rfl⟩)
        cases hall
      | some found =>
        obtain ⟨entry,left⟩ := found
        obtain ⟨-,before,after,hsplit,-⟩ := takeLast_eq_some hlast
        have hentry : entry = .outstandingReservation := by
          refine (List.mem_replicate (n := n+1)).mp ?_ |>.2
          rw [hsplit]
          exact List.mem_append_right _ List.mem_cons_self
        rw [hlast, hentry] at houtstanding
        exact ⟨_,takeLast_append_of_some houtstanding _⟩

/-- The lengths after a removal. -/
lemma Planned.shrink (h : Planned self requests k plan emptied victims)
    (hlayer : layer<self.numLayers) {p : VirtualCacheEntry → Bool} {entry : VirtualCacheEntry}
    {left : List VirtualCacheEntry} (htake : takeLast p (plan.layers layer) = some (entry,left)) :
    plan.total-1 = ∑ l ∈ Finset.range self.numLayers,
        (Function.update plan.layers layer left l).length ∧
      ∀ l<self.numLayers,
        (Function.update plan.layers layer left l).length ≤ (self.caches l).capacity := by
  have hlength := length_takeLast htake
  constructor
  · have hsum := sum_length_update hlayer plan.layers left
    rw [h.total]
    omega
  · intro l hrange
    have hbounded := h.bounded l hrange
    by_cases hl : l = layer
    · subst hl
      rw [Function.update_self]
      omega
    · rw [Function.update_of_ne hl]
      exact hbounded

/-- Taking an unpinned resident out of a layer. -/
lemma Emptied.pop (h : Emptied self emptied) {entry : ℕ × PooledBuffer}
    {left : List (ℕ × PooledBuffer)}
    (htake : takeLast (emptied.caches layer).unpinned (emptied.caches layer).inner.entries =
      some (entry,left)) :
    Emptied self (emptied.setLayer layer ((emptied.caches layer).setInner
      ((emptied.caches layer).inner.pop entry.1).1)) := by
  obtain ⟨hholding,-⟩ := ExpertCache.pop_victim htake
  have hfree : entry.1 ∉ (emptied.caches layer).pinned :=
    of_decide_eq_true (takeLast_eq_some htake).1
  refine ⟨h.numLayers,h.stride,fun l => ?_,fun l => ?_,fun l id hid hmem => ?_⟩
  · by_cases hl : l = layer
    · subst hl
      rw [caches_setLayer_self]
      have hboth := (h.layer l).trans hholding
      exact ⟨rfl,hboth.capacity,hboth.pinned,hboth.costAware,hboth.reserved⟩
    · rw [caches_setLayer_of_ne _ hl]
      exact h.layer l
  · by_cases hl : l = layer
    · subst hl
      rw [caches_setLayer_self]
      exact List.filter_sublist.trans (h.kept l)
    · rw [caches_setLayer_of_ne _ hl]
      exact h.kept l
  · by_cases hl : l = layer
    · subst hl
      rw [caches_setLayer_self]
      refine (ExpertCache.Sound.remove hfree).pinned id ?_ (h.pinned l id hid hmem)
      rw [(h.layer l).pinned]
      exact hid
    · rw [caches_setLayer_of_ne _ hl]
      exact h.pinned l id hid hmem

/-- A resident goes. -/
lemma Planned.removeResident (h : Planned self requests k plan emptied victims)
    (hlayer : layer<self.numLayers) {entry : ℕ × PooledBuffer} {left : List (ℕ × PooledBuffer)}
    {id : ℕ} {pinned : Bool} {rest : List VirtualCacheEntry}
    (htake : takeLast (emptied.caches layer).unpinned (emptied.caches layer).inner.entries =
      some (entry,left))
    (hwhole : takeLast (fun entry => !entry.pinned) (plan.layers layer) =
      some (residentEntry (emptied.caches layer).pinned entry,
        (placed plan.requestFinalLayers k layer).map (requestEntry requests)++
          (List.replicate (emptied.caches layer).reservedSlots .outstandingReservation++
            left.map (residentEntry (emptied.caches layer).pinned))))
    (htake' : takeLast (fun entry => !entry.pinned) (plan.layers layer) =
      some (.resident id pinned,rest)) : ∃ emptied victims,
      Planned self requests k { plan with
        layers := Function.update plan.layers layer rest
        evictionIds := plan.evictionIds++[id]
        residentVictims := plan.residentVictims++[(layer,id)]
        total := plan.total-1 } emptied victims := by
  obtain ⟨htotal,hbounded⟩ := h.shrink hlayer htake'
  rw [hwhole] at htake'
  obtain ⟨hentry,rfl⟩ := Prod.mk.inj (Option.some.inj htake')
  obtain ⟨rfl,-⟩ := VirtualCacheEntry.resident.inj hentry
  obtain ⟨hholding,hvalue⟩ := ExpertCache.pop_victim htake
  refine ⟨_,_,popVictims_concat _ h.popped hvalue,h.leaves.pop htake,fun l => ?_,h.length,
    h.pending,h.target,htotal,hbounded,?_,fun x => ?_⟩
  · change Function.update plan.layers layer _ l = (placed plan.requestFinalLayers k l).map _++_
    by_cases hl : l = layer
    · subst hl
      rw [Function.update_self, caches_setLayer_self, virtualLayer, hholding.entries,
        hholding.pinned, hholding.reserved]
    · rw [Function.update_of_ne hl, caches_setLayer_of_ne _ hl]
      exact h.layers l
  · rw [List.forall_mem_append]
    refine ⟨h.gone,fun victim hvictim => ⟨layer,hlayer,?_⟩⟩
    rw [List.mem_singleton.mp hvictim]
    obtain ⟨-,before,after,hsplit,-⟩ := takeLast_eq_some htake
    refine ExpertCache.mem_residentIds.mpr ⟨entry.2,(h.leaves.kept layer).subset ?_⟩
    rw [hsplit]
    exact List.mem_append_right _ List.mem_cons_self
  · change x ∈ plan.evictionIds++[entry.1] ↔ x ∈ (victims++[_]).map ExpertResident.id ∨
      ∃ i : ℕ, plan.requestFinalLayers[i]? = some none ∧ _
    rw [List.map_append, List.mem_append, List.mem_append, h.evicted]
    exact or_right_comm

/-- The final layer of a request that goes. -/
lemma eq_of_getElem?_set_none {layers : List (Option ℕ)} {j i l : ℕ}
    (h : (layers.set j none)[i]? = some (some l)) : layers[i]? = some (some l) := by
  by_cases hij : j = i
  · subst hij
    have hlt := (List.getElem?_eq_some_iff.mp h).1
    rw [List.getElem?_set_self (by simpa using hlt)] at h
    cases h
  · rwa [List.getElem?_set_ne hij] at h

/-- A request that goes is evicted, with those before it. -/
lemma evicted_set_none {layers : List (Option ℕ)} {j l x : ℕ} {request : Request}
    (hfinal : layers[j]? = some (some l)) (hrequest : requests[j]? = some request) :
    (∃ i : ℕ, (layers.set j none)[i]? = some none ∧ requests[i]?.map Request.id = some x) ↔
      (∃ i : ℕ, layers[i]? = some none ∧ requests[i]?.map Request.id = some x) ∨ x = request.id := by
  constructor
  · rintro ⟨i,hnone,hid⟩
    by_cases hij : i = j
    · subst hij
      rw [hrequest] at hid
      exact .inr (Option.some.inj hid).symm
    · rw [List.getElem?_set_ne fun heq => hij heq.symm] at hnone
      exact .inl ⟨i,hnone,hid⟩
  · rintro (⟨i,hnone,hid⟩ | rfl)
    · refine ⟨i,?_,hid⟩
      rw [List.getElem?_set_ne]
      · exact hnone
      · rintro rfl
        rw [hfinal] at hnone
        cases hnone
    · refine ⟨j,List.getElem?_set_self (List.getElem?_eq_some_iff.mp hfinal).1,?_⟩
      rw [hrequest]
      rfl

/-- A request goes. -/
lemma Planned.removeRequest (h : Planned self requests k plan emptied victims)
    (hlayer : layer<self.numLayers) {j id i : ℕ} {left : List ℕ} {pinned : Bool}
    {rest : List VirtualCacheEntry}
    (hplaced : takeLast (fun i => !(requestEntry requests i).pinned)
      (placed plan.requestFinalLayers k layer) = some (j,left))
    (hwhole : takeLast (fun entry => !entry.pinned) (plan.layers layer) =
      some (requestEntry requests j,
        left.map (requestEntry requests)++virtualLayer (emptied.caches layer)))
    (htake : takeLast (fun entry => !entry.pinned) (plan.layers layer) =
      some (.requested id i pinned,rest)) :
    Planned self requests k { plan with
      layers := Function.update plan.layers layer rest
      evictionIds := plan.evictionIds++[id]
      requestFinalLayers := plan.requestFinalLayers.set i none
      total := plan.total-1 } emptied victims := by
  obtain ⟨-,before,after,hsplit,-⟩ := takeLast_eq_some hplaced
  have hj : j ∈ placed plan.requestFinalLayers k layer := by
    rw [hsplit]
    exact List.mem_append_right _ List.mem_cons_self
  obtain ⟨hjk,hfinal⟩ := mem_placed.mp hj
  have hlt : j<requests.length := by
    rw [← h.length]
    exact (List.getElem?_eq_some_iff.mp hfinal).1
  have hrequest : requests[j]? = some requests[j] := List.getElem?_eq_getElem hlt
  generalize requests[j] = request at hrequest
  obtain ⟨htotal,hbounded⟩ := h.shrink hlayer htake
  rw [hwhole, requestEntry, hrequest] at htake
  cases htake
  refine ⟨h.popped,h.leaves,fun l => ?_,?_,fun x hx => ?_,
    fun x l hx => h.target x l (eq_of_getElem?_set_none hx),htotal,hbounded,h.gone,fun x => ?_⟩
  · change Function.update plan.layers layer _ l =
      (placed (plan.requestFinalLayers.set j none) k l).map _++_
    by_cases hl : l = layer
    · subst hl
      rw [Function.update_self, placed_set_takeLast hplaced]
    · rw [Function.update_of_ne hl, placed_set_of_ne hfinal hl]
      exact h.layers l
  · change (plan.requestFinalLayers.set j none).length = _
    rw [List.length_set]
    exact h.length
  · change (plan.requestFinalLayers.set j none)[x]? = _
    rw [List.getElem?_set_ne (by omega)]
    exact h.pending x hx
  · change x ∈ plan.evictionIds++[request.id] ↔ _ ∨
      ∃ i : ℕ, (plan.requestFinalLayers.set j none)[i]? = some none ∧ _
    rw [List.mem_append, List.mem_singleton, h.evicted, or_assoc, evicted_set_none hfinal hrequest]

lemma Planned.remove (h : Planned self requests k plan emptied victims)
    (hlayer : layer<self.numLayers) (hremove : plan.removeVictim layer = .ok (some next)) :
    ∃ emptied victims,
      Planned self requests k { next with total := next.total-1 } emptied victims := by
  rcases h.takeLast_layer layer with ⟨entry,left,htake,hwhole⟩ |
    ⟨-,⟨left,hwhole⟩ | ⟨-,hwhole⟩⟩
  · obtain ⟨id,pinned,rest,htake',rfl⟩ | ⟨id,i,pinned,rest,htake',-⟩ := removeVictim_some hremove
    · exact h.removeResident hlayer htake hwhole htake'
    · rw [hwhole] at htake'
      cases htake'
  · obtain ⟨id,pinned,rest,htake',-⟩ | ⟨id,i,pinned,rest,htake',-⟩ := removeVictim_some hremove
    · rw [hwhole] at htake'
      cases htake'
    · rw [hwhole] at htake'
      cases htake'
  · cases hplaced : takeLast (fun i => !(requestEntry requests i).pinned)
        (placed plan.requestFinalLayers k layer) with
    | none =>
      rw [hplaced] at hwhole
      obtain ⟨id,pinned,rest,htake',-⟩ | ⟨id,i,pinned,rest,htake',-⟩ := removeVictim_some hremove
      · rw [hwhole] at htake'
        cases htake'
      · rw [hwhole] at htake'
        cases htake'
    | some found =>
      rw [hplaced, Option.map_some] at hwhole
      obtain ⟨id,pinned,rest,htake',-⟩ | ⟨id,i,pinned,rest,htake',rfl⟩ := removeVictim_some hremove
      · rw [hwhole, requestEntry] at htake'
        split at htake'
        · cases htake'
        · cases htake'
      · exact ⟨emptied,victims,h.removeRequest hlayer hplaced hwhole htake'⟩

/-- A request takes its place, in a layer that has one. -/
lemma Planned.place (h : Planned self requests k plan emptied victims) {request : Request}
    (hrequest : requests[k]? = some request) (hlayer : request.layer<self.numLayers)
    (hroom : (plan.layers request.layer).length<(self.caches request.layer).capacity) :
    Planned self requests (k+1) (plan.place k request) emptied victims := by
  have hfinal : plan.requestFinalLayers[k]? = some (some request.layer) := by
    rw [h.pending k le_rfl, hrequest]
    rfl
  refine ⟨h.popped,h.leaves,fun l => ?_,h.length,fun i hi => h.pending i (by omega),
    h.target,?_,fun l hrange => ?_,h.gone,h.evicted⟩
  · by_cases hl : l = request.layer
    · subst hl
      change Function.update plan.layers _ _ _ = (placed plan.requestFinalLayers _ _).map _++_
      rw [Function.update_self, placed_succ_of_eq hfinal, List.map_cons, h.layers, requestEntry,
        hrequest]
      rfl
    · change Function.update plan.layers _ _ _ = (placed plan.requestFinalLayers _ _).map _++_
      rw [Function.update_of_ne hl, placed_succ_of_ne, h.layers]
      rw [hfinal]
      exact fun heq => hl (Option.some.inj (Option.some.inj heq)).symm
  · have hsum := sum_length_update hlayer plan.layers
      (.requested request.id k request.pinned::plan.layers request.layer)
    rw [List.length_cons] at hsum
    have htotal := h.total
    change plan.total+1 = ∑ l ∈ Finset.range self.numLayers,
      (Function.update plan.layers request.layer _ l).length
    omega
  · have hbounded := h.bounded l hrange
    change (Function.update plan.layers _ _ _).length ≤ _
    by_cases hl : l = request.layer
    · subst hl
      rw [Function.update_self, List.length_cons]
      omega
    · rw [Function.update_of_ne hl]
      exact hbounded

end Steps

lemma mem_layersFrom {start n layer : ℕ} (hn : 0<n) (h : layer ∈ layersFrom start n) : layer<n := by
  obtain ⟨offset,-,rfl⟩ := List.mem_map.mp h
  exact Nat.mod_lt _ hn

lemma removeFirst_some {layers : List ℕ} {plan next : VictimPlan}
    (h : plan.removeFirst layers = .ok (some next)) :
    ∃ layer ∈ layers, plan.removeVictim layer = .ok (some next) := by
  induction layers with
  | nil => cases h
  | cons layer layers ih =>
    unfold VictimPlan.removeFirst at h
    obtain ⟨result,hresult,h⟩ := bind_eq_ok.mp h
    cases result with
    | some removed =>
      cases h
      exact ⟨layer,List.mem_cons_self,hresult⟩
    | none =>
      obtain ⟨other,hother,hremove⟩ := ih h
      exact ⟨other,List.mem_cons_of_mem _ hother,hremove⟩

/-- The aggregate eviction does nothing, or removes one entry. -/
lemma makeRoom_ok {n totalCapacity : ℕ} (hn : 0<n) {plan next : VictimPlan}
    (h : plan.makeRoom n totalCapacity = .ok next) :
    next = plan ∨ ∃ layer<n, ∃ removed, plan.removeVictim layer = .ok (some removed) ∧
      next = { removed with total := removed.total-1 } := by
  unfold VictimPlan.makeRoom at h
  split_ifs at h with hfull
  · cases hheaviest : heaviest (fun layer => (plan.layers layer).length) n with
    | none =>
      rw [hheaviest] at h
      cases h
    | some start =>
      rw [hheaviest] at h
      obtain ⟨result,hresult,h⟩ := bind_eq_ok.mp h
      cases result with
      | none => cases h
      | some removed =>
        cases h
        obtain ⟨layer,hlayer,hremove⟩ := removeFirst_some hresult
        exact .inr ⟨layer,mem_layersFrom hn hlayer,removed,hremove,rfl⟩
  · cases h
    exact .inl rfl

lemma makeRoomIn_ok {capacities : ℕ → ℕ} {layer : ℕ} {plan next : VictimPlan}
    (h : plan.makeRoomIn capacities layer = .ok next) :
    (plan.layers layer).length<capacities layer ∧ next = plan ∨
      ∃ removed, plan.removeVictim layer = .ok (some removed) ∧
        next = { removed with total := removed.total-1 } := by
  unfold VictimPlan.makeRoomIn at h
  split_ifs at h with hfull
  · obtain ⟨result,hresult,h⟩ := bind_eq_ok.mp h
    cases result with
    | none => cases h
    | some removed =>
      cases h
      exact .inr ⟨removed,hresult,rfl⟩
  · cases h
    exact .inl ⟨Nat.not_le.mp hfull,rfl⟩

/-- A removal shortens its layer. -/
lemma length_removeVictim {layer : ℕ} {plan next : VictimPlan}
    (h : plan.removeVictim layer = .ok (some next)) :
    (next.layers layer).length+1 = (plan.layers layer).length := by
  rcases removeVictim_some h with ⟨id,pinned,left,htake,rfl⟩ | ⟨id,i,pinned,left,htake,rfl⟩
  · change (Function.update plan.layers layer left layer).length+1 = _
    rw [Function.update_self]
    exact length_takeLast htake
  · change (Function.update plan.layers layer left layer).length+1 = _
    rw [Function.update_self]
    exact length_takeLast htake

section Loop
variable {self : MultiLayerExpertCache} {requests : List Request}

lemma Planned.serve {k : ℕ} {plan next : VictimPlan} {emptied : MultiLayerExpertCache}
    {victims : List ExpertResident} (h : Planned self requests k plan emptied victims)
    {request : Request} (hrequest : requests[k]? = some request)
    (hlayer : request.layer<self.numLayers)
    (hserve : plan.serve self.numLayers (fun layer => (self.caches layer).capacity) k request =
      .ok next) :
    ∃ emptied victims, Planned self requests (k+1) next emptied victims := by
  obtain ⟨roomy,hroomy,hserve⟩ := bind_eq_ok.mp hserve
  obtain ⟨ready,hready,hserve⟩ := bind_eq_ok.mp hserve
  cases hserve
  obtain ⟨emptied,victims,hplanned⟩ : ∃ emptied victims,
      Planned self requests k roomy emptied victims := by
    rcases makeRoom_ok self.layersPositive hroomy with rfl | ⟨layer,hlt,removed,hremove,rfl⟩
    · exact ⟨emptied,victims,h⟩
    · exact h.remove hlt hremove
  rcases makeRoomIn_ok hready with ⟨hroom,rfl⟩ | ⟨removed,hremove,rfl⟩
  · exact ⟨emptied,victims,hplanned.place hrequest hlayer hroom⟩
  · obtain ⟨emptied',victims',hplanned'⟩ := hplanned.remove hlayer hremove
    refine ⟨emptied',victims',hplanned'.place hrequest hlayer ?_⟩
    have hlength := length_removeVictim hremove
    have hbounded := hplanned.bounded request.layer hlayer
    change (removed.layers request.layer).length<_
    omega

lemma Planned.serveAll (rest : List Request) :
    ∀ {done : List Request} {plan last : VictimPlan} {emptied : MultiLayerExpertCache}
      {victims : List ExpertResident}, done++rest = requests →
      Planned self requests done.length plan emptied victims →
      (∀ request ∈ rest, request.layer<self.numLayers) →
      VictimPlan.serveAll self.numLayers (fun layer => (self.caches layer).capacity) done.length
        rest plan = .ok last →
      ∃ emptied victims, Planned self requests requests.length last emptied victims := by
  induction rest with
  | nil =>
    intro done plan last emptied victims hsplit h hlayers hserve
    cases hserve
    rw [List.append_nil] at hsplit
    subst hsplit
    exact ⟨emptied,victims,h⟩
  | cons request rest ih =>
    intro done plan last emptied victims hsplit h hlayers hserve
    obtain ⟨hlayer,hlayers⟩ := List.forall_mem_cons.mp hlayers
    obtain ⟨next,hnext,hserve⟩ := bind_eq_ok.mp hserve
    have hrequest : requests[done.length]? = some request := by
      rw [← hsplit, List.getElem?_append_right le_rfl, Nat.sub_self]
      rfl
    obtain ⟨emptied',victims',hplanned⟩ := h.serve hrequest hlayer hnext
    have hlength : (done++[request]).length = done.length+1 := by
      rw [List.length_append, List.length_singleton]
    rw [← hlength] at hplanned hserve
    exact ih (by rw [List.append_assoc]; exact hsplit) hplanned hlayers hserve

lemma Planned.start (hroom : ∀ layer<self.numLayers,
    (self.caches layer).len+(self.caches layer).reservedSlots ≤ (self.caches layer).capacity) :
    Planned self requests 0 (VictimPlan.start self.numLayers
      (fun layer => virtualLayer (self.caches layer)) requests) self [] := by
  refine ⟨rfl,.refl self,fun layer => rfl,List.length_map ..,fun i _ => List.getElem?_map ..,
    fun i layer hlayer => ?_,rfl,fun layer hlayer => ?_,nofun,fun x => ⟨nofun,?_⟩⟩
  · change (requests.map fun request => some request.layer)[i]? = _ at hlayer
    rw [List.getElem?_map] at hlayer
    obtain ⟨request,hrequest,hsome⟩ := Option.map_eq_some_iff.mp hlayer
    rw [hrequest]
    exact hsome
  rotate_left
  · rintro (hmem | ⟨i,hnone,-⟩)
    · cases hmem
    · change (requests.map fun request => some request.layer)[i]? = _ at hnone
      rw [List.getElem?_map] at hnone
      cases hrequest : requests[i]? with
      | none =>
        rw [hrequest] at hnone
        cases hnone
      | some request =>
        rw [hrequest] at hnone
        cases hnone
  have hle := hroom layer hlayer
  change (virtualLayer (self.caches layer)).length ≤ _
  rw [virtualLayer, List.length_append, List.length_replicate, List.length_map]
  change (self.caches layer).inner.entries.length+_ ≤ _ at hle
  omega

/-- The plan of a whole demand. -/
theorem planSequentialVictims_planned {last : VictimPlan} (hroom : ∀ layer<self.numLayers,
      (self.caches layer).len+(self.caches layer).reservedSlots ≤ (self.caches layer).capacity)
    (hlayers : ∀ request ∈ requests, request.layer<self.numLayers)
    (h : VictimPlan.planSequentialVictims self.numLayers
      (fun layer => virtualLayer (self.caches layer))
      (fun layer => (self.caches layer).capacity) requests = .ok last) :
    ∃ emptied victims, Planned self requests requests.length last emptied victims :=
  @Planned.serveAll self requests requests [] _ last self [] rfl (.start hroom) hlayers h

end Loop

end MicroExpertRouter.RamCache
