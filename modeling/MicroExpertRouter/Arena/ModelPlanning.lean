import MicroExpertRouter.Arena.ModelPlan

/-! When planning for all layers succeeds, and what its plan is then. The loop asks for one more
slot of every layer, whether or not it would take it, so that a layer which holds all the slots
that the device allows ends it with an error. -/
namespace MicroExpertRouter.Arena

section Blocking
variable (geometry : ExpertGeometry) (limits : Limits)

/-- What the loop spends until some layer holds all the slots that the device allows: on the first
layer alone, but when a bank of every layer is full, on one slot of each other layer before. -/
def blockingBytes (numLayers : ℕ) : ℕ :=
  let limits := limits.toDeviceLimits
  arenaBytes geometry limits (maximumSlots geometry limits)-arenaBytes geometry limits geometry.topK+
    if maximumSlotsPerBank geometry limits ∣ geometry.topK ∧ 1 < maximumSlotsPerBank geometry limits ∧
        geometry.topK < maximumSlots geometry limits then
      (numLayers-1)*(geometry.slotStrideBytes-4)
    else 0

variable {geometry limits} {numLayers money left : ℕ} {last : List ℕ}

lemma slotCost_le (slots : ℕ) :
    slotCost geometry limits.toDeviceLimits slots ≤ geometry.slotStrideBytes := by
  unfold slotCost
  split_ifs
  · exact Nat.sub_le _ _
  · exact le_rfl

/-- Where the greedy run leads when the device allows fewer slots than there are experts. -/
lemma blocked_iff (hlimit : maximumSlots geometry limits.toDeviceLimits<geometry.numExperts)
    (htopK : geometry.topK ≤ maximumSlots geometry limits.toDeviceLimits) (hlayers : 0<numLayers)
    (hrun : Greedy.Run (slotCost geometry limits.toDeviceLimits) (fullLayer geometry limits) money
      (List.replicate numLayers geometry.topK) last left) :
    Blocked geometry limits last ↔ blockingBytes geometry limits numLayers ≤ money := by
  have hfull : fullLayer geometry limits = maximumSlots geometry limits.toDeviceLimits :=
    Nat.min_eq_right hlimit.le
  have hprice : ∀ slots, slots < maximumSlots geometry limits.toDeviceLimits →
      arenaBytes geometry limits.toDeviceLimits (slots+1) =
        arenaBytes geometry limits.toDeviceLimits slots+
          slotCost geometry limits.toDeviceLimits slots := fun _ => arenaBytes_succ
  rw [hfull] at hrun
  obtain ⟨others,rfl⟩ := Nat.exists_eq_succ_of_ne_zero hlayers.ne'
  have hblocked : Blocked geometry limits last ↔
      ∃ slots ∈ last, maximumSlots geometry limits.toDeviceLimits ≤ slots :=
    and_iff_right hlimit
  rw [hblocked]
  unfold blockingBytes
  dsimp only
  rcases htopK.lt_or_eq with hroom | heq
  swap
  · -- All slots are taken at once.
    have hle := hrun.le
    rw [List.replicate_succ] at hle
    rw [← heq, if_neg (fun h => lt_irrefl _ h.2.2)]
    cases hle with
    | cons hfirst _ => exact iff_of_true ⟨_,List.mem_cons_self,hfirst⟩ (by omega)
  by_cases hbank : maximumSlotsPerBank geometry limits.toDeviceLimits ∣ geometry.topK ∧
      1 < maximumSlotsPerBank geometry limits.toDeviceLimits
  · -- Every layer is at the end of a bank, where the next slot is cheaper.
    obtain ⟨hdvd,hone⟩ := hbank
    rw [if_pos ⟨hdvd,hone,hroom⟩]
    have hnext : ¬ maximumSlotsPerBank geometry limits.toDeviceLimits ∣ geometry.topK+1 := by
      intro h
      have hunit := (Nat.dvd_add_right hdvd).mp h
      rw [Nat.dvd_one] at hunit
      omega
    have hcheap : slotCost geometry limits.toDeviceLimits geometry.topK =
        geometry.slotStrideBytes-4 := if_pos hdvd
    have hdear : slotCost geometry limits.toDeviceLimits (geometry.topK+1) =
        geometry.slotStrideBytes := if_neg hnext
    have hstride := @stride_ge geometry
    have hbelow : geometry.topK+1 < maximumSlots geometry limits.toDeviceLimits := by
      refine Nat.lt_of_le_of_ne hroom fun heq => hnext ?_
      rw [heq]
      exact Dvd.intro_left _ rfl
    have hrow := @Greedy.Run.row_full_iff (slotCost geometry limits.toDeviceLimits)
      (maximumSlots geometry limits.toDeviceLimits) (arenaBytes geometry limits.toDeviceLimits)
      money left last hprice geometry.topK 0 (others+1) (by
        rw [List.replicate_zero, List.nil_append]
        exact hrun) (by omega) hbelow (by omega) fun n _ _ => by
          rw [hdear]
          exact slotCost_le n
    rw [hrow, hcheap]
    have hmono := arenaBytes_mono hbelow.le (le_refl (maximumSlots geometry limits.toDeviceLimits))
    have hstep := hprice geometry.topK hroom
    rw [Nat.succ_mul, Nat.succ_sub_one]
    omega
  · rw [if_neg fun h => hbank ⟨h.1,h.2.1⟩, Nat.add_zero]
    rw [List.replicate_succ] at hrun
    refine hrun.head_full_iff hprice hroom.le (fun slots hslots => ?_) fun slots hslots n hn hlt => ?_
    · rwa [List.eq_of_mem_replicate hslots]
    · rw [List.eq_of_mem_replicate hslots]
      by_cases hdvd : maximumSlotsPerBank geometry limits.toDeviceLimits ∣ geometry.topK
      · have hone : maximumSlotsPerBank geometry limits.toDeviceLimits = 1 := by
          have hpositive : 0 < maximumSlotsPerBank geometry limits.toDeviceLimits := by
            unfold maximumSlots at hroom
            exact Nat.pos_of_mul_pos_left (Nat.zero_lt_of_lt hroom)
          have hsmall : ¬ 1 < maximumSlotsPerBank geometry limits.toDeviceLimits :=
            fun h => hbank ⟨hdvd,h⟩
          omega
        unfold slotCost
        rw [hone, if_pos (one_dvd _), if_pos (one_dvd _)]
      · have hdear : slotCost geometry limits.toDeviceLimits geometry.topK =
            geometry.slotStrideBytes := if_neg hdvd
        rw [hdear]
        exact slotCost_le n

end Blocking

section Planning
variable {geometry : ExpertGeometry} {limits : Limits} {numLayers budget : ℕ}
  {minimumLayer : VramPlan}

/-- What is asked of the plan of a budget. -/
structure GreedyMaximal (numLayers : ℕ) (geometry : ExpertGeometry) (limits : Limits)
    (budget : ℕ) (plan : ModelVramPlan) : Prop where
  layers : plan.layerPlans.length = numLayers
  planned : ∀ layer ∈ plan.layerPlans,
    VramPlan.tryForSlotCapacity geometry layer.slotCapacity limits = .ok layer ∧
      geometry.topK ≤ layer.slotCapacity ∧ layer.slotCapacity ≤ geometry.numExperts
  total : plan.totalArenaAllocationBytes =
    (plan.layerPlans.map VramPlan.totalArenaAllocationBytes).sum
  within : plan.totalArenaAllocationBytes ≤ budget
  maximal : ∀ layer ∈ plan.layerPlans, ∀ next,
    VramPlan.tryForSlotCapacity geometry (layer.slotCapacity+1) limits = .ok next →
    budget-plan.totalArenaAllocationBytes <
      next.totalArenaAllocationBytes-layer.totalArenaAllocationBytes
  monotone : ∀ more other, budget ≤ more → more ≤ u64Max →
    ModelVramPlan.tryNew numLayers geometry more limits = some (.ok other) →
    List.Forall₂ (fun layer larger => layer.slotCapacity ≤ larger.slotCapacity) plan.layerPlans
      other.layerPlans

/-- What is known before the loop begins. -/
structure Plannable (numLayers : ℕ) (geometry : ExpertGeometry) (limits : Limits) (budget : ℕ)
    (minimumLayer : VramPlan) : Prop where
  valid : geometry.Valid
  namespaced : validateNamespace numLayers geometry.numExperts = .ok ()
  minimum : VramPlan.tryForSlotCapacity geometry geometry.topK limits = .ok minimumLayer
  enough : minimumLayer.totalArenaAllocationBytes*numLayers ≤ budget
  width : budget ≤ u64Max

namespace Plannable

lemma layers_pos (h : Plannable numLayers geometry limits budget minimumLayer) : 0<numLayers := by
  have hnamespaced := h.namespaced
  unfold validateNamespace at hnamespaced
  split_ifs at hnamespaced with hzero
  exact Nat.pos_of_ne_zero hzero

lemma bytes (h : Plannable numLayers geometry limits budget minimumLayer) :
    minimumLayer.totalArenaAllocationBytes =
      arenaBytes geometry limits.toDeviceLimits geometry.topK :=
  (planOf_tryForSlotCapacity h.valid h.minimum).total

/-- The call is the growing loop from the minimum. -/
lemma tryNew_eq (h : Plannable numLayers geometry limits budget minimumLayer) :
    ModelVramPlan.tryNew numLayers geometry budget limits =
      (ModelVramPlan.growLayers geometry limits budget (numLayers*geometry.numExperts+1)
        (List.replicate numLayers minimumLayer)
        (minimumLayer.totalArenaAllocationBytes*numLayers)).map fun grown =>
          grown.map fun (layerPlans,total) =>
            ⟨geometry,budget,minimumLayer.totalArenaAllocationBytes*numLayers,layerPlans,total⟩ := by
  unfold ModelVramPlan.tryNew
  rw [h.namespaced, h.minimum]
  dsimp only
  rw [checkedMul_of_le (h.enough.trans h.width)]
  dsimp only
  rw [if_neg (Nat.not_lt.mpr h.enough)]

/-- The call answers with a greedy run, unless a layer is blocked. -/
lemma tryNew_run (h : Plannable numLayers geometry limits budget minimumLayer) :
    ∃ last left, Greedy.Run (slotCost geometry limits.toDeviceLimits) (fullLayer geometry limits)
        (budget-minimumLayer.totalArenaAllocationBytes*numLayers)
        (List.replicate numLayers geometry.topK) last left ∧
      (Blocked geometry limits last → ∃ e,
        ModelVramPlan.tryNew numLayers geometry budget limits = some (.error e)) ∧
      (¬ Blocked geometry limits last → ∃ lastPlans, Plans geometry limits lastPlans last ∧
        ModelVramPlan.tryNew numLayers geometry budget limits = some (.ok ⟨geometry,budget,
          minimumLayer.totalArenaAllocationBytes*numLayers,lastPlans,budget-left⟩)) := by
  obtain ⟨hlimits,-,hexperts,hdevice⟩ := (tryForSlotCapacity_eq_ok h.valid).mp ⟨_,h.minimum⟩
  obtain ⟨last,left,hrun⟩ := Greedy.exists_run (slotCost geometry limits.toDeviceLimits)
    (fullLayer geometry limits) (budget-minimumLayer.totalArenaAllocationBytes*numLayers)
    (List.replicate numLayers geometry.topK)
  have hplans : Plans geometry limits (List.replicate numLayers minimumLayer)
      (List.replicate numLayers geometry.topK) := by
    unfold Plans
    generalize numLayers = count
    induction count with
    | zero => exact .nil
    | succ count ih => exact .cons h.minimum ih
  have hturns : ((List.replicate numLayers geometry.topK).map fun slots =>
      fullLayer geometry limits-slots).sum<numLayers*geometry.numExperts+1 := by
    have hroom : fullLayer geometry limits-geometry.topK ≤ geometry.numExperts :=
      (Nat.sub_le _ _).trans (Nat.min_le_left _ _)
    have := Nat.mul_le_mul_left numLayers hroom
    rw [List.map_replicate, List.sum_replicate, smul_eq_mul]
    omega
  obtain ⟨hblocked,hfree⟩ := growLayers_run h.valid hlimits h.width hrun (fun slots hslots => by
    rw [List.eq_of_mem_replicate hslots]
    exact Nat.le_min.mpr ⟨hexperts,hdevice⟩) hplans (Nat.add_sub_cancel' h.enough) hturns
  refine ⟨last,left,hrun,fun hstuck => ?_,fun hopen => ?_⟩
  · obtain ⟨e,he⟩ := hblocked hstuck
    rw [h.tryNew_eq, he]
    exact ⟨e,rfl⟩
  · obtain ⟨lastPlans,hlast,hok⟩ := hfree hopen
    rw [h.tryNew_eq, hok]
    exact ⟨lastPlans,hlast,rfl⟩

/-- A greedy run that blocks no layer is all that is asked of a plan. -/
lemma greedyMaximal (h : Plannable numLayers geometry limits budget minimumLayer)
    {last : List ℕ} {left : ℕ} {lastPlans : List VramPlan}
    (hrun : Greedy.Run (slotCost geometry limits.toDeviceLimits) (fullLayer geometry limits)
      (budget-minimumLayer.totalArenaAllocationBytes*numLayers)
      (List.replicate numLayers geometry.topK) last left)
    (hplans : Plans geometry limits lastPlans last) :
    GreedyMaximal numLayers geometry limits budget ⟨geometry,budget,
      minimumLayer.totalArenaAllocationBytes*numLayers,lastPlans,budget-left⟩ := by
  obtain ⟨-,-,hexperts,hdevice⟩ := (tryForSlotCapacity_eq_ok h.valid).mp ⟨_,h.minimum⟩
  have hle := hrun.le
  have hfull := hrun.le_full fun slots hslots => by
    rw [List.eq_of_mem_replicate hslots]
    exact Nat.le_min.mpr ⟨hexperts,hdevice⟩
  have hspent := @Greedy.Run.spent _ _ _ _ _ _ (arenaBytes geometry limits.toDeviceLimits)
    (fun slots hslots => arenaBytes_succ (hslots.trans_le (Nat.min_le_right _ _))) hrun
  rw [List.map_replicate, List.sum_replicate, smul_eq_mul, ← h.bytes, Nat.mul_comm numLayers,
    Nat.sub_add_cancel h.enough] at hspent
  have hslots : ∀ layer ∈ lastPlans, ∃ slots ∈ last,
      VramPlan.tryForSlotCapacity geometry slots limits = .ok layer := by
    intro layer hlayer
    obtain ⟨i,hi,rfl⟩ := List.mem_iff_getElem.mp hlayer
    have hi' : i<last.length := hplans.length_eq ▸ hi
    exact ⟨last[i],List.getElem_mem hi',hplans.get hi hi'⟩
  have hatLeast : ∀ slots ∈ last, geometry.topK ≤ slots := by
    intro slots hslots
    obtain ⟨i,hi,rfl⟩ := List.mem_iff_getElem.mp hslots
    have hi' : i<(List.replicate numLayers geometry.topK).length := hle.length_eq.symm ▸ hi
    have := hle.get hi' hi
    simpa using this
  refine ⟨?_,fun layer hlayer => ?_,?_,Nat.sub_le _ _,fun layer hlayer next hnext => ?_,
    fun more other hmore hwidth hother => ?_⟩
  · rw [hplans.length_eq, ← hle.length_eq, List.length_replicate]
  · obtain ⟨slots,hmem,hplan⟩ := hslots layer hlayer
    have hcapacity := (planOf_tryForSlotCapacity h.valid hplan).slotCapacity
    rw [hcapacity]
    exact ⟨hplan,hatLeast slots hmem,(hfull slots hmem).trans (Nat.min_le_left _ _)⟩
  · dsimp only
    rw [hplans.totals h.valid]
    omega
  · obtain ⟨slots,hmem,hplan⟩ := hslots layer hlayer
    have hcurrent := planOf_tryForSlotCapacity h.valid hplan
    rw [hcurrent.slotCapacity] at hnext
    obtain ⟨-,-,hgrows,hroom⟩ := (tryForSlotCapacity_eq_ok h.valid).mp ⟨_,hnext⟩
    have hunpaid := hrun.maximal slots hmem (lt_min hgrows hroom)
    rw [(planOf_tryForSlotCapacity h.valid hnext).total, hcurrent.total, arenaBytes_succ hroom,
      Nat.add_sub_cancel_left]
    dsimp only
    omega
  · have hlarger : Plannable numLayers geometry limits more minimumLayer :=
      ⟨h.valid,h.namespaced,h.minimum,h.enough.trans hmore,hwidth⟩
    obtain ⟨last',left',hrun',hblocked',hopen'⟩ := hlarger.tryNew_run
    by_cases hstuck : Blocked geometry limits last'
    · obtain ⟨e,he⟩ := hblocked' hstuck
      rw [hother] at he
      cases he
    · obtain ⟨lastPlans',hplans',hok⟩ := hopen' hstuck
      rw [hother] at hok
      cases hok
      have hgrow := hrun.mono hrun' (Nat.sub_le_sub_right hmore _)
      rw [← hplans.capacities h.valid, ← hplans'.capacities h.valid, List.forall₂_map_left_iff,
        List.forall₂_map_right_iff] at hgrow
      exact hgrow

end Plannable

/-- Planning for all layers within a sufficient budget succeeds, greedily and as far as the budget
goes, exactly when the device limits never stop the loop: when a layer may hold all experts, or
when the budget ends before some layer holds all the slots that the device allows. -/
theorem model_planning_iff {dModel dFf numExperts topK : ℕ}
    (hgeometry : ExpertGeometry.tryNew dModel dFf numExperts topK = .ok geometry)
    (hlayers : validateNamespace numLayers geometry.numExperts = .ok ())
    (hminimum : VramPlan.tryForSlotCapacity geometry geometry.topK limits = .ok minimumLayer)
    (henough : minimumLayer.totalArenaAllocationBytes*numLayers ≤ budget)
    (hbudget : budget ≤ u64Max) :
    (∃ plan, ModelVramPlan.tryNew numLayers geometry budget limits = some (.ok plan) ∧
      GreedyMaximal numLayers geometry limits budget plan) ↔
    geometry.numExperts ≤ maximumSlots geometry limits.toDeviceLimits ∨
      budget < minimumLayer.totalArenaAllocationBytes*numLayers+
        blockingBytes geometry limits numLayers := by
  have h : Plannable numLayers geometry limits budget minimumLayer :=
    ⟨ExpertGeometry.valid_of_tryNew hgeometry,hlayers,hminimum,henough,hbudget⟩
  obtain ⟨-,-,-,hdevice⟩ := (tryForSlotCapacity_eq_ok h.valid).mp ⟨_,hminimum⟩
  obtain ⟨last,left,hrun,hstuck,hopen⟩ := h.tryNew_run
  have hblocked : Blocked geometry limits last ↔
      ¬ (geometry.numExperts ≤ maximumSlots geometry limits.toDeviceLimits ∨
        budget < minimumLayer.totalArenaAllocationBytes*numLayers+
          blockingBytes geometry limits numLayers) := by
    rw [not_or, Nat.not_le, Nat.not_lt]
    by_cases hlimit : maximumSlots geometry limits.toDeviceLimits<geometry.numExperts
    · rw [blocked_iff hlimit hdevice h.layers_pos hrun, and_iff_right hlimit,
        Nat.le_sub_iff_add_le' henough]
    · exact iff_of_false (fun hblocked => hlimit hblocked.1) fun hboth => hlimit hboth.1
  constructor
  · rintro ⟨plan,hplan,-⟩
    by_contra hnot
    obtain ⟨e,he⟩ := hstuck (hblocked.mpr hnot)
    rw [hplan] at he
    cases he
  · intro hcondition
    obtain ⟨lastPlans,hplans,hok⟩ := hopen fun hbad => hblocked.mp hbad hcondition
    exact ⟨_,hok,h.greedyMaximal hrun hplans⟩

/-- A device whose banks hold one slot of the smallest geometry, so that a layer holds four. -/
def oneSlotLimits : Limits := ⟨⟨2000,2000⟩,8,32,64,64⟩

/-- The least plan of a layer of the smallest geometry there. -/
def leastLayer : VramPlan :=
  ⟨eightExperts,3536,⟨2,2,[⟨1,1732⟩,⟨1,1732⟩,⟨0,4⟩,⟨0,4⟩],64⟩,3464,3472,3536⟩

theorem model_planning_iff_two : ∃ plan,
    ModelVramPlan.tryNew 2 eightExperts 10000 oneSlotLimits = some (.ok plan) ∧
    GreedyMaximal 2 eightExperts oneSlotLimits 10000 plan := by
  have hgeometry : ExpertGeometry.tryNew 32 32 8 2 = .ok eightExperts := rfl
  have hminimum : VramPlan.tryForSlotCapacity eightExperts eightExperts.topK oneSlotLimits =
    .ok leastLayer := rfl
  exact (@model_planning_iff eightExperts oneSlotLimits 2 10000 leastLayer 32 32 8 2 hgeometry rfl
    hminimum (by decide) (by decide)).mpr (.inr (by decide))

/-- A budget of 11000 bytes suffices for two layers of two slots, 7072 bytes, and the loop ends with
the error of a fifth slot that it did not have to take. -/
theorem model_planning_blocked :
    ExpertGeometry.tryNew 32 32 8 2 = .ok eightExperts ∧
    validateNamespace 2 eightExperts.numExperts = .ok () ∧
    VramPlan.tryForSlotCapacity eightExperts eightExperts.topK oneSlotLimits = .ok leastLayer ∧
    leastLayer.totalArenaAllocationBytes*2 ≤ 11000 ∧
    ModelVramPlan.tryNew 2 eightExperts 11000 oneSlotLimits =
      some (.error (.backend (.bootstrap (.expertArenaBankLimit 5 4)))) :=
  ⟨rfl,rfl,rfl,by decide,rfl⟩

end Planning

end MicroExpertRouter.Arena
