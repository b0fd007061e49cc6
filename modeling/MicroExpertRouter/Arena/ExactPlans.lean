import MicroExpertRouter.Arena.VramPlan

/-! Planning within a budget finds the largest arena, and a layout addresses its slots exactly. -/
namespace MicroExpertRouter.Arena

/-- What the validation of a geometry promises. -/
structure ExpertGeometry.Valid (geometry : ExpertGeometry) : Prop where
  topK_pos : 0<geometry.topK
  topK_le : geometry.topK ≤ geometry.numExperts
  experts_le : geometry.numExperts ≤ maxRouterExperts
  stride_ge : geometry.numExperts*expertMappingEntryBytes ≤ geometry.slotStrideBytes

lemma ExpertGeometry.valid_of_tryNew {dModel dFf numExperts topK : ℕ} {geometry : ExpertGeometry}
    (h : ExpertGeometry.tryNew dModel dFf numExperts topK = .ok geometry) : geometry.Valid := by
  unfold ExpertGeometry.tryNew at h
  obtain ⟨_,hrouter,h⟩ := bind_eq_ok.mp h
  unfold checkRouterGeometry at hrouter
  split_ifs at hrouter with hmodel hexperts htopK hwidth
  split_ifs at h with hff hblocks
  dsimp only at h
  split_ifs at h with hbytes
  cases h
  rw [not_or] at hexperts hblocks
  rw [not_or, not_or] at htopK
  refine ⟨by dsimp only; omega,by dsimp only; omega,by dsimp only; omega,?_⟩
  -- Both dimensions are positive multiples of a block, so that a slot holds at least 32 blocks.
  obtain ⟨model,rfl⟩ := Nat.dvd_of_mod_eq_zero (not_not.mp hblocks.1)
  obtain ⟨hidden,rfl⟩ := Nat.dvd_of_mod_eq_zero (not_not.mp hblocks.2)
  have hmodelPos : 0 < model := Nat.pos_of_ne_zero fun hzero => hmodel (by rw [hzero, Nat.mul_zero])
  have hhiddenPos : 0<hidden := Nat.pos_of_ne_zero fun hzero => hff (by rw [hzero, Nat.mul_zero])
  have hproduct : 32 ≤ model*(32*hidden) := by
    have := Nat.mul_le_mul hmodelPos (Nat.mul_le_mul_left 32 hhiddenPos)
    omega
  have hblocksCount : q4BlockElems*model*(q4BlockElems*hidden)/q4BlockElems = model*(32*hidden) := by
    rw [Nat.mul_assoc]
    exact Nat.mul_div_cancel_left _ (by decide)
  dsimp only
  rw [hblocksCount]
  have hword := le_wordAligned (expertSlotEpochBytes+model*(32*hidden)*3*q4BlockBytes)
  unfold maxRouterExperts at hexperts
  unfold expertMappingEntryBytes
  unfold q4BlockBytes at hword ⊢
  omega

section Plans
variable {geometry : ExpertGeometry} {limits : Limits} {slots : ℕ}

lemma lift_eq_ok {α : Type} {value : Except BootstrapError α} {a : α} :
    VramPlan.lift value = .ok a ↔ value = .ok a := by
  cases value <;> simp [VramPlan.lift, Except.mapError]

/-- The plan of some number of slots. -/
structure PlanOf (geometry : ExpertGeometry) (limits : Limits) (slots : ℕ) (plan : VramPlan) :
    Prop where
  layout : ArenaLayout.tryNew geometry slots limits.toDeviceLimits = .ok plan.layout
  slotCapacity : plan.slotCapacity = slots
  total : plan.totalArenaAllocationBytes = arenaBytes geometry limits.toDeviceLimits slots

/-- The device limits and the number of experts decide which slots can be planned. -/
theorem tryForSlotCapacity_eq_ok (hvalid : geometry.Valid) :
    (∃ plan, VramPlan.tryForSlotCapacity geometry slots limits = .ok plan) ↔
      validateExpertPipelineLimits limits = .ok () ∧ 0<slots ∧ slots ≤ geometry.numExperts ∧
        slots ≤ maximumSlots geometry limits.toDeviceLimits := by
  constructor
  · rintro ⟨plan,hplan⟩
    unfold VramPlan.tryForSlotCapacity at hplan
    obtain ⟨_,hlimits,hplan⟩ := bind_eq_ok.mp hplan
    split_ifs at hplan with hexperts
    obtain ⟨layout,hlayout,hplan⟩ := bind_eq_ok.mp hplan
    obtain ⟨hpositive,hslots⟩ := slots_of_tryNew (lift_eq_ok.mp hlayout)
    exact ⟨hlimits,hpositive,Nat.not_lt.mp hexperts,hslots⟩
  · rintro ⟨hlimits,hpositive,hexperts,hslots⟩
    obtain ⟨layout,hlayout,hplaced⟩ := tryNew_placed hpositive hslots hvalid.experts_le
    obtain ⟨htotal,hphysical,hactive⟩ := hplaced.totalAllocationBytes_eq hvalid.experts_le
    unfold VramPlan.tryForSlotCapacity
    rw [hlimits]
    change ∃ plan, (if geometry.numExperts<slots then _ else _) = Except.ok plan
    rw [if_neg (Nat.not_lt.mpr hexperts), hlayout]
    change ∃ plan, (VramPlan.lift layout.activeBankAllocationBytes).bind _ = Except.ok plan
    rw [hactive]
    change ∃ plan, (VramPlan.lift layout.physicalBankAllocationBytes).bind _ = Except.ok plan
    rw [hphysical]
    change ∃ plan, (VramPlan.lift layout.totalAllocationBytes).bind _ = Except.ok plan
    rw [htotal]
    exact ⟨_,rfl⟩

lemma planOf_tryForSlotCapacity (hvalid : geometry.Valid) {plan : VramPlan}
    (h : VramPlan.tryForSlotCapacity geometry slots limits = .ok plan) :
    PlanOf geometry limits slots plan := by
  unfold VramPlan.tryForSlotCapacity at h
  obtain ⟨_,-,h⟩ := bind_eq_ok.mp h
  split_ifs at h with hexperts
  obtain ⟨layout,hlayout,h⟩ := bind_eq_ok.mp h
  obtain ⟨active,-,h⟩ := bind_eq_ok.mp h
  obtain ⟨physical,-,h⟩ := bind_eq_ok.mp h
  obtain ⟨total,htotal,h⟩ := bind_eq_ok.mp h
  have hlayout := lift_eq_ok.mp hlayout
  have hplaced := placed_of_tryNew hvalid.experts_le hlayout
  rw [(hplaced.totalAllocationBytes_eq hvalid.experts_le).1] at htotal
  cases htotal
  cases h
  exact ⟨hlayout,hplaced.slotCapacity,rfl⟩

lemma fitsBudget_iff (hvalid : geometry.Valid) {budget : ℕ} :
    VramPlan.fitsBudget geometry budget limits slots = true ↔
      0<slots ∧ slots ≤ maximumSlots geometry limits.toDeviceLimits ∧
        arenaBytes geometry limits.toDeviceLimits slots ≤ budget := by
  unfold VramPlan.fitsBudget
  cases hlayout : ArenaLayout.tryNew geometry slots limits.toDeviceLimits with
  | error e =>
    have hnone : ¬ (0<slots ∧ slots ≤ maximumSlots geometry limits.toDeviceLimits ∧
        arenaBytes geometry limits.toDeviceLimits slots ≤ budget) := by
      rintro ⟨hpositive,hslots,-⟩
      obtain ⟨layout,hok,-⟩ := tryNew_placed hpositive hslots hvalid.experts_le
      rw [hlayout] at hok
      cases hok
    simp [Except.bind, hnone]
  | ok layout =>
    obtain ⟨hpositive,hslots⟩ := slots_of_tryNew hlayout
    have hplaced := placed_of_tryNew hvalid.experts_le hlayout
    have hbytes := (hplaced.totalAllocationBytes_eq hvalid.experts_le).1
    simp [Except.bind, hbytes, hpositive, hslots]

/-- Planning within a budget takes the largest number of slots that fits. -/
theorem tryNew_isGreatest (hvalid : geometry.Valid) {budget : ℕ} {plan : VramPlan}
    (h : VramPlan.tryNew geometry budget limits = .ok plan) :
    PlanOf geometry limits plan.slotCapacity plan ∧
    IsGreatest {slots | slots ≤ geometry.numExperts ∧ 0<slots ∧
      slots ≤ maximumSlots geometry limits.toDeviceLimits ∧
      arenaBytes geometry limits.toDeviceLimits slots ≤ budget} plan.slotCapacity := by
  unfold VramPlan.tryNew at h
  obtain ⟨_,-,h⟩ := bind_eq_ok.mp h
  obtain ⟨one,hone,h⟩ := bind_eq_ok.mp h
  obtain ⟨minimum,hminimum,h⟩ := bind_eq_ok.mp h
  split_ifs at h with hbudget
  have hone := lift_eq_ok.mp hone
  obtain ⟨-,hmaximum⟩ := slots_of_tryNew hone
  have hplaced := placed_of_tryNew hvalid.experts_le hone
  rw [(hplaced.totalAllocationBytes_eq hvalid.experts_le).1] at hminimum
  cases hminimum
  dsimp only at h
  cases hproduct : checkedMul u64Max (maximumSlotsPerBank geometry limits.toDeviceLimits)
      maxExpertBanks with
  | none =>
    unfold maximumSlotsPerBank maximumBankBytes at hproduct
    rw [hproduct] at h
    cases h
  | some product =>
    obtain ⟨-,hslots⟩ := checkedMul_eq_some.mp hproduct
    unfold maximumSlotsPerBank maximumBankBytes at hproduct
    rw [hproduct] at h
    obtain ⟨low,hlow,h⟩ := bind_eq_ok.mp h
    obtain ⟨layout,hlayout,h⟩ := bind_eq_ok.mp h
    obtain ⟨active,-,h⟩ := bind_eq_ok.mp h
    obtain ⟨physical,-,h⟩ := bind_eq_ok.mp h
    obtain ⟨total,htotal,h⟩ := bind_eq_ok.mp h
    have hlayout := lift_eq_ok.mp hlayout
    have hplacedLow := placed_of_tryNew hvalid.experts_le hlayout
    rw [(hplacedLow.totalAllocationBytes_eq hvalid.experts_le).1] at htotal
    cases htotal
    cases h
    have hhigh : min product geometry.numExperts = min (maximumSlots geometry limits.toDeviceLimits)
        geometry.numExperts := by
      rw [hslots, maximumSlots, Nat.mul_comm]
    rw [hhigh] at hlow
    have hexperts := hvalid.topK_pos.trans_le hvalid.topK_le
    obtain ⟨found,hfound,hlast⟩ := @Search.last_spec PlanError
      (fun midpoint => .ok (VramPlan.fitsBudget geometry budget limits midpoint))
      (fun slots => arenaBytes geometry limits.toDeviceLimits slots ≤ budget)
      (min (maximumSlots geometry limits.toDeviceLimits) geometry.numExperts) 1 _
      (fun slots hlt hle => ⟨_,rfl,by
        rw [fitsBudget_iff hvalid]
        exact ⟨fun h => h.2.2,fun h => ⟨by omega,by omega,h⟩⟩⟩)
      (fun few many _ hle hmany hfits => (arenaBytes_mono hle (by omega)).trans hfits)
      (by omega) (Nat.sub_le _ _)
    rw [hfound] at hlow
    cases hlow
    have hcapacity : layout.slotCapacity = low := hplacedLow.slotCapacity
    refine ⟨⟨?_,rfl,?_⟩,?_⟩
    · change ArenaLayout.tryNew geometry layout.slotCapacity limits.toDeviceLimits = .ok layout
      rw [hcapacity]
      exact hlayout
    · change _ = arenaBytes geometry limits.toDeviceLimits layout.slotCapacity
      rw [hcapacity]
    · change IsGreatest _ layout.slotCapacity
      rw [hcapacity]
      obtain ⟨⟨hge,hle,hfits⟩,hgreatest⟩ := hlast.isGreatest (Nat.not_lt.mp hbudget)
      refine ⟨⟨by omega,hge,by omega,hfits⟩,fun slots hslots => hgreatest ?_⟩
      obtain ⟨hexpert,hpositive,hmany,hbytes⟩ := hslots
      exact ⟨hpositive,by omega,hbytes⟩

end Plans

section Addresses
variable {geometry : ExpertGeometry} {limits : DeviceLimits} {capacity : ℕ} {layout : ArenaLayout}

lemma unpack?_pack {location : ExpertLocation} {packed : ℕ} (h : location.pack = .ok packed) :
    ExpertLocation.unpack? packed = some location := by
  unfold ExpertLocation.unpack?
  rw [if_pos (ExpertLocation.pack_ne_unmapped h)]
  exact congrArg some (ExpertLocation.unpack_pack h)

/-- How the flat slots of an arena are placed: in banks within the device limits, at disjoint
byte ranges, under locations whose words name them. -/
structure Addressed (geometry : ExpertGeometry) (limits : DeviceLimits) (capacity : ℕ)
    (layout : ArenaLayout) : Prop where
  located : ∀ flat, (∃ location, layout.locationForFlatSlot flat = .ok location) ↔ flat<capacity
  inverse : ∀ flat location, layout.locationForFlatSlot flat = .ok location ↔
    layout.flatSlotForLocation location = .ok flat
  inside : ∀ flat location, layout.locationForFlatSlot flat = .ok location →
    ∃ bank, layout.banks[location.bank]? = some bank ∧
      (location.slot+1)*geometry.slotStrideBytes ≤ bank.allocationBytes
  disjoint : ∀ flat location other otherLocation, layout.locationForFlatSlot flat = .ok location →
    layout.locationForFlatSlot other = .ok otherLocation → flat ≠ other →
    location.bank = otherLocation.bank →
    (location.slot+1)*geometry.slotStrideBytes ≤ otherLocation.slot*geometry.slotStrideBytes ∨
    (otherLocation.slot+1)*geometry.slotStrideBytes ≤ location.slot*geometry.slotStrideBytes
  allowed : ∀ bytes ∈ layout.mappingBytes::layout.banks.map BankLayout.allocationBytes,
    bytes ≤ limits.maxBufferSize ∧ bytes ≤ limits.maxStorageBufferBindingSize
  packed : ∀ flat location, layout.locationForFlatSlot flat = .ok location →
    ∃ packed, location.pack = .ok packed ∧ packed ≠ expertUnmapped ∧
      ExpertLocation.unpack? packed = some location
  distinct : ∀ flat location other otherLocation, layout.locationForFlatSlot flat = .ok location →
    layout.locationForFlatSlot other = .ok otherLocation → location.pack = otherLocation.pack →
    flat = other

/-- A device that allows a slot holds one. -/
lemma stride_le (h : 0 < maximumSlots geometry limits) :
    geometry.slotStrideBytes ≤ maximumBankBytes limits := by
  have hbank : 0 < maximumSlotsPerBank geometry limits := Nat.pos_of_mul_pos_left h
  exact (Nat.le_mul_of_pos_left _ hbank).trans bank_fits

/-- A flat slot and its location lead to each other. -/
lemma locationForFlatSlot_iff (h : layout.WellFormed) {flat : ℕ} {location : ExpertLocation} :
    layout.locationForFlatSlot flat = .ok location ↔
      layout.flatSlotForLocation location = .ok flat := by
  constructor
  · intro hlocation
    by_cases hflat : flat<layout.slotCapacity
    · obtain ⟨found,_,hfound,-,hback⟩ := h.locationForFlatSlot_ok hflat
      rw [hlocation] at hfound
      cases hfound
      exact hback
    · unfold ArenaLayout.locationForFlatSlot at hlocation
      dsimp only at hlocation
      rw [if_pos (Nat.not_lt.mp hflat)] at hlocation
      cases hlocation
  · intro hflat
    exact (h.locationForFlatSlot_of_flat hflat).2

/-- The locations of flat slots are words of the mapping. -/
lemma pack_of_locationForFlatSlot (h : layout.WellFormed) {flat : ℕ} {location : ExpertLocation}
    (hlocation : layout.locationForFlatSlot flat = .ok location) :
    ∃ packed, location.pack = .ok packed := by
  have hflat := (h.locationForFlatSlot_of_flat ((locationForFlatSlot_iff h).mp hlocation)).1
  obtain ⟨found,packed,hfound,hpack,-⟩ := h.locationForFlatSlot_ok hflat
  rw [hlocation] at hfound
  cases hfound
  exact ⟨packed,hpack⟩

/-- No two flat slots share a location. -/
lemma eq_of_locationForFlatSlot (h : layout.WellFormed) {flat other : ℕ}
    {location : ExpertLocation} (hflat : layout.locationForFlatSlot flat = .ok location)
    (hother : layout.locationForFlatSlot other = .ok location) : flat = other := by
  have hback := (locationForFlatSlot_iff h).mp hflat
  rw [(locationForFlatSlot_iff h).mp hother] at hback
  exact (Except.ok.inj hback).symm

/-- A slot lies within the allocation of its bank. -/
lemma Placed.inside (h : Placed geometry limits capacity layout) {flat : ℕ}
    {location : ExpertLocation} (hflat : layout.flatSlotForLocation location = .ok flat) :
    ∃ bank, layout.banks[location.bank]? = some bank ∧
      (location.slot+1)*geometry.slotStrideBytes ≤ bank.allocationBytes := by
  obtain ⟨hactive,bank,hbank,hslot⟩ := ArenaLayout.located_of_flat hflat
  have hmem : bank ∈ layout.banks.take layout.activeBanks := by
    apply List.mem_of_getElem? (i := location.bank)
    rw [List.getElem?_take, if_pos hactive, hbank]
  refine ⟨bank,hbank,?_⟩
  rw [(h.active bank hmem).1]
  exact Nat.mul_le_mul_right _ hslot

/-- The mapping and every bank, idle ones included, fit a buffer of the device. -/
lemma Placed.allowed (h : Placed geometry limits capacity layout) (hvalid : geometry.Valid)
    (hstride : geometry.slotStrideBytes ≤ maximumBankBytes limits) :
    ∀ bytes ∈ layout.mappingBytes::layout.banks.map BankLayout.allocationBytes,
      bytes ≤ maximumBankBytes limits := by
  intro bytes hbytes
  rcases List.mem_cons.mp hbytes with rfl | hbank
  · rw [h.mapping]
    exact hvalid.stride_ge.trans hstride
  · obtain ⟨bank,hmem,rfl⟩ := List.mem_map.mp hbank
    rw [← List.take_append_drop layout.activeBanks layout.banks, List.mem_append] at hmem
    rcases hmem with hactive | hidle
    · exact (h.active bank hactive).2
    · rw [h.idle] at hidle
      rw [List.eq_of_mem_replicate hidle]
      exact stride_ge.trans hstride

/-- Every layout addresses its slots exactly. -/
theorem addressed (hvalid : geometry.Valid)
    (h : ArenaLayout.tryNew geometry capacity limits = .ok layout) :
    Addressed geometry limits capacity layout := by
  have hplaced := placed_of_tryNew hvalid.experts_le h
  have hwellFormed := hplaced.wellFormed
  have hcapacity := hplaced.slotCapacity
  have hinverse := @locationForFlatSlot_iff layout hwellFormed
  have hsame := @eq_of_locationForFlatSlot layout hwellFormed
  refine ⟨fun flat => ⟨fun hfound => ?_,fun hflat => ?_⟩,fun _ _ => hinverse,
    fun flat location hlocation => hplaced.inside (hinverse.mp hlocation),
    fun flat location other otherLocation hlocation hother hne hbank => ?_,fun bytes hbytes => ?_,
    fun flat location hlocation => ?_,
    fun flat location other otherLocation hlocation hother hpack => ?_⟩
  · obtain ⟨location,hlocation⟩ := hfound
    rw [← hcapacity]
    exact (hwellFormed.locationForFlatSlot_of_flat (hinverse.mp hlocation)).1
  · rw [← hcapacity] at hflat
    obtain ⟨location,-,hlocation,-⟩ := hwellFormed.locationForFlatSlot_ok hflat
    exact ⟨location,hlocation⟩
  · have hslots : location.slot ≠ otherLocation.slot := by
      intro hslot
      obtain ⟨bank,slot⟩ := location
      obtain ⟨otherBank,otherSlot⟩ := otherLocation
      cases hbank
      cases hslot
      exact hne (hsame hlocation hother)
    rcases Nat.lt_or_gt_of_ne hslots with hlt | hlt
    · exact .inl (Nat.mul_le_mul_right _ hlt)
    · exact .inr (Nat.mul_le_mul_right _ hlt)
  · obtain ⟨hpositive,hslots⟩ := slots_of_tryNew h
    have hstride := stride_le (hpositive.trans_le hslots)
    have hdevice := (hplaced.allowed hvalid hstride bytes hbytes).trans (Nat.min_le_left _ _)
    exact ⟨hdevice.trans (Nat.min_le_left _ _),hdevice.trans (Nat.min_le_right _ _)⟩
  · obtain ⟨packed,hpack⟩ := pack_of_locationForFlatSlot hwellFormed hlocation
    exact ⟨packed,hpack,ExpertLocation.pack_ne_unmapped hpack,unpack?_pack hpack⟩
  · obtain ⟨packed,hword⟩ := pack_of_locationForFlatSlot hwellFormed hlocation
    rw [hword] at hpack
    have hlocations := ExpertLocation.pack_injective hword hpack.symm
    subst hlocations
    exact hsame hlocation hother

end Addresses

/-- Planning within a budget takes the largest number of slots, up to the number of experts, whose
arena exists and fits the budget; and every arena addresses its slots exactly. -/
theorem expert_arena_exact {dModel dFf numExperts topK : ℕ} {geometry : ExpertGeometry}
    (hgeometry : ExpertGeometry.tryNew dModel dFf numExperts topK = .ok geometry) (limits : Limits) :
    (∀ budget plan, VramPlan.tryNew geometry budget limits = .ok plan →
      ArenaLayout.tryNew geometry plan.slotCapacity limits.toDeviceLimits = .ok plan.layout ∧
      IsGreatest {slots | slots ≤ geometry.numExperts ∧ ∃ layout total,
        ArenaLayout.tryNew geometry slots limits.toDeviceLimits = .ok layout ∧
        layout.totalAllocationBytes = .ok total ∧ total ≤ budget} plan.slotCapacity) ∧
    ∀ capacity layout, ArenaLayout.tryNew geometry capacity limits.toDeviceLimits = .ok layout →
      Addressed geometry limits.toDeviceLimits capacity layout := by
  have hvalid := ExpertGeometry.valid_of_tryNew hgeometry
  refine ⟨fun budget plan hplan => ?_,fun capacity layout h => addressed hvalid h⟩
  obtain ⟨hplanOf,⟨hexperts,hpositive,hslots,hbytes⟩,hgreatest⟩ := tryNew_isGreatest hvalid hplan
  have htotal := (placed_of_tryNew hvalid.experts_le hplanOf.layout).totalAllocationBytes_eq
    hvalid.experts_le
  refine ⟨hplanOf.layout,⟨hexperts,plan.layout,_,hplanOf.layout,htotal.1,hbytes⟩,?_⟩
  rintro slots ⟨hmost,layout,total,hlayout,hallocated,hfits⟩
  obtain ⟨hsome,hmany⟩ := slots_of_tryNew hlayout
  have hplaced := placed_of_tryNew hvalid.experts_le hlayout
  rw [(hplaced.totalAllocationBytes_eq hvalid.experts_le).1] at hallocated
  cases hallocated
  exact hgreatest ⟨hmost,hsome,hmany,hfits⟩

/-- A device whose banks hold two slots of the smallest geometry. -/
def smallLimits : Limits := ⟨⟨4000,4000⟩,8,32,64,64⟩

/-- The smallest geometry, with eight experts of which two are selected. -/
def eightExperts : ExpertGeometry := ⟨32,32,8,2,1728,1732,by decide⟩

theorem expert_arena_exact_five : ∃ plan,
    VramPlan.tryNew eightExperts 9000 smallLimits = .ok plan ∧ plan.slotCapacity = 5 ∧
    Addressed eightExperts smallLimits.toDeviceLimits 5 plan.layout := by
  have hgeometry : ExpertGeometry.tryNew 32 32 8 2 = .ok eightExperts := rfl
  have hplan : VramPlan.tryNew eightExperts 9000 smallLimits = .ok _ := rfl
  obtain ⟨hplans,haddressed⟩ := expert_arena_exact hgeometry smallLimits
  exact ⟨_,hplan,rfl,haddressed 5 _ (hplans 9000 _ hplan).1⟩

end MicroExpertRouter.Arena
