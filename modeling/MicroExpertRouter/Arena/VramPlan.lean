import MicroExpertRouter.Arena.Layout
import MicroExpertRouter.Lib.Search

/-! The allocation that the expert arena of one layer takes, and the plans of
`backend/gpu_native.rs` for it: one for a given number of slots, and the largest within a budget. -/
namespace MicroExpertRouter.Arena

/-- The `wgpu::Limits` that planning reads. -/
structure Limits extends DeviceLimits where
  maxStorageBuffersPerShaderStage : ℕ
  maxPushConstantSize : ℕ
  maxComputeWorkgroupSizeX : ℕ
  maxComputeInvocationsPerWorkgroup : ℕ

/-- The errors of planning; `bootstrap` holds those of the arena layout. -/
inductive PlanError
  | expertStorageBuffersUnsupported (required maximum : ℕ)
  | expertPushConstantsUnsupported (required maximum : ℕ)
  | expertWorkgroupUnsupported (required maxSizeX maxInvocations : ℕ)
  | expertArenaBudgetTooSmall (requestedBytes minimumBytes : ℕ)
  | bootstrap (error : BootstrapError)
  deriving DecidableEq, Repr

def expertRequiredStorageBuffers : ℕ := 8
def expertPushConstantBytes : ℕ := 32
def expertWorkgroupSize : ℕ := 64

/-- `validate_q4_expert_pipeline_limits`. -/
def validateExpertPipelineLimits (limits : Limits) : Except PlanError Unit :=
  if limits.maxStorageBuffersPerShaderStage<expertRequiredStorageBuffers then
    .error (.expertStorageBuffersUnsupported expertRequiredStorageBuffers
      limits.maxStorageBuffersPerShaderStage)
  else if limits.maxPushConstantSize<expertPushConstantBytes then
    .error (.expertPushConstantsUnsupported expertPushConstantBytes limits.maxPushConstantSize)
  else if limits.maxComputeWorkgroupSizeX<expertWorkgroupSize ∨
      limits.maxComputeInvocationsPerWorkgroup<expertWorkgroupSize then
    .error (.expertWorkgroupUnsupported expertWorkgroupSize limits.maxComputeWorkgroupSizeX
      limits.maxComputeInvocationsPerWorkgroup)
  else .ok ()

/-- `unpack`: the reserved word names no location. -/
def ExpertLocation.unpack? (packed : ℕ) : Option ExpertLocation :=
  if packed ≠ expertUnmapped then
    some ⟨packed/2^expertLocationBankShift,packed % (expertLocationSlotMask+1)⟩
  else none

namespace ArenaLayout

def sumAllocations : ℕ → List BankLayout → Except BootstrapError ℕ
  | total, [] => .ok total
  | total, bank::banks =>
    match checkedAdd u64Max total bank.allocationBytes with
    | none => .error .expertArenaBudgetOverflow
    | some total => sumAllocations total banks

def physicalBankAllocationBytes (self : ArenaLayout) : Except BootstrapError ℕ :=
  sumAllocations 0 self.banks

def activeBankAllocationBytes (self : ArenaLayout) : Except BootstrapError ℕ :=
  sumAllocations 0 (self.banks.take self.activeBanks)

def totalAllocationBytes (self : ArenaLayout) : Except BootstrapError ℕ := do
  let physical ← self.physicalBankAllocationBytes
  match checkedAdd u64Max physical self.mappingBytes with
  | none => .error .expertArenaBudgetOverflow
  | some total => return total

end ArenaLayout

structure VramPlan where
  geometry : ExpertGeometry
  requestedExpertBudgetBytes : ℕ
  layout : ArenaLayout
  activeBankAllocationBytes : ℕ
  physicalBankAllocationBytes : ℕ
  totalArenaAllocationBytes : ℕ

namespace VramPlan

/-- `?` on a layout error. -/
def lift {α : Type} (value : Except BootstrapError α) : Except PlanError α :=
  value.mapError .bootstrap

def slotCapacity (self : VramPlan) : ℕ := self.layout.slotCapacity

def tryForSlotCapacity (geometry : ExpertGeometry) (slotCapacity : ℕ) (limits : Limits) :
    Except PlanError VramPlan := do
  validateExpertPipelineLimits limits
  if geometry.numExperts<slotCapacity then
    .error (.bootstrap (.expertResidentCountExceedsCapacity slotCapacity geometry.numExperts))
  else
    let layout ← lift (ArenaLayout.tryNew geometry slotCapacity limits.toDeviceLimits)
    let active ← lift layout.activeBankAllocationBytes
    let physical ← lift layout.physicalBankAllocationBytes
    let total ← lift layout.totalAllocationBytes
    return ⟨geometry,total,layout,active,physical,total⟩

/-- Whether the layout of some number of slots exists and fits the budget. -/
def fitsBudget (geometry : ExpertGeometry) (expertBudgetBytes : ℕ) (limits : Limits)
    (slotCapacity : ℕ) : Bool :=
  match (ArenaLayout.tryNew geometry slotCapacity limits.toDeviceLimits).bind
    ArenaLayout.totalAllocationBytes with
  | .ok bytes => decide (bytes ≤ expertBudgetBytes)
  | .error _ => false

def tryNew (geometry : ExpertGeometry) (expertBudgetBytes : ℕ) (limits : Limits) :
    Except PlanError VramPlan := do
  validateExpertPipelineLimits limits
  let one ← lift (ArenaLayout.tryNew geometry 1 limits.toDeviceLimits)
  let minimumBytes ← lift one.totalAllocationBytes
  if expertBudgetBytes < minimumBytes then
    .error (.expertArenaBudgetTooSmall expertBudgetBytes minimumBytes)
  else
    let stride := geometry.slotStrideBytes
    let maximumBankBytes := min (min limits.maxBufferSize limits.maxStorageBufferBindingSize)
      (u32Max/4*4)
    let maximumSlotsPerBank := min (maximumBankBytes/stride) expertLocationSlotMask
    match checkedMul u64Max maximumSlotsPerBank maxExpertBanks with
    | none => .error (.bootstrap .expertArenaBudgetOverflow)
    | some slots =>
      let maximumSlots := min slots geometry.numExperts
      let low ← Search.last (fun midpoint => .ok (fitsBudget geometry expertBudgetBytes limits midpoint))
        maximumSlots 1 maximumSlots
      let layout ← lift (ArenaLayout.tryNew geometry low limits.toDeviceLimits)
      let active ← lift layout.activeBankAllocationBytes
      let physical ← lift layout.physicalBankAllocationBytes
      let total ← lift layout.totalAllocationBytes
      return ⟨geometry,expertBudgetBytes,layout,active,physical,total⟩

end VramPlan

section Placement
variable (geometry : ExpertGeometry) (limits : DeviceLimits)

/-- The largest bank the device and the shader allow. -/
def maximumBankBytes : ℕ :=
  min (min limits.maxBufferSize limits.maxStorageBufferBindingSize) (u32Max/4*4)

def maximumSlotsPerBank : ℕ :=
  min (maximumBankBytes limits/geometry.slotStrideBytes) expertLocationSlotMask

/-- The device limit on the slots of one layer. -/
def maximumSlots : ℕ := maxExpertBanks*maximumSlotsPerBank geometry limits

def requiredBanks (slots : ℕ) : ℕ :=
  (slots+maximumSlotsPerBank geometry limits-1)/maximumSlotsPerBank geometry limits

/-- What the arena of some number of slots allocates: the slots, a word for each idle bank and the
mapping. -/
def arenaBytes (slots : ℕ) : ℕ :=
  slots*geometry.slotStrideBytes+4*(maxExpertBanks-requiredBanks geometry limits slots)+
    geometry.numExperts*expertMappingEntryBytes

/-- What one more slot costs. The first slot of a bank replaces its word. -/
def slotCost (slots : ℕ) : ℕ :=
  if maximumSlotsPerBank geometry limits ∣ slots then geometry.slotStrideBytes-4
  else geometry.slotStrideBytes

variable {geometry limits}

lemma stride_ge : 4 ≤ geometry.slotStrideBytes := by
  have hfits := geometry.fits
  unfold expertSlotEpochBytes at hfits
  omega

lemma bank_fits : maximumSlotsPerBank geometry limits*geometry.slotStrideBytes ≤
    maximumBankBytes limits :=
  (Nat.mul_le_mul_right _ (Nat.min_le_left _ _)).trans (Nat.div_mul_le_self _ _)

lemma maximumBankBytes_le : maximumBankBytes limits ≤ u32Max :=
  (Nat.min_le_right _ _).trans (Nat.div_mul_le_self _ _)

lemma requiredBanks_succ (slots : ℕ) (hslots : 0 < maximumSlotsPerBank geometry limits) :
    requiredBanks geometry limits (slots+1) = requiredBanks geometry limits slots+
      if maximumSlotsPerBank geometry limits ∣ slots then 1 else 0 := by
  unfold requiredBanks
  generalize maximumSlotsPerBank geometry limits = maximum at *
  have hnext : slots+1+maximum-1 = slots+maximum := by omega
  rw [hnext, Nat.add_div_right _ hslots]
  have hdivision := Nat.div_add_mod slots maximum
  have hrest := Nat.mod_lt slots hslots
  split_ifs with hdvd
  · rw [Nat.mod_eq_zero_of_dvd hdvd, Nat.add_zero] at hdivision
    have hbanks : (slots+maximum-1)/maximum = slots/maximum := by
      rw [Nat.div_eq_of_lt_le]
      · rw [Nat.mul_comm]
        omega
      · rw [Nat.succ_mul, Nat.mul_comm]
        omega
    rw [hbanks]
  · have hpositive : 0<slots % maximum := Nat.pos_of_ne_zero fun hzero =>
      hdvd (Nat.dvd_of_mod_eq_zero hzero)
    symm
    rw [Nat.add_zero]
    apply Nat.div_eq_of_lt_le
    · rw [Nat.succ_mul, Nat.mul_comm]
      omega
    · rw [Nat.succ_mul, Nat.succ_mul, Nat.mul_comm]
      omega

lemma requiredBanks_le_iff {slots : ℕ} (hslots : 0 < maximumSlotsPerBank geometry limits) :
    requiredBanks geometry limits slots ≤ maxExpertBanks ↔ slots ≤ maximumSlots geometry limits := by
  unfold requiredBanks maximumSlots
  generalize maximumSlotsPerBank geometry limits = maximum at *
  rw [← Nat.lt_succ_iff, Nat.div_lt_iff_lt_mul hslots, Nat.succ_mul]
  omega

lemma arenaBytes_succ {slots : ℕ} (hslots : slots < maximumSlots geometry limits) :
    arenaBytes geometry limits (slots+1) =
      arenaBytes geometry limits slots+slotCost geometry limits slots := by
  have hpositive : 0 < maximumSlotsPerBank geometry limits := by
    unfold maximumSlots at hslots
    exact Nat.pos_of_mul_pos_left (Nat.zero_lt_of_lt hslots)
  have hbanks := (requiredBanks_le_iff hpositive).mpr hslots
  have hstride := @stride_ge geometry
  have hsucc := requiredBanks_succ slots hpositive
  unfold arenaBytes slotCost
  rw [hsucc] at hbanks ⊢
  rw [Nat.succ_mul]
  split_ifs at hbanks ⊢ <;> omega

lemma arenaBytes_mono {few many : ℕ} (hle : few ≤ many)
    (hmany : many ≤ maximumSlots geometry limits) :
    arenaBytes geometry limits few ≤ arenaBytes geometry limits many := by
  induction many, hle using Nat.le_induction with
  | base => exact le_rfl
  | succ many hle ih =>
    rw [arenaBytes_succ hmany]
    exact (ih (Nat.le_of_succ_le hmany)).trans (Nat.le_add_right _ _)

lemma fillBanks_exists {maximumSlots maximumBytes stride : ℕ}
    (hbank : maximumSlots*stride ≤ maximumBytes) (hmaximum : maximumBytes ≤ u32Max)
    (count bank remaining : ℕ) : ∃ banks,
    ArenaLayout.fillBanks maximumSlots maximumBytes stride count bank remaining = .ok banks ∧
      ∀ layout ∈ banks, layout.allocationBytes = layout.slotCapacity*stride ∧
        layout.allocationBytes ≤ maximumBytes := by
  induction count generalizing bank remaining with
  | zero => exact ⟨[],rfl,nofun⟩
  | succ count ih =>
    obtain ⟨banks,hbanks,hsizes⟩ := ih (bank+1) (remaining-min remaining maximumSlots)
    have hsize : min remaining maximumSlots*stride ≤ maximumBytes :=
      (Nat.mul_le_mul_right _ (Nat.min_le_right _ _)).trans hbank
    refine ⟨⟨min remaining maximumSlots,min remaining maximumSlots*stride⟩::banks,?_,
      List.forall_mem_cons.mpr ⟨⟨rfl,hsize⟩,hsizes⟩⟩
    have hwidth : min remaining maximumSlots*stride ≤ u64Max := by
      unfold u64Max
      unfold u32Max at hmaximum
      omega
    unfold ArenaLayout.fillBanks
    dsimp only
    rw [checkedMul_of_le hwidth]
    dsimp only
    rw [if_neg (Nat.not_lt.mpr hsize), hbanks]
    rfl

/-- A layout of some number of slots: full active banks first, idle ones of a word each. -/
structure Placed (geometry : ExpertGeometry) (limits : DeviceLimits) (slots : ℕ)
    (layout : ArenaLayout) : Prop where
  wellFormed : layout.WellFormed
  slotCapacity : layout.slotCapacity = slots
  activeBanks : layout.activeBanks = requiredBanks geometry limits slots
  mapping : layout.mappingBytes = geometry.numExperts*expertMappingEntryBytes
  active : ∀ bank ∈ layout.banks.take layout.activeBanks,
    bank.allocationBytes = bank.slotCapacity*geometry.slotStrideBytes ∧
      bank.allocationBytes ≤ maximumBankBytes limits
  idle : layout.banks.drop layout.activeBanks =
    List.replicate (maxExpertBanks-layout.activeBanks) ⟨0,4⟩

/-- A layout exists for every positive number of slots that the device allows. -/
theorem tryNew_placed {slots : ℕ} (hpositive : 0<slots)
    (hslots : slots ≤ maximumSlots geometry limits) (hexperts : geometry.numExperts ≤ maxRouterExperts) :
    ∃ layout, ArenaLayout.tryNew geometry slots limits = .ok layout ∧
      Placed geometry limits slots layout := by
  have hbank : 0 < maximumSlotsPerBank geometry limits := by
    unfold maximumSlots at hslots
    exact Nat.pos_of_mul_pos_left (hpositive.trans_le hslots)
  have hbanks := (requiredBanks_le_iff hbank).mpr hslots
  obtain ⟨filled,hfilled,hsizes⟩ := fillBanks_exists bank_fits maximumBankBytes_le
    (requiredBanks geometry limits slots) 0 slots
  have hmapping : geometry.numExperts*expertMappingEntryBytes ≤ usizeMax := by
    unfold maxRouterExperts at hexperts
    unfold expertMappingEntryBytes usizeMax
    omega
  have hok : ArenaLayout.tryNew geometry slots limits = .ok ⟨slots,requiredBanks geometry limits slots,
      filled++List.replicate (maxExpertBanks-requiredBanks geometry limits slots) ⟨0,4⟩,
      geometry.numExperts*expertMappingEntryBytes⟩ := by
    unfold ArenaLayout.tryNew
    dsimp only
    rw [if_neg hpositive.ne']
    change (if maximumSlotsPerBank geometry limits = 0 then _ else
      if maxExpertBanks<requiredBanks geometry limits slots then _ else
        (ArenaLayout.fillBanks (maximumSlotsPerBank geometry limits) (maximumBankBytes limits)
          geometry.slotStrideBytes (requiredBanks geometry limits slots) 0 slots).bind _) = _
    rw [if_neg hbank.ne', if_neg (Nat.not_lt.mpr hbanks), hfilled]
    change (match checkedMul usizeMax geometry.numExperts expertMappingEntryBytes with
      | none => _
      | some mappingBytes => _) = _
    rw [checkedMul_of_le hmapping]
    rfl
  obtain ⟨hwellFormed,hcapacity⟩ := ArenaLayout.tryNew_wellFormed hok
  have hlength : filled.length = requiredBanks geometry limits slots := by
    have hcount := hwellFormed.bankCount
    simp only [List.length_append, List.length_replicate] at hcount
    omega
  refine ⟨_,hok,hwellFormed,hcapacity,rfl,rfl,?_,?_⟩
  · dsimp only
    rw [← hlength, List.take_left]
    exact hsizes
  · dsimp only
    rw [← hlength, List.drop_left]

/-- A number of slots with a layout is positive and within the device limit. -/
lemma slots_of_tryNew {slots : ℕ} {layout : ArenaLayout}
    (h : ArenaLayout.tryNew geometry slots limits = .ok layout) :
    0<slots ∧ slots ≤ maximumSlots geometry limits := by
  unfold ArenaLayout.tryNew at h
  dsimp only at h
  split_ifs at h with hzero hslots hbanks
  refine ⟨Nat.pos_of_ne_zero hzero,?_⟩
  rw [← requiredBanks_le_iff (Nat.pos_of_ne_zero hslots)]
  exact Nat.not_lt.mp hbanks

lemma placed_of_tryNew {slots : ℕ} {layout : ArenaLayout}
    (hexperts : geometry.numExperts ≤ maxRouterExperts)
    (h : ArenaLayout.tryNew geometry slots limits = .ok layout) :
    Placed geometry limits slots layout := by
  obtain ⟨hpositive,hslots⟩ := slots_of_tryNew h
  obtain ⟨other,hother,hplaced⟩ := tryNew_placed hpositive hslots hexperts
  rw [h] at hother
  cases hother
  exact hplaced

/-- The bytes of a list of banks. -/
def totalBytes (banks : List BankLayout) : ℕ := (banks.map BankLayout.allocationBytes).sum

@[simp] lemma totalBytes_cons (bank : BankLayout) (banks : List BankLayout) :
    totalBytes (bank::banks) = bank.allocationBytes+totalBytes banks := by
  simp [totalBytes]

lemma totalBytes_append (first second : List BankLayout) :
    totalBytes (first++second) = totalBytes first+totalBytes second := by
  simp [totalBytes]

lemma totalBytes_filled {banks : List BankLayout} {stride : ℕ}
    (h : ∀ bank ∈ banks, bank.allocationBytes = bank.slotCapacity*stride) :
    totalBytes banks = ArenaLayout.totalSlots banks*stride := by
  induction banks with
  | nil => simp [totalBytes]
  | cons bank banks ih =>
    obtain ⟨hbank,hbanks⟩ := List.forall_mem_cons.mp h
    rw [totalBytes_cons, ArenaLayout.totalSlots_cons, hbank, ih hbanks, Nat.add_mul]

lemma sumAllocations_eq {total : ℕ} {banks : List BankLayout}
    (h : total+totalBytes banks ≤ u64Max) :
    ArenaLayout.sumAllocations total banks = .ok (total+totalBytes banks) := by
  induction banks generalizing total with
  | nil => rfl
  | cons bank banks ih =>
    rw [totalBytes_cons] at h ⊢
    unfold ArenaLayout.sumAllocations
    rw [checkedAdd_of_le (by omega)]
    dsimp only
    rw [ih (by omega), Nat.add_assoc]

namespace Placed
variable {slots : ℕ} {layout : ArenaLayout} (h : Placed geometry limits slots layout)
include h

lemma totalBytes_active : totalBytes (layout.banks.take layout.activeBanks) =
    slots*geometry.slotStrideBytes := by
  rw [totalBytes_filled fun bank hbank => (h.active bank hbank).1, h.wellFormed.total,
    h.slotCapacity]

lemma totalBytes_banks : totalBytes layout.banks = slots*geometry.slotStrideBytes+
    4*(maxExpertBanks-requiredBanks geometry limits slots) := by
  rw [← List.take_append_drop layout.activeBanks layout.banks, totalBytes_append,
    h.totalBytes_active, h.idle, h.activeBanks]
  simp [totalBytes, Nat.mul_comm]

/-- The slots of one layer fit in the address space of the shader, bank by bank. -/
lemma slots_le : slots*geometry.slotStrideBytes ≤ maxExpertBanks*u32Max := by
  have hactive : ∀ banks : List BankLayout, (∀ bank ∈ banks, bank.allocationBytes ≤ u32Max) →
      totalBytes banks ≤ banks.length*u32Max := by
    intro banks hbanks
    induction banks with
    | nil => exact Nat.zero_le _
    | cons bank banks ih =>
      obtain ⟨hbank,hbanks⟩ := List.forall_mem_cons.mp hbanks
      rw [totalBytes_cons, List.length_cons, Nat.succ_mul]
      have := ih hbanks
      omega
  rw [← h.totalBytes_active]
  refine (hactive _ fun bank hbank => (h.active bank hbank).2.trans maximumBankBytes_le).trans ?_
  refine Nat.mul_le_mul_right _ ?_
  rw [List.length_take, h.wellFormed.bankCount]
  exact Nat.min_le_right _ _

/-- The total of a layout is what its slots need. -/
theorem totalAllocationBytes_eq (hexperts : geometry.numExperts ≤ maxRouterExperts) :
    layout.totalAllocationBytes = .ok (arenaBytes geometry limits slots) ∧
    layout.physicalBankAllocationBytes = .ok (totalBytes layout.banks) ∧
    layout.activeBankAllocationBytes = .ok (slots*geometry.slotStrideBytes) := by
  have hslots := h.slots_le
  have hbanks := h.totalBytes_banks
  unfold maxExpertBanks u32Max at hslots
  unfold maxExpertBanks at hbanks
  unfold maxRouterExperts at hexperts
  have hphysical : layout.physicalBankAllocationBytes = .ok (totalBytes layout.banks) := by
    unfold ArenaLayout.physicalBankAllocationBytes
    rw [sumAllocations_eq (by unfold u64Max; omega), Nat.zero_add]
  refine ⟨?_,hphysical,?_⟩
  · have hsum : totalBytes layout.banks+layout.mappingBytes ≤ u64Max := by
      rw [h.mapping]
      unfold expertMappingEntryBytes u64Max
      omega
    unfold ArenaLayout.totalAllocationBytes
    rw [hphysical]
    change (match checkedAdd u64Max (totalBytes layout.banks) layout.mappingBytes with
      | none => _
      | some total => _) = _
    rw [checkedAdd_of_le hsum, h.totalBytes_banks, h.mapping]
    rfl
  · unfold ArenaLayout.activeBankAllocationBytes
    rw [sumAllocations_eq (by rw [h.totalBytes_active]; unfold u64Max; omega), Nat.zero_add,
      h.totalBytes_active]

end Placed

end Placement

end MicroExpertRouter.Arena
