import MicroExpertRouter.Lib.Machine

/-! Placement of the Q4 expert arena of `backend/gpu_native.rs`: geometry of one expert slot,
the banks a slot capacity is split over, the flat slot numbering and the packed locations that
the mapping table stores. -/
namespace MicroExpertRouter.Arena

inductive BootstrapError
  | invalidDModel
  | invalidRouterExpertCount (numExperts : ℕ)
  | invalidRouterTopK (topK numExperts : ℕ)
  | routerGeometryOverflow (dModel numExperts topK : ℕ)
  | invalidExpertDff (dFf : ℕ)
  | expertQ4GeometryIncompatible (dModel dFf blockElements : ℕ)
  | expertGeometryOverflow (dModel dFf numExperts topK : ℕ)
  | invalidExpertSlotCapacity (capacity : ℕ)
  | expertArenaBankCapacity (bank requiredBytes maximumBytes : ℕ)
  | expertArenaBankLimit (requiredBanks maximumBanks : ℕ)
  | expertArenaBudgetOverflow
  | expertResidentCountExceedsCapacity (residents capacity : ℕ)
  | expertLocationUnrepresentable (bank slot : ℕ)
  | expertBankOutOfRange (bank activeBanks : ℕ)
  | expertSlotOutOfRange (bank slot capacity : ℕ)
  | expertLogicalIdOutOfRange (logicalId numExperts : ℕ)
  | invalidExpertLogicalGeneration (logicalGeneration : ℕ)
  | duplicateExpertLogicalId (logicalId : ℕ)
  | duplicateExpertPhysicalLocation (packed : ℕ)
  | invalidExpertSlotEpoch (slotEpoch : ℕ)
  | expertPayloadTooShort (logicalId expected actual : ℕ)
  | expertPayloadTrailingBytes (logicalId maximum actual : ℕ)
  | expertPayloadNonZeroPadding (logicalId : ℕ)
  | expertLayerMismatch (routerLayer expertLayer : ℕ)
  | expertInstallReservationLost
  | expertSlotEpochExhausted (bank slot : ℕ)
  | expertInstallTicketExhausted
  | expertDirectStagingUnavailable (bank offset bytes : ℕ)
  deriving DecidableEq, Repr

def maxRouterExperts : ℕ := 128
def maxRouterTopK : ℕ := 8
def maxExpertBanks : ℕ := 4
def expertLocationBankShift : ℕ := 30
def expertLocationSlotMask : ℕ := 2^30-1
def expertUnmapped : ℕ := u32Max
def expertSlotEpochBytes : ℕ := 4
def expertMappingEntryBytes : ℕ := 8
def q4BlockElems : ℕ := 32
def q4BlockBytes : ℕ := 18

/-- Geometry of one expert slot: an epoch word, the logical bytes, padding to a word. -/
structure ExpertGeometry where
  dModel : ℕ
  dFf : ℕ
  numExperts : ℕ
  topK : ℕ
  logicalExpertBytes : ℕ
  slotStrideBytes : ℕ
  fits : expertSlotEpochBytes+logicalExpertBytes ≤ slotStrideBytes

def checkRouterGeometry (dModel numExperts topK : ℕ) : Except BootstrapError Unit :=
  if dModel = 0 then .error .invalidDModel
  else if numExperts = 0 ∨ maxRouterExperts<numExperts then
    .error (.invalidRouterExpertCount numExperts)
  else if topK = 0 ∨ maxRouterTopK<topK ∨ numExperts<topK then
    .error (.invalidRouterTopK topK numExperts)
  else if u32Max<dModel ∨ u32Max<numExperts ∨ u32Max<topK ∨ u32Max<dModel*numExperts then
    .error (.routerGeometryOverflow dModel numExperts topK)
  else .ok ()

/-- Round up to a multiple of four: `(bytes + 3) & !3`. -/
def wordAligned (bytes : ℕ) : ℕ := (bytes+3)/4*4

lemma le_wordAligned (bytes : ℕ) : bytes ≤ wordAligned bytes := by
  unfold wordAligned
  omega

/-- Every product is bounded by `u32` in the end, so that the `usize` checks on the way and the
final `u32` check reject the same inputs. -/
def ExpertGeometry.tryNew (dModel dFf numExperts topK : ℕ) :
    Except BootstrapError ExpertGeometry := do
  checkRouterGeometry dModel numExperts topK
  if dFf = 0 then .error (.invalidExpertDff dFf)
  else if dModel % q4BlockElems ≠ 0 ∨ dFf % q4BlockElems ≠ 0 then
    .error (.expertQ4GeometryIncompatible dModel dFf q4BlockElems)
  else
    let projectionElements := dModel*dFf
    let blocksPerProjection := projectionElements/q4BlockElems
    let logicalExpertBytes := blocksPerProjection*3*q4BlockBytes
    let slotStrideBytes := wordAligned (expertSlotEpochBytes+logicalExpertBytes)
    if u32Max<dFf ∨ u32Max<projectionElements ∨ u32Max<logicalExpertBytes
        ∨ u32Max<slotStrideBytes ∨ u32Max<topK*dModel then
      .error (.expertGeometryOverflow dModel dFf numExperts topK)
    else
      .ok ⟨dModel,dFf,numExperts,topK,logicalExpertBytes,slotStrideBytes,le_wordAligned _⟩

structure ExpertLocation where
  bank : ℕ
  slot : ℕ
  deriving DecidableEq, Repr

def ExpertLocation.pack (self : ExpertLocation) : Except BootstrapError ℕ :=
  if maxExpertBanks ≤ self.bank ∨ expertLocationSlotMask<self.slot then
    .error (.expertLocationUnrepresentable self.bank self.slot)
  else
    let packed := self.bank*2^expertLocationBankShift+self.slot
    if packed = expertUnmapped then
      .error (.expertLocationUnrepresentable self.bank self.slot)
    else .ok packed

/-- The shader's reading of a packed location. -/
def ExpertLocation.unpack (packed : ℕ) : ExpertLocation :=
  ⟨packed/2^expertLocationBankShift,packed % 2^expertLocationBankShift⟩

lemma ExpertLocation.unpack_pack {location : ExpertLocation} {packed : ℕ}
    (h : location.pack = .ok packed) : ExpertLocation.unpack packed = location := by
  unfold pack at h
  dsimp only at h
  split_ifs at h with hrange hreserved
  obtain rfl := Except.ok.inj h
  obtain ⟨bank,slot⟩ := location
  simp only [expertLocationSlotMask, not_or, Nat.not_lt] at hrange
  simp only [unpack, expertLocationBankShift, ExpertLocation.mk.injEq]
  constructor <;> omega

lemma ExpertLocation.pack_ne_unmapped {location : ExpertLocation} {packed : ℕ}
    (h : location.pack = .ok packed) : packed ≠ expertUnmapped := by
  unfold pack at h
  dsimp only at h
  split_ifs at h with hrange hreserved
  obtain rfl := Except.ok.inj h
  exact hreserved

/-- Packed locations name one location. -/
lemma ExpertLocation.pack_injective {a b : ExpertLocation} {packed : ℕ}
    (ha : a.pack = .ok packed) (hb : b.pack = .ok packed) : a = b :=
  (unpack_pack ha).symm.trans (unpack_pack hb)

structure BankLayout where
  slotCapacity : ℕ
  allocationBytes : ℕ
  deriving DecidableEq, Repr

structure DeviceLimits where
  maxBufferSize : ℕ
  maxStorageBufferBindingSize : ℕ

structure ArenaLayout where
  slotCapacity : ℕ
  activeBanks : ℕ
  banks : List BankLayout
  mappingBytes : ℕ
  deriving DecidableEq, Repr

namespace ArenaLayout

/-- The bank loop: `count` banks from number `bank`, each as full as the rest allows. -/
def fillBanks (maximumSlots maximumBankBytes stride : ℕ) :
    ℕ → ℕ → ℕ → Except BootstrapError (List BankLayout)
  | 0, _, _ => .ok []
  | count+1, bank, remaining =>
    let slots := min remaining maximumSlots
    match checkedMul u64Max slots stride with
    | none => .error (.expertArenaBankCapacity bank u64Max maximumBankBytes)
    | some allocationBytes =>
      if maximumBankBytes<allocationBytes then
        .error (.expertArenaBankCapacity bank allocationBytes maximumBankBytes)
      else do
        return ⟨slots,allocationBytes⟩::
          (← fillBanks maximumSlots maximumBankBytes stride count (bank+1) (remaining-slots))

def tryNew (geometry : ExpertGeometry) (slotCapacity : ℕ) (limits : DeviceLimits) :
    Except BootstrapError ArenaLayout :=
  if slotCapacity = 0 then .error (.invalidExpertSlotCapacity slotCapacity)
  else
    let stride := geometry.slotStrideBytes
    let shaderAddressableBytes := u32Max/4*4
    let maximumBankBytes := min (min limits.maxBufferSize limits.maxStorageBufferBindingSize)
      shaderAddressableBytes
    let maximumSlots := min (maximumBankBytes/stride) expertLocationSlotMask
    if maximumSlots = 0 then .error (.expertArenaBankCapacity 0 stride maximumBankBytes)
    else
      let requiredBanks := (slotCapacity+maximumSlots-1)/maximumSlots
      if maxExpertBanks<requiredBanks then
        .error (.expertArenaBankLimit requiredBanks maxExpertBanks)
      else do
        let filled ← fillBanks maximumSlots maximumBankBytes stride requiredBanks 0 slotCapacity
        match checkedMul usizeMax geometry.numExperts expertMappingEntryBytes with
        | none => .error (.expertGeometryOverflow geometry.dModel geometry.dFf geometry.numExperts
            geometry.topK)
        | some mappingBytes =>
          return ⟨slotCapacity,requiredBanks,
            filled++List.replicate (maxExpertBanks-requiredBanks) ⟨0,4⟩,mappingBytes⟩

/-- The bank scan of `location_for_flat_slot`. -/
def locateFrom : ℕ → List BankLayout → ℕ → Option ExpertLocation
  | _, [], _ => none
  | bank, layout::banks, remaining =>
    if remaining<layout.slotCapacity then some ⟨bank,remaining⟩
    else locateFrom (bank+1) banks (remaining-layout.slotCapacity)

def locationForFlatSlot (self : ArenaLayout) (flatSlot : ℕ) :
    Except BootstrapError ExpertLocation :=
  let full := BootstrapError.expertResidentCountExceedsCapacity
    (saturatingAdd usizeMax flatSlot 1) self.slotCapacity
  if self.slotCapacity ≤ flatSlot then .error full
  else match locateFrom 0 (self.banks.take self.activeBanks) flatSlot with
  | none => .error full
  | some location => do
    let _ ← location.pack
    return location

def sumCapacities : ℕ → List BankLayout → Except BootstrapError ℕ
  | total, [] => .ok total
  | total, layout::banks =>
    match checkedAdd usizeMax total layout.slotCapacity with
    | none => .error .expertArenaBudgetOverflow
    | some total => sumCapacities total banks

def flatSlotForLocation (self : ArenaLayout) (location : ExpertLocation) :
    Except BootstrapError ℕ :=
  let capacity := ((self.banks.map BankLayout.slotCapacity)[location.bank]?).getD 0
  if self.activeBanks ≤ location.bank then
    .error (.expertBankOutOfRange location.bank self.activeBanks)
  else if capacity ≤ location.slot then
    .error (.expertSlotOutOfRange location.bank location.slot capacity)
  else do
    let base ← sumCapacities 0 (self.banks.take location.bank)
    match checkedAdd usizeMax base location.slot with
    | none => .error .expertArenaBudgetOverflow
    | some flatSlot => return flatSlot

/-- Total slots of a list of banks. -/
def totalSlots (banks : List BankLayout) : ℕ := (banks.map BankLayout.slotCapacity).sum

/-- What `tryNew` guarantees of a layout. -/
structure WellFormed (layout : ArenaLayout) : Prop where
  active : layout.activeBanks ≤ layout.banks.length
  bankCount : layout.banks.length = maxExpertBanks
  total : totalSlots (layout.banks.take layout.activeBanks) = layout.slotCapacity
  capacity : ∀ bank ∈ layout.banks, bank.slotCapacity ≤ expertLocationSlotMask

@[simp] lemma totalSlots_nil : totalSlots [] = 0 := rfl

@[simp] lemma totalSlots_cons (bank : BankLayout) (banks : List BankLayout) :
    totalSlots (bank::banks) = bank.slotCapacity+totalSlots banks := by
  simp [totalSlots]

@[simp] lemma totalSlots_append (first second : List BankLayout) :
    totalSlots (first++second) = totalSlots first+totalSlots second := by
  simp [totalSlots]

/-- The bank loop places every slot when the banks suffice. -/
lemma fillBanks_ok {maximumSlots maximumBankBytes stride count bank remaining : ℕ}
    {banks : List BankLayout} (hroom : remaining ≤ count*maximumSlots)
    (h : fillBanks maximumSlots maximumBankBytes stride count bank remaining = .ok banks) :
    banks.length = count ∧ totalSlots banks = remaining ∧
      ∀ layout ∈ banks, layout.slotCapacity ≤ maximumSlots := by
  induction count generalizing bank remaining banks with
  | zero =>
    obtain rfl := Except.ok.inj h
    simp only [Nat.zero_mul, Nat.le_zero] at hroom
    exact ⟨rfl,hroom.symm,by simp⟩
  | succ count ih =>
    unfold fillBanks at h
    dsimp only at h
    cases hmul : checkedMul u64Max (min remaining maximumSlots) stride with
    | none =>
      rw [hmul] at h
      cases h
    | some bytes =>
      rw [hmul] at h
      dsimp only at h
      split_ifs at h
      obtain ⟨rest,hrest,h⟩ := bind_eq_ok.mp h
      obtain rfl := Except.ok.inj h
      rw [Nat.succ_mul] at hroom
      obtain ⟨hlen,htotal,hcap⟩ := ih (by omega) hrest
      refine ⟨by rw [List.length_cons, hlen],?_,?_⟩
      · rw [totalSlots_cons, htotal]
        change min remaining maximumSlots+(remaining-min remaining maximumSlots) = remaining
        omega
      · intro layout hmem
        rcases List.mem_cons.mp hmem with rfl | hmem
        · exact Nat.min_le_right _ _
        · exact hcap layout hmem

theorem tryNew_wellFormed {geometry : ExpertGeometry} {slotCapacity : ℕ} {limits : DeviceLimits}
    {layout : ArenaLayout} (h : tryNew geometry slotCapacity limits = .ok layout) :
    layout.WellFormed ∧ layout.slotCapacity = slotCapacity := by
  unfold tryNew at h
  dsimp only at h
  split_ifs at h with hzero hslots hbanks
  set maximumBankBytes := min (min limits.maxBufferSize limits.maxStorageBufferBindingSize)
    (u32Max/4*4)
  set maximumSlots := min (maximumBankBytes/geometry.slotStrideBytes) expertLocationSlotMask
    with hmaximum
  obtain ⟨filled,hfilled,h⟩ := bind_eq_ok.mp h
  cases hmul : checkedMul usizeMax geometry.numExperts expertMappingEntryBytes with
  | none =>
    rw [hmul] at h
    cases h
  | some mappingBytes =>
    rw [hmul] at h
    obtain rfl := Except.ok.inj h
    have hroom : slotCapacity ≤ (slotCapacity+maximumSlots-1)/maximumSlots*maximumSlots := by
      have hpos : 0 < maximumSlots := Nat.pos_of_ne_zero hslots
      have hdiv : slotCapacity+maximumSlots-1<
          (slotCapacity+maximumSlots-1)/maximumSlots*maximumSlots+maximumSlots :=
        Nat.lt_div_mul_add hpos
      omega
    obtain ⟨hlen,htotal,hcap⟩ := fillBanks_ok hroom hfilled
    refine ⟨⟨?_,?_,?_,?_⟩,rfl⟩
    · simp only [List.length_append, hlen]
      omega
    · simp only [List.length_append, hlen, List.length_replicate]
      omega
    · simp only [← hlen, List.take_left]
      exact htotal
    · intro bank hmem
      rcases List.mem_append.mp hmem with hmem | hmem
      · have := hcap bank hmem
        omega
      · rw [List.eq_of_mem_replicate hmem]
        exact Nat.zero_le _

/-- The scan finds the bank whose slots cover the flat number. -/
lemma locateFrom_eq_some {bank flat : ℕ} {banks : List BankLayout} {location : ExpertLocation} :
    locateFrom bank banks flat = some location ↔
      ∃ i layout, banks[i]? = some layout ∧ location.bank = bank+i ∧
        location.slot<layout.slotCapacity ∧
        flat = totalSlots (banks.take i)+location.slot := by
  induction banks generalizing bank flat with
  | nil => simp [locateFrom]
  | cons first banks ih =>
    unfold locateFrom
    split_ifs with hlt
    · constructor
      · intro h
        obtain rfl := Option.some.inj h
        exact ⟨0,first,rfl,rfl,hlt,by simp⟩
      · rintro ⟨i,layout,hget,hbank,hslot,hflat⟩
        cases i with
        | zero =>
          obtain rfl := Option.some.inj hget
          obtain ⟨b,s⟩ := location
          simp only [Nat.add_zero, List.take_zero, totalSlots_nil, Nat.zero_add] at hbank hflat
          rw [hbank, hflat]
        | succ i =>
          rw [List.take_succ_cons, totalSlots_cons] at hflat
          omega
    · rw [ih]
      constructor
      · rintro ⟨i,layout,hget,hbank,hslot,hflat⟩
        refine ⟨i+1,layout,hget,by omega,hslot,?_⟩
        rw [List.take_succ_cons, totalSlots_cons]
        omega
      · rintro ⟨i,layout,hget,hbank,hslot,hflat⟩
        cases i with
        | zero =>
          obtain rfl := Option.some.inj hget
          simp only [List.take_zero, totalSlots_nil, Nat.zero_add] at hflat
          omega
        | succ i =>
          rw [List.take_succ_cons, totalSlots_cons] at hflat
          exact ⟨i,layout,hget,by omega,hslot,by omega⟩

lemma locateFrom_isSome {bank flat : ℕ} {banks : List BankLayout} (h : flat<totalSlots banks) :
    ∃ location, locateFrom bank banks flat = some location := by
  induction banks generalizing bank flat with
  | nil => simp at h
  | cons first banks ih =>
    unfold locateFrom
    split_ifs with hlt
    · exact ⟨_,rfl⟩
    · rw [totalSlots_cons] at h
      exact ih (by omega)

lemma sumCapacities_eq {total : ℕ} {banks : List BankLayout}
    (h : total+totalSlots banks ≤ usizeMax) :
    sumCapacities total banks = .ok (total+totalSlots banks) := by
  induction banks generalizing total with
  | nil => rfl
  | cons bank banks ih =>
    rw [totalSlots_cons] at h ⊢
    rw [sumCapacities, checkedAdd_of_le (by omega)]
    dsimp only
    rw [ih (by omega), Nat.add_assoc]

lemma getElem_take_active {layout : ArenaLayout} {i : ℕ} {bank : BankLayout}
    (hget : (layout.banks.take layout.activeBanks)[i]? = some bank) :
    i<layout.activeBanks ∧ layout.banks[i]? = some bank := by
  rw [List.getElem?_take] at hget
  split_ifs at hget with hi
  exact ⟨hi,hget⟩

/-- A location with a flat number lies in an active bank. -/
lemma located_of_flat {layout : ArenaLayout} {location : ExpertLocation} {flat : ℕ}
    (h : layout.flatSlotForLocation location = .ok flat) : location.bank<layout.activeBanks ∧
      ∃ bank, layout.banks[location.bank]? = some bank ∧ location.slot<bank.slotCapacity := by
  unfold flatSlotForLocation at h
  dsimp only at h
  split_ifs at h with hbank hslot
  refine ⟨Nat.not_le.mp hbank,?_⟩
  cases hget : layout.banks[location.bank]? with
  | none => simp [hget] at hslot
  | some bank =>
    refine ⟨bank,rfl,?_⟩
    simpa [hget] using hslot

namespace WellFormed
variable {layout : ArenaLayout} (h : layout.WellFormed)
include h

lemma totalSlots_le (i : ℕ) :
    totalSlots (layout.banks.take i) ≤ maxExpertBanks*expertLocationSlotMask := by
  have hbound : ∀ banks : List BankLayout, (∀ bank ∈ banks, bank.slotCapacity ≤
      expertLocationSlotMask) → totalSlots banks ≤ banks.length*expertLocationSlotMask := by
    intro banks hall
    induction banks with
    | nil => simp
    | cons bank banks ih =>
      obtain ⟨hbank,hrest⟩ := List.forall_mem_cons.mp hall
      have := ih hrest
      rw [totalSlots_cons, List.length_cons, Nat.succ_mul]
      omega
  have hlen : (layout.banks.take i).length ≤ maxExpertBanks := by
    rw [List.length_take, h.bankCount]
    exact Nat.min_le_right _ _
  exact (hbound _ fun bank hmem => h.capacity bank (List.mem_of_mem_take hmem)).trans
    (Nat.mul_le_mul_right _ hlen)

/-- Slots of an active bank can be packed. -/
lemma pack_ok {location : ExpertLocation} {bank : BankLayout}
    (hactive : location.bank<layout.activeBanks)
    (hget : layout.banks[location.bank]? = some bank) (hslot : location.slot<bank.slotCapacity) :
    ∃ packed, location.pack = .ok packed := by
  have hcap := h.capacity bank (List.mem_of_getElem? hget)
  have hbanks := h.active
  rw [h.bankCount] at hbanks
  unfold expertLocationSlotMask at hcap
  unfold maxExpertBanks at hbanks
  refine ⟨location.bank*2^expertLocationBankShift+location.slot,?_⟩
  unfold ExpertLocation.pack
  rw [if_neg (by unfold maxExpertBanks expertLocationSlotMask; omega)]
  dsimp only
  rw [if_neg (by unfold expertLocationBankShift expertUnmapped u32Max; omega)]

/-- The flat number of a slot of an active bank. -/
lemma flatSlotForLocation_eq {location : ExpertLocation} {bank : BankLayout}
    (hactive : location.bank<layout.activeBanks)
    (hget : layout.banks[location.bank]? = some bank) (hslot : location.slot<bank.slotCapacity) :
    layout.flatSlotForLocation location =
      .ok (totalSlots (layout.banks.take location.bank)+location.slot) := by
  have hcap := h.capacity bank (List.mem_of_getElem? hget)
  have hsum := h.totalSlots_le location.bank
  unfold maxExpertBanks expertLocationSlotMask at hsum
  unfold expertLocationSlotMask at hcap
  unfold flatSlotForLocation
  simp only [List.getElem?_map, hget, Option.map_some, Option.getD_some]
  rw [if_neg (by omega), if_neg (by omega), sumCapacities_eq (by unfold usizeMax; omega),
    Nat.zero_add]
  simp only [bind, Except.bind]
  rw [checkedAdd_of_le (by unfold usizeMax; omega)]
  rfl

/-- Every flat slot has a location, and the location leads back to it. -/
theorem locationForFlatSlot_ok {flat : ℕ} (hflat : flat<layout.slotCapacity) :
    ∃ location packed, layout.locationForFlatSlot flat = .ok location ∧
      location.pack = .ok packed ∧ layout.flatSlotForLocation location = .ok flat := by
  have hlt : flat<totalSlots (layout.banks.take layout.activeBanks) := by
    rw [h.total]
    exact hflat
  obtain ⟨location,hlocate⟩ : ∃ location,
      locateFrom 0 (layout.banks.take layout.activeBanks) flat = some location :=
    locateFrom_isSome hlt
  obtain ⟨i,bank,hget,hbank,hslot,hsum⟩ := locateFrom_eq_some.mp hlocate
  obtain ⟨hi,hget⟩ := getElem_take_active hget
  rw [Nat.zero_add] at hbank
  subst hbank
  obtain ⟨packed,hpack⟩ := h.pack_ok hi hget hslot
  refine ⟨location,packed,?_,hpack,?_⟩
  · unfold ArenaLayout.locationForFlatSlot
    dsimp only
    rw [if_neg (by omega), hlocate]
    simp only [hpack, bind, Except.bind]
    rfl
  · rw [h.flatSlotForLocation_eq hi hget hslot, hsum, List.take_take,
      Nat.min_eq_left (Nat.le_of_lt hi)]

/-- A location with a flat number is the location of that slot. -/
theorem locationForFlatSlot_of_flat {location : ExpertLocation} {flat : ℕ}
    (hflat : layout.flatSlotForLocation location = .ok flat) :
    flat<layout.slotCapacity ∧ layout.locationForFlatSlot flat = .ok location := by
  obtain ⟨hactive,bank,hget,hslot⟩ := located_of_flat hflat
  rw [h.flatSlotForLocation_eq hactive hget hslot] at hflat
  obtain rfl := Except.ok.inj hflat
  have hlocate : locateFrom 0 (layout.banks.take layout.activeBanks)
      (totalSlots (layout.banks.take location.bank)+location.slot) = some location := by
    rw [locateFrom_eq_some]
    refine ⟨location.bank,bank,?_,(Nat.zero_add _).symm,hslot,?_⟩
    · rw [List.getElem?_take, if_pos hactive, hget]
    · rw [List.take_take, Nat.min_eq_left (Nat.le_of_lt hactive)]
  have hcapacity : totalSlots (layout.banks.take location.bank)+location.slot<
      layout.slotCapacity := by
    -- The bank itself is one of the active banks that make up the capacity.
    have hsplit : layout.banks.take layout.activeBanks =
        layout.banks.take location.bank++
          (layout.banks.take layout.activeBanks).drop location.bank := by
      have hprefix := List.take_append_drop location.bank (layout.banks.take layout.activeBanks)
      rw [List.take_take, Nat.min_eq_left (Nat.le_of_lt hactive)] at hprefix
      exact hprefix.symm
    have hhead : (layout.banks.take layout.activeBanks).drop location.bank =
        bank::(layout.banks.take layout.activeBanks).drop (location.bank+1) := by
      apply List.drop_eq_getElem?_toList_append.trans
      rw [List.getElem?_take, if_pos hactive, hget]
      rfl
    have htotal := h.total
    rw [hsplit, hhead, totalSlots_append, totalSlots_cons] at htotal
    omega
  refine ⟨hcapacity,?_⟩
  obtain ⟨packed,hpack⟩ := h.pack_ok hactive hget hslot
  unfold ArenaLayout.locationForFlatSlot
  dsimp only
  rw [if_neg (by omega), hlocate]
  simp only [hpack, bind, Except.bind]
  rfl

end WellFormed

end ArenaLayout

end MicroExpertRouter.Arena
