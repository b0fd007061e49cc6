import MicroExpertRouter.Arena.Invariant

/-! Setup of an expert arena: the bytes of one physical slot, and `validate_q4_expert_uploads`,
which turns a list of placements into the initial tables. -/
namespace MicroExpertRouter.Arena

/-- `u32::to_le_bytes`. -/
def leBytes (word : ℕ) : List UInt8 :=
  [UInt8.ofNat word,UInt8.ofNat (word/256),UInt8.ofNat (word/256^2),UInt8.ofNat (word/256^3)]

/-- The little-endian word at the head of a slot, as the shader reads it. -/
def headWord : List UInt8 → ℕ
  | a::b::c::d::_ => a.toNat+256*(b.toNat+256*(c.toNat+256*d.toNat))
  | _ => 0

/-- Complete contents of a physical slot: epoch word, logical bytes, zero padding. -/
def slotBytes (geometry : ExpertGeometry) (slotEpoch : ℕ) (payload : List UInt8) : List UInt8 :=
  leBytes slotEpoch++payload.take geometry.logicalExpertBytes++
    List.replicate (geometry.slotStrideBytes-expertSlotEpochBytes-geometry.logicalExpertBytes) 0

/-- The logical bytes the shader executes. -/
def slotPayload (geometry : ExpertGeometry) (bytes : List UInt8) : List UInt8 :=
  (bytes.drop expertSlotEpochBytes).take geometry.logicalExpertBytes

lemma headWord_slotBytes (geometry : ExpertGeometry) {slotEpoch : ℕ} (h : slotEpoch ≤ u32Max)
    (payload : List UInt8) : headWord (slotBytes geometry slotEpoch payload) = slotEpoch := by
  unfold u32Max at h
  simp only [slotBytes, leBytes, List.cons_append, headWord, UInt8.toNat_ofNat']
  omega

lemma slotPayload_slotBytes (geometry : ExpertGeometry) (slotEpoch : ℕ) {payload : List UInt8}
    (h : geometry.logicalExpertBytes ≤ payload.length) :
    slotPayload geometry (slotBytes geometry slotEpoch payload) =
      payload.take geometry.logicalExpertBytes := by
  have hlen : (payload.take geometry.logicalExpertBytes).length = geometry.logicalExpertBytes := by
    rw [List.length_take, Nat.min_eq_left h]
  rw [slotPayload, slotBytes, List.append_assoc]
  change ((payload.take geometry.logicalExpertBytes++_).take _) = _
  rw [List.take_append_of_le_length (by rw [hlen]), List.take_of_length_le (by rw [hlen])]

structure Upload where
  logicalId : ℕ
  logicalGeneration : ℕ
  location : ExpertLocation
  payload : List UInt8

structure PreparedUploads where
  mapping : ℕ → MappingEntry
  physicalSlots : List (ExpertLocation × List UInt8)
  state : ArenaState

/-- `GpuNativeQ4ExpertArenaState::new`; the locations of all flat slots must exist. -/
def ArenaState.new (layout : ArenaLayout) : Except BootstrapError ArenaState := do
  let locations ← (List.range layout.slotCapacity).mapM layout.locationForFlatSlot
  return ⟨layout.slotCapacity,
    fun flat => ⟨(locations[flat]?).getD ⟨0,0⟩,0,false,.free⟩,fun _ => none,fun _ => none,1,{}⟩

/-- The range checks of one upload, in order. -/
def checkUpload (geometry : ExpertGeometry) (layout : ArenaLayout) (mapping : ℕ → MappingEntry)
    (upload : Upload) : Except BootstrapError Unit :=
  let capacity := ((layout.banks.map BankLayout.slotCapacity)[upload.location.bank]?).getD 0
  if geometry.numExperts ≤ upload.logicalId then
    .error (.expertLogicalIdOutOfRange upload.logicalId geometry.numExperts)
  else if upload.logicalGeneration = 0 then
    .error (.invalidExpertLogicalGeneration upload.logicalGeneration)
  else if mapping upload.logicalId ≠ .unmapped then
    .error (.duplicateExpertLogicalId upload.logicalId)
  else if layout.activeBanks ≤ upload.location.bank then
    .error (.expertBankOutOfRange upload.location.bank layout.activeBanks)
  else if capacity ≤ upload.location.slot then
    .error (.expertSlotOutOfRange upload.location.bank upload.location.slot capacity)
  else .ok ()

/-- The residency an upload becomes; the first epoch of every slot is one. -/
def Upload.residency (upload : Upload) (layerIndex : ℕ) : ExpertResidency :=
  ⟨⟨layerIndex,upload.logicalId,upload.logicalGeneration⟩,upload.location,1⟩

/-- The table updates of one accepted upload. -/
def placeUpload (layerIndex : ℕ) (state : ArenaState) (upload : Upload) (flatSlot : ℕ) :
    ArenaState :=
  let placed := state.setSlot flatSlot { state.slots flatSlot with
    lastEpoch := 1
    everInstalled := true
    owner := .resident (upload.residency layerIndex) }
  { placed.setLogical upload.logicalId (some flatSlot) with
    latestGenerations := Function.update placed.latestGenerations upload.logicalId
      (some upload.logicalGeneration) }

/-- One turn of the upload loop, over the packed locations used so far. -/
def acceptUpload (layerIndex : ℕ) (geometry : ExpertGeometry) (layout : ArenaLayout)
    (physical : Finset ℕ) (prepared : PreparedUploads) (upload : Upload) :
    Except BootstrapError (Finset ℕ × PreparedUploads) := do
  checkUpload geometry layout prepared.mapping upload
  let packed ← upload.location.pack
  if packed ∈ physical then .error (.duplicateExpertPhysicalLocation packed)
  else
    let flatSlot ← layout.flatSlotForLocation upload.location
    let entry ← (upload.residency layerIndex).mappingEntry
    ExpertArena.checkSlot geometry upload.logicalId 1 upload.payload
    return (insert packed physical,
      { mapping := Function.update prepared.mapping upload.logicalId entry
        physicalSlots :=
          prepared.physicalSlots++[(upload.location,slotBytes geometry 1 upload.payload)]
        state := placeUpload layerIndex prepared.state upload flatSlot })

def acceptUploads (layerIndex : ℕ) (geometry : ExpertGeometry) (layout : ArenaLayout) :
    Finset ℕ → PreparedUploads → List Upload → Except BootstrapError PreparedUploads
  | _, prepared, [] => .ok prepared
  | physical, prepared, upload::uploads => do
    let (physical,prepared) ← acceptUpload layerIndex geometry layout physical prepared upload
    acceptUploads layerIndex geometry layout physical prepared uploads

def validateUploads (layerIndex : ℕ) (geometry : ExpertGeometry) (layout : ArenaLayout)
    (uploads : List Upload) : Except BootstrapError PreparedUploads :=
  if layout.slotCapacity<uploads.length then
    .error (.expertResidentCountExceedsCapacity uploads.length layout.slotCapacity)
  else do
    let state ← ArenaState.new layout
    let prepared ← acceptUploads layerIndex geometry layout ∅ ⟨fun _ => .unmapped,[],state⟩ uploads
    return { prepared with state := { prepared.state with counters := { prepared.state.counters with
      expertSlotInstalls := uploads.length
      expertMappingPublications := uploads.length } } }

/-- In a fresh arena every slot has its own location and no owner. -/
lemma ArenaState.new_ok {layout : ArenaLayout} {state : ArenaState}
    (h : ArenaState.new layout = .ok state) :
    state.slotCapacity = layout.slotCapacity ∧
      (∀ s, s<layout.slotCapacity → layout.locationForFlatSlot s = .ok (state.slots s).location) ∧
      (∀ s, (state.slots s).owner = .free ∧ (state.slots s).lastEpoch = 0) ∧
      state.logicalSlots = (fun _ => none) ∧ state.latestGenerations = (fun _ => none) ∧
      state.nextInstallTicket = 1 ∧ state.counters = {} := by
  obtain ⟨locations,hlocations,h⟩ := bind_eq_ok.mp h
  obtain rfl := Except.ok.inj h
  refine ⟨rfl,fun s hs => ?_,fun s => ⟨rfl,rfl⟩,rfl,rfl,rfl,rfl⟩
  obtain ⟨location,hget,hlocation⟩ := getElem_mapM_ok hlocations s (List.getElem?_range hs)
  rw [hlocation]
  change _ = Except.ok ((locations[s]?).getD ⟨0,0⟩)
  rw [hget]
  rfl

lemma ExpertResidency.mappingEntry_eq_ok {residency : ExpertResidency} {entry : MappingEntry}
    (h : residency.mappingEntry = .ok entry) :
    residency.location.pack = .ok entry.location ∧ entry.slotEpoch = residency.slotEpoch ∧
      residency.slotEpoch ≠ 0 := by
  unfold mappingEntry MappingEntry.tryNew at h
  split_ifs at h with hzero
  obtain ⟨packed,hpack,h⟩ := bind_eq_ok.mp h
  obtain rfl := Except.ok.inj h
  exact ⟨hpack,rfl,hzero⟩

lemma ExpertResidency.mappingEntry_ne_unmapped {residency : ExpertResidency} {entry : MappingEntry}
    (h : residency.mappingEntry = .ok entry) : entry ≠ .unmapped := by
  intro heq
  have hpack := (mappingEntry_eq_ok h).1
  rw [heq] at hpack
  exact ExpertLocation.pack_ne_unmapped hpack rfl

lemma checkSlot_payload {geometry : ExpertGeometry} {logicalId slotEpoch : ℕ} {payload : List UInt8}
    (h : ExpertArena.checkSlot geometry logicalId slotEpoch payload = .ok ()) :
    geometry.logicalExpertBytes ≤ payload.length := by
  obtain ⟨_,hvalid,_⟩ := bind_eq_ok.mp h
  unfold ExpertArena.validatePayload at hvalid
  dsimp only at hvalid
  split_ifs at hvalid with hshort
  exact Nat.not_lt.mp hshort

/-- The tables after some uploads. -/
structure Loaded (layerIndex : ℕ) (geometry : ExpertGeometry) (layout : ArenaLayout)
    (physical : Finset ℕ) (prepared : PreparedUploads) (uploads : List Upload) : Prop where
  tables : Tables ⟨layerIndex,geometry,prepared.state,prepared.mapping⟩
  capacity : prepared.state.slotCapacity = layout.slotCapacity
  locations : ∀ s, s<layout.slotCapacity →
    layout.locationForFlatSlot s = .ok (prepared.state.slots s).location
  vacant : ∀ s packed, s<layout.slotCapacity →
    (prepared.state.slots s).location.pack = .ok packed → packed ∉ physical →
    prepared.state.owner s = .free
  used : ∀ upload ∈ uploads, ∃ packed ∈ physical, upload.location.pack = .ok packed
  placed : ∀ upload ∈ uploads, ∃ s, s<layout.slotCapacity ∧
    (prepared.state.slots s).location = upload.location ∧
    prepared.state.owner s = .resident (upload.residency layerIndex)
  owners : ∀ s, prepared.state.owner s = .free ∨
    ∃ upload ∈ uploads, prepared.state.owner s = .resident (upload.residency layerIndex)
  bytes : prepared.physicalSlots =
    uploads.map (fun upload => (upload.location,slotBytes geometry 1 upload.payload))
  residents : prepared.state.residentSlots.card = uploads.length
  payloads : ∀ upload ∈ uploads, geometry.logicalExpertBytes ≤ upload.payload.length
  places : (uploads.map Upload.location).Nodup
  experts : (uploads.map Upload.logicalId).Nodup
  unpublished : prepared.state.counters.expertMappingUnpublications = 0

lemma Loaded.new {layerIndex : ℕ} {geometry : ExpertGeometry} {layout : ArenaLayout}
    {state : ArenaState} (hlayout : layout.WellFormed) (h : ArenaState.new layout = .ok state) :
    Loaded layerIndex geometry layout ∅ ⟨fun _ => .unmapped,[],state⟩ [] := by
  obtain ⟨hcapacity,hlocations,hfree,hlogical,hlatest,-,hcounters⟩ := ArenaState.new_ok h
  have howner : ∀ s, state.owner s = .free := fun s => (hfree s).1
  have hnokey : ∀ s key, ¬ (state.owner s).key? = some key := by
    intro s key hkey
    rw [howner s] at hkey
    cases hkey
  have hpacks : ∀ s, s<layout.slotCapacity → ∃ packed, (state.slots s).location.pack = .ok packed ∧
      layout.flatSlotForLocation (state.slots s).location = .ok s := by
    intro s hs
    obtain ⟨location,packed,hlocation,hpack,hflat⟩ := hlayout.locationForFlatSlot_ok hs
    rw [hlocations s hs] at hlocation
    obtain rfl := Except.ok.inj hlocation
    exact ⟨packed,hpack,hflat⟩
  refine {
    tables := ⟨fun s => ?_,fun e s => ?_,fun s key hkey => absurd hkey (hnokey s key),
      fun s residency hres => ?_,fun _ _ => rfl,fun s hs => ?_,fun s t hs ht heq => ?_⟩
    capacity := hcapacity
    locations := hlocations
    vacant := fun s _ _ _ _ => howner s
    used := nofun
    placed := nofun
    owners := fun s => .inl (howner s)
    bytes := rfl
    residents := ?_
    payloads := nofun
    places := List.nodup_nil
    experts := List.nodup_nil
    unpublished := by rw [hcounters] }
  · have hkey : ∀ key, ¬ (state.slots s).owner.key? = some key := hnokey s
    refine ⟨fun key hk => absurd hk (hkey key),fun key hk => absurd hk (hkey key),
      fun key hk => absurd hk (hkey key),?_,?_,?_,?_⟩
    · intro epoch hepoch
      rw [(hfree s).1] at hepoch
      cases hepoch
    · intro epoch hepoch
      rw [(hfree s).1] at hepoch
      cases hepoch
    · intro residency hres
      rw [(hfree s).1] at hres
      cases hres
    · change (state.slots s).lastEpoch ≤ u32Max
      rw [(hfree s).2]
      exact Nat.zero_le _
  · rw [hlogical]
    exact ⟨nofun,fun ⟨key,hkey,_⟩ => absurd hkey (hnokey s key)⟩
  · change state.owner s = _ at hres
    rw [howner s] at hres
    cases hres
  · obtain ⟨packed,hpack,-⟩ := hpacks s (hcapacity ▸ hs)
    exact ⟨packed,hpack⟩
  · obtain ⟨_,-,hflat⟩ := hpacks s (hcapacity ▸ hs)
    obtain ⟨_,-,hflat'⟩ := hpacks t (hcapacity ▸ ht)
    change (state.slots s).location = (state.slots t).location at heq
    rw [heq, hflat'] at hflat
    exact (Except.ok.inj hflat).symm
  · have hempty : state.residentSlots = ∅ := by
      ext s
      rw [ArenaState.mem_residentSlots, howner s]
      simp [SlotOwner.isResident]
    rw [hempty]
    rfl

/-- What an accepted upload has passed. -/
lemma acceptUpload_ok {layerIndex : ℕ} {geometry : ExpertGeometry} {layout : ArenaLayout}
    {physical : Finset ℕ} {prepared : PreparedUploads} {upload : Upload}
    {next : Finset ℕ × PreparedUploads}
    (h : acceptUpload layerIndex geometry layout physical prepared upload = .ok next) :
    ∃ packed flat entry, upload.logicalId<geometry.numExperts ∧
      prepared.mapping upload.logicalId = .unmapped ∧
      upload.location.pack = .ok packed ∧ packed ∉ physical ∧
      layout.flatSlotForLocation upload.location = .ok flat ∧
      (upload.residency layerIndex).mappingEntry = .ok entry ∧
      geometry.logicalExpertBytes ≤ upload.payload.length ∧
      next = (insert packed physical,
        ⟨Function.update prepared.mapping upload.logicalId entry,
          prepared.physicalSlots++[(upload.location,slotBytes geometry 1 upload.payload)],
          placeUpload layerIndex prepared.state upload flat⟩) := by
  obtain ⟨_,hcheck,h⟩ := bind_eq_ok.mp h
  obtain ⟨packed,hpack,h⟩ := bind_eq_ok.mp h
  split_ifs at h with hdup
  obtain ⟨flat,hflat,h⟩ := bind_eq_ok.mp h
  obtain ⟨entry,hentry,h⟩ := bind_eq_ok.mp h
  obtain ⟨_,hslot,h⟩ := bind_eq_ok.mp h
  obtain rfl := Except.ok.inj h
  unfold checkUpload at hcheck
  dsimp only at hcheck
  split_ifs at hcheck with hrange hgeneration hmapped
  exact ⟨packed,flat,entry,Nat.not_le.mp hrange,not_not.mp hmapped,hpack,hdup,hflat,hentry,
    checkSlot_payload hslot,rfl⟩

namespace Loaded
variable {layerIndex : ℕ} {geometry : ExpertGeometry} {layout : ArenaLayout}
  {physical : Finset ℕ} {prepared : PreparedUploads} {uploads : List Upload}

/-- An expert that is not mapped has no slot: nothing installs during setup. -/
lemma logical_none (h : Loaded layerIndex geometry layout physical prepared uploads) {e : ℕ}
    (hmapping : prepared.mapping e = .unmapped) : prepared.state.logicalSlots e = none := by
  cases hlogical : prepared.state.logicalSlots e with
  | none => rfl
  | some s =>
    obtain ⟨key,hkey,he⟩ := (h.tables.logical e s).mp hlogical
    change (prepared.state.owner s).key? = some key at hkey
    rcases h.owners s with hfree | ⟨upload,-,hres⟩
    · rw [hfree] at hkey
      cases hkey
    · rw [hres] at hkey
      cases hkey
      have hentry := h.tables.mapped s _ hres
      rw [he] at hentry
      exact absurd hmapping (ExpertResidency.mappingEntry_ne_unmapped hentry)

lemma slots_placeUpload (state : ArenaState) (upload : Upload) (flat : ℕ) :
    (placeUpload layerIndex state upload flat).slots flat = { state.slots flat with
      lastEpoch := 1
      everInstalled := true
      owner := .resident (upload.residency layerIndex) } :=
  Function.update_self _ _ _

lemma owner_placeUpload (state : ArenaState) (upload : Upload) (flat s : ℕ) :
    (placeUpload layerIndex state upload flat).owner s =
      if s = flat then .resident (upload.residency layerIndex) else state.owner s := by
  split_ifs with hs
  · rw [hs, ArenaState.owner, slots_placeUpload]
  · have hslot : (placeUpload layerIndex state upload flat).slots s = state.slots s :=
      Function.update_of_ne hs _ _
    rw [ArenaState.owner, hslot, ArenaState.owner]

lemma location_placeUpload (state : ArenaState) (upload : Upload) (flat s : ℕ) :
    ((placeUpload layerIndex state upload flat).slots s).location = (state.slots s).location := by
  by_cases hs : s = flat
  · rw [hs, slots_placeUpload]
  · have hslot : (placeUpload layerIndex state upload flat).slots s = state.slots s :=
      Function.update_of_ne hs _ _
    rw [hslot]

/-- Placing an upload at a free slot keeps the tables. -/
lemma tables_place (h : Loaded layerIndex geometry layout physical prepared uploads)
    {upload : Upload} {flat : ℕ} {entry : MappingEntry}
    (hrange : upload.logicalId<geometry.numExperts) (hflat : flat<prepared.state.slotCapacity)
    (hfree : prepared.state.owner flat = .free)
    (hlocation : (prepared.state.slots flat).location = upload.location)
    (hnone : prepared.state.logicalSlots upload.logicalId = none)
    (hentry : (upload.residency layerIndex).mappingEntry = .ok entry) :
    Tables ⟨layerIndex,geometry,placeUpload layerIndex prepared.state upload flat,
      Function.update prepared.mapping upload.logicalId entry⟩ := by
  set arena : ExpertArena := ⟨layerIndex,geometry,prepared.state,prepared.mapping⟩ with harena
  have howner : (placeUpload layerIndex prepared.state upload flat).owner flat =
      .resident (upload.residency layerIndex) := by
    rw [owner_placeUpload, if_pos rfl]
  have hlogical : (placeUpload layerIndex prepared.state upload flat).logicalSlots
      upload.logicalId = some flat := Function.update_self _ _ _
  have hraised := @Tables.raise arena (upload.residency layerIndex).key h.tables hnone
  refine @Tables.frame _ _ flat upload.logicalId hraised
    ⟨rfl,rfl,rfl,rfl,fun s hs => ?_,?_,fun x hx => ?_,fun x hx => ?_⟩ ⟨?_,?_⟩ ⟨?_,?_⟩ hflat ?_ ?_ ?_ ?_
  · exact Function.update_of_ne hs _ _
  · exact location_placeUpload prepared.state upload flat flat
  · exact Function.update_of_ne hx _ _
  · exact Function.update_of_ne hx _ _
  · intro key hkey
    change (prepared.state.owner flat).key? = some key at hkey
    rw [hfree] at hkey
    cases hkey
  · intro s hs
    change prepared.state.logicalSlots upload.logicalId = some s at hs
    rw [hnone] at hs
    cases hs
  · intro key hkey
    rw [howner] at hkey
    cases hkey
    rfl
  · intro s hs
    rw [hlogical] at hs
    exact (Option.some.inj hs).symm
  · rw [slots_placeUpload]
    refine ⟨?_,?_,?_,?_,?_,?_,?_⟩
    · rintro _ ⟨⟩
      rfl
    · rintro _ ⟨⟩
      exact hrange
    · rintro _ ⟨⟩
      exact Function.update_self _ _ _
    · rintro _ ⟨⟩
      rfl
    · rintro _ ⟨⟩
      exact Nat.one_pos
    · rintro _ ⟨⟩
      exact hlocation.symm
    · change 1 ≤ u32Max
      decide
  · rw [howner]
    exact ⟨fun _ => ⟨_,rfl⟩,fun _ => hlogical⟩
  · intro residency hres
    rw [howner] at hres
    cases hres
    change _ = Except.ok (Function.update prepared.mapping upload.logicalId entry upload.logicalId)
    rw [Function.update_self]
    exact hentry
  · intro hnores
    exact absurd howner (hnores _)

/-- One more slot has a resident. -/
lemma card_residentSlots_place (h : Loaded layerIndex geometry layout physical prepared uploads)
    {upload : Upload} {flat : ℕ} (hflat : flat<layout.slotCapacity)
    (hfree : prepared.state.owner flat = .free) :
    (placeUpload layerIndex prepared.state upload flat).residentSlots.card = uploads.length+1 := by
  have hnot : flat ∉ prepared.state.residentSlots := by
    rw [ArenaState.mem_residentSlots, hfree]
    simp [SlotOwner.isResident]
  have hslots : (placeUpload layerIndex prepared.state upload flat).residentSlots =
      insert flat prepared.state.residentSlots := by
    ext s
    rw [Finset.mem_insert, ArenaState.mem_residentSlots, ArenaState.mem_residentSlots,
      owner_placeUpload]
    have hcapacity : (placeUpload layerIndex prepared.state upload flat).slotCapacity =
        prepared.state.slotCapacity := rfl
    rw [hcapacity]
    by_cases hs : s = flat
    · rw [if_pos hs, hs, h.capacity]
      simpa [SlotOwner.isResident] using hflat
    · rw [if_neg hs]
      simp [hs]
  rw [hslots, Finset.card_insert_of_notMem hnot, h.residents]

/-- A fresh place is none of the earlier uploads. -/
lemma location_ne (h : Loaded layerIndex geometry layout physical prepared uploads)
    {upload : Upload} {packed : ℕ} (hpack : upload.location.pack = .ok packed)
    (hfresh : packed ∉ physical) : ∀ old ∈ uploads, old.location ≠ upload.location := by
  intro old hold heq
  obtain ⟨other,hother,hpacked⟩ := h.used old hold
  rw [heq, hpack] at hpacked
  exact hfresh (Except.ok.inj hpacked ▸ hother)

/-- An earlier upload still owns a slot, so its expert is mapped. -/
lemma logicalId_ne (h : Loaded layerIndex geometry layout physical prepared uploads)
    {upload : Upload} (hnone : prepared.state.logicalSlots upload.logicalId = none) :
    ∀ old ∈ uploads, old.logicalId ≠ upload.logicalId := by
  intro old hold heq
  obtain ⟨s,-,-,hres⟩ := h.placed old hold
  have hsome := (h.tables.logical old.logicalId s).mpr
    ⟨(old.residency layerIndex).key,by change (prepared.state.owner s).key? = _; rw [hres]; rfl,rfl⟩
  change prepared.state.logicalSlots old.logicalId = some s at hsome
  rw [heq, hnone] at hsome
  cases hsome

lemma nodup_map_concat {β : Type*} {f : Upload → β} {upload : Upload} (h : (uploads.map f).Nodup)
    (hne : ∀ old ∈ uploads, f old ≠ f upload) : ((uploads++[upload]).map f).Nodup := by
  rw [List.map_append, List.nodup_append]
  refine ⟨h,by simp,?_⟩
  rintro x hmem _ hlast rfl
  obtain ⟨old,hold,rfl⟩ := List.mem_map.mp hmem
  rw [List.map_singleton, List.mem_singleton] at hlast
  exact hne old hold hlast

theorem accept (h : Loaded layerIndex geometry layout physical prepared uploads)
    (hlayout : layout.WellFormed) {upload : Upload} {next : Finset ℕ × PreparedUploads}
    (hnext : acceptUpload layerIndex geometry layout physical prepared upload = .ok next) :
    Loaded layerIndex geometry layout next.1 next.2 (uploads++[upload]) := by
  obtain ⟨packed,flat,entry,hrange,hmapping,hpack,hfresh,hflat,hentry,hpayload,rfl⟩ :=
    acceptUpload_ok hnext
  obtain ⟨hlt,hlocate⟩ := hlayout.locationForFlatSlot_of_flat hflat
  have hlocation : (prepared.state.slots flat).location = upload.location := by
    rw [h.locations flat hlt] at hlocate
    exact Except.ok.inj hlocate
  have hfree : prepared.state.owner flat = .free :=
    h.vacant flat packed hlt (hlocation ▸ hpack) hfresh
  have hnone := h.logical_none hmapping
  have hkept : ∀ old ∈ uploads, ∀ s, prepared.state.owner s = .resident (old.residency layerIndex) →
      s ≠ flat := by
    rintro old - s hres rfl
    rw [hfree] at hres
    cases hres
  refine {
    tables := h.tables_place hrange (h.capacity ▸ hlt) hfree hlocation hnone hentry
    capacity := h.capacity
    locations := fun s hs => ?_
    vacant := fun s other hs hother hnot => ?_
    used := fun old hmem => ?_
    placed := fun old hmem => ?_
    owners := fun s => ?_
    bytes := ?_
    residents := ?_
    payloads := fun old hmem => ?_
    places := nodup_map_concat h.places (h.location_ne hpack hfresh)
    experts := nodup_map_concat h.experts (h.logicalId_ne hnone)
    unpublished := h.unpublished }
  · rw [location_placeUpload]
    exact h.locations s hs
  · dsimp only at hother hnot ⊢
    rw [location_placeUpload] at hother
    rw [Finset.mem_insert, not_or] at hnot
    have hs' : s ≠ flat := by
      rintro rfl
      rw [hlocation, hpack] at hother
      exact hnot.1 (Except.ok.inj hother).symm
    rw [owner_placeUpload, if_neg hs']
    exact h.vacant s other hs hother hnot.2
  · rcases List.mem_append.mp hmem with hmem | hmem
    · obtain ⟨other,hother,hpacked⟩ := h.used old hmem
      exact ⟨other,Finset.mem_insert_of_mem hother,hpacked⟩
    · rw [List.mem_singleton.mp hmem]
      exact ⟨packed,Finset.mem_insert_self _ _,hpack⟩
  · rcases List.mem_append.mp hmem with hmem | hmem
    · obtain ⟨s,hs,hloc,hres⟩ := h.placed old hmem
      refine ⟨s,hs,?_,?_⟩
      · rw [location_placeUpload]
        exact hloc
      · rw [owner_placeUpload, if_neg (hkept old hmem s hres)]
        exact hres
    · rw [List.mem_singleton.mp hmem]
      refine ⟨flat,hlt,?_,?_⟩
      · rw [location_placeUpload]
        exact hlocation
      · rw [owner_placeUpload, if_pos rfl]
  · by_cases hs : s = flat
    · refine .inr ⟨upload,by simp,?_⟩
      rw [owner_placeUpload, if_pos hs]
    · rw [owner_placeUpload, if_neg hs]
      rcases h.owners s with hnobody | ⟨old,hmem,hres⟩
      · exact .inl hnobody
      · exact .inr ⟨old,List.mem_append_left _ hmem,hres⟩
  · rw [h.bytes, List.map_append]
    rfl
  · rw [List.length_append]
    exact h.card_residentSlots_place hlt hfree
  · rcases List.mem_append.mp hmem with hmem | hmem
    · exact h.payloads old hmem
    · rw [List.mem_singleton.mp hmem]
      exact hpayload

theorem accepts (h : Loaded layerIndex geometry layout physical prepared uploads)
    (hlayout : layout.WellFormed) {rest : List Upload} {result : PreparedUploads}
    (hresult : acceptUploads layerIndex geometry layout physical prepared rest = .ok result) :
    ∃ used, Loaded layerIndex geometry layout used result (uploads++rest) := by
  induction rest generalizing physical prepared uploads with
  | nil =>
    obtain rfl := Except.ok.inj hresult
    rw [List.append_nil]
    exact ⟨physical,h⟩
  | cons upload rest ih =>
    obtain ⟨next,hnext,hresult⟩ := bind_eq_ok.mp hresult
    obtain ⟨used,hused⟩ := ih (h.accept hlayout hnext) hresult
    rw [List.append_assoc] at hused
    exact ⟨used,hused⟩

end Loaded

/-- Accepted uploads give agreeing tables, one resident slot for each upload. -/
theorem validateUploads_loaded {layerIndex : ℕ} {geometry : ExpertGeometry} {layout : ArenaLayout}
    {uploads : List Upload} {prepared : PreparedUploads} (hlayout : layout.WellFormed)
    (h : validateUploads layerIndex geometry layout uploads = .ok prepared) :
    (∃ used, Loaded layerIndex geometry layout used prepared uploads) ∧
      prepared.state.Counted := by
  unfold validateUploads at h
  split_ifs at h
  obtain ⟨state,hstate,h⟩ := bind_eq_ok.mp h
  obtain ⟨result,hresult,h⟩ := bind_eq_ok.mp h
  obtain rfl := Except.ok.inj h
  obtain ⟨used,hloaded⟩ := (Loaded.new hlayout hstate).accepts hlayout hresult
  rw [List.nil_append] at hloaded
  have htables := hloaded.tables
  refine ⟨⟨used,{ hloaded with
    tables := ⟨fun s => (htables.slot s).congr rfl rfl rfl,htables.logical,htables.capacity,
      htables.mapped,htables.unmapped,htables.packs,htables.distinct⟩ }⟩,fun _ => ?_⟩
  change uploads.length = result.state.counters.expertMappingUnpublications+
    result.state.residentSlots.card
  rw [hloaded.unpublished, hloaded.residents, Nat.zero_add]

end MicroExpertRouter.Arena
