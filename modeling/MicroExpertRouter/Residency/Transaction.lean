import MicroExpertRouter.Residency.Manager

/-! The steps of a residency transaction. Between its steps a transaction holds permits; the
slots that install are exactly the slots of these permits, and the recency list holds exactly
the residents. -/
namespace MicroExpertRouter.Residency
open Arena

/-- The permits a transaction holds account for every installing slot. -/
structure Held (arena : ExpertArena) (permits : List InstallPermit) : Prop where
  tables : Tables arena
  current : ∀ permit ∈ permits, permit.reservationCurrent arena.state
  permitOk : ∀ permit ∈ permits, PermitOk arena permit
  installing : ∀ s key slotEpoch ticket,
    arena.state.owner s = .installing key slotEpoch ticket → ∃ permit ∈ permits, permit.flatSlot = s
  apart : (permits.map InstallPermit.flatSlot).Nodup

/-- The parts of an arena that no operation changes. -/
structure SameFrame (a b : ExpertArena) : Prop where
  layer : b.layerIndex = a.layerIndex
  geometry : b.geometry = a.geometry
  capacity : b.state.slotCapacity = a.state.slotCapacity
  location : ∀ s, (b.state.slots s).location = (a.state.slots s).location

namespace SameFrame
variable {a b c : ExpertArena}

lemma refl (a : ExpertArena) : SameFrame a a := ⟨rfl,rfl,rfl,fun _ => rfl⟩

lemma trans (h : SameFrame a b) (h' : SameFrame b c) : SameFrame a c :=
  ⟨h'.layer.trans h.layer,h'.geometry.trans h.geometry,h'.capacity.trans h.capacity,
    fun s => (h'.location s).trans (h.location s)⟩

lemma symm (h : SameFrame a b) : SameFrame b a :=
  ⟨h.layer.symm,h.geometry.symm,h.capacity.symm,fun s => (h.location s).symm⟩

lemma of_frame {flat e : ℕ} (h : Frame a b flat e) : SameFrame a b :=
  ⟨h.layer,h.geometry,h.capacity,h.locations⟩

end SameFrame

/-- The same residents in the same slots. -/
structure SameResidents (a b : ExpertArena) : Prop extends SameFrame a b where
  owner : ∀ s residency, b.state.owner s = .resident residency ↔ a.state.owner s = .resident residency

namespace SameResidents
variable {a b c : ExpertArena}

lemma refl (a : ExpertArena) : SameResidents a a :=
  ⟨.refl a,fun _ _ => Iff.rfl⟩

lemma trans (h : SameResidents a b) (h' : SameResidents b c) : SameResidents a c :=
  ⟨h.toSameFrame.trans h'.toSameFrame,fun s r => (h'.owner s r).trans (h.owner s r)⟩

lemma of_sameSlots (h : ExpertArena.SameSlots a b) : SameResidents a b := by
  refine ⟨⟨h.layer,h.geometry,h.capacity,fun s => ?_⟩,fun s residency => ?_⟩
  · rw [h.slots]
  · rw [ArenaState.owner, h.slots, ArenaState.owner]

/-- A slot that is resident neither before nor after leaves the residents alone. -/
lemma of_frame {flat e : ℕ} (h : Frame a b flat e)
    (hbefore : ∀ residency, a.state.owner flat ≠ .resident residency)
    (hafter : ∀ residency, b.state.owner flat ≠ .resident residency) : SameResidents a b := by
  refine ⟨.of_frame h,fun s residency => ?_⟩
  by_cases hs : s = flat
  · subst hs
    exact iff_of_false (hafter residency) (hbefore residency)
  · rw [h.owner hs]

end SameResidents

namespace Held
variable {arena : ExpertArena} {permit : InstallPermit} {permits rest : List InstallPermit}

lemma perm (h : Held arena permits) (hperm : permits.Perm rest) : Held arena rest := by
  refine ⟨h.tables,fun permit hmem => h.current permit (hperm.mem_iff.mpr hmem),
    fun permit hmem => h.permitOk permit (hperm.mem_iff.mpr hmem),
    fun s key slotEpoch ticket howner => ?_,(hperm.map _).nodup_iff.mp h.apart⟩
  obtain ⟨permit,hmem,hflat⟩ := h.installing s key slotEpoch ticket howner
  exact ⟨permit,hperm.mem_iff.mp hmem,hflat⟩

lemma sameSlots (h : Held arena permits) {b : ExpertArena} (hsame : ExpertArena.SameSlots arena b) :
    Held b permits := by
  have htables := h.tables.moves hsame.releases.moves
  have howner : ∀ s, b.state.owner s = arena.state.owner s := by
    intro s
    rw [ArenaState.owner, hsame.slots, ArenaState.owner]
  refine ⟨htables,fun permit hmem => htables.current ?_,
    fun permit hmem => (h.permitOk permit hmem).moves hsame.releases.moves,
    fun s key slotEpoch ticket hs => ?_,h.apart⟩
  · rw [howner]
    exact (h.current permit hmem).2.2
  · rw [howner] at hs
    exact h.installing s key slotEpoch ticket hs

/-- A step at the slot of one permit leaves the other permits current. -/
lemma keep (h : Held arena (permit::rest)) {b : ExpertArena} {e : ℕ}
    (hframe : Frame arena b permit.flatSlot e) (htables : Tables b) {other : InstallPermit}
    (hmem : other ∈ rest) : other.reservationCurrent b.state := by
  have hne : other.flatSlot ≠ permit.flatSlot := by
    have happart := h.apart
    rw [List.map_cons, List.nodup_cons] at happart
    intro heq
    exact happart.1 (heq ▸ List.mem_map_of_mem hmem)
  apply htables.current
  rw [hframe.owner hne]
  exact (h.current other (List.mem_cons_of_mem _ hmem)).2.2

lemma cancel (h : Held arena (permit::rest)) :
    Held (arena.cancelInstall permit.flatSlot permit.installTicket) rest ∧
      SameResidents arena (arena.cancelInstall permit.flatSlot permit.installTicket) := by
  have hcurrent := h.current permit List.mem_cons_self
  have howner := hcurrent.2.2
  have hframe := arena.cancelSlot_frame permit.flatSlot permit.key.expertId
  have hrelease := Release.cancel howner
  have htables := h.tables.released hrelease
  have hfree : (arena.cancelSlot permit.flatSlot permit.key.expertId).state.owner
      permit.flatSlot = .free := by
    change ((arena.state.release permit.flatSlot permit.key.expertId).slots permit.flatSlot).owner = _
    rw [arena.slots_release]
  rw [ExpertArena.cancelInstall_eq hcurrent]
  refine ⟨⟨htables,fun other hmem => h.keep hframe htables hmem,
    fun other hmem => (h.permitOk other (List.mem_cons_of_mem _ hmem)).released hrelease,
    fun s key slotEpoch ticket hs => ?_,?_⟩,SameResidents.of_frame hframe ?_ ?_⟩
  · have hne : s ≠ permit.flatSlot := by
      rintro rfl
      rw [hfree] at hs
      cases hs
    rw [hframe.owner hne] at hs
    obtain ⟨other,hmem,hflat⟩ := h.installing s key slotEpoch ticket hs
    rcases List.mem_cons.mp hmem with rfl | hmem
    · exact absurd hflat.symm hne
    · exact ⟨other,hmem,hflat⟩
  · have happart := h.apart
    rw [List.map_cons, List.nodup_cons] at happart
    exact happart.2
  · intro residency hres
    rw [howner] at hres
    cases hres
  · intro residency hres
    rw [hfree] at hres
    cases hres

lemma drop {dropped : List InstallPermit} (h : Held arena (dropped++rest)) :
    Held (dropPermits arena dropped) rest ∧ SameResidents arena (dropPermits arena dropped) := by
  induction dropped generalizing arena with
  | nil => exact ⟨h,.refl arena⟩
  | cons permit dropped ih =>
    have hcons : Held arena (permit::(dropped++rest)) := h
    obtain ⟨hheld,hsame⟩ := hcons.cancel
    obtain ⟨hheld',hsame'⟩ := ih hheld
    exact ⟨hheld',hsame.trans hsame'⟩

lemma dropAll (h : Held arena permits) :
    Held (dropPermits arena permits) [] ∧ SameResidents arena (dropPermits arena permits) := by
  apply drop
  rw [List.append_nil]
  exact h

/-- A granted reservation joins the permits. -/
lemma occupy (h : Held arena permits) {flat : ℕ} {key : ExpertKey}
    (hguard : Reservable arena flat key) :
    Held (arena.occupy flat key) (arena.permitFor flat key::permits) ∧
      SameResidents arena (arena.occupy flat key) := by
  have hframe := arena.occupy_frame flat key
  have htables := h.tables.occupy hguard
  have howner : (arena.occupy flat key).state.owner flat =
      .installing key ((arena.state.slots flat).lastEpoch+1) arena.state.nextInstallTicket := by
    rw [ArenaState.owner, arena.slots_occupy]
  have hnot : ∀ permit ∈ permits, permit.flatSlot ≠ flat := by
    rintro permit hmem rfl
    have hcurrent := (h.current permit hmem).2.2
    rw [hguard.free] at hcurrent
    cases hcurrent
  refine ⟨⟨htables,fun permit hmem => ?_,fun permit hmem => ?_,
    fun s installing slotEpoch ticket hs => ?_,?_⟩,SameResidents.of_frame hframe ?_ ?_⟩
  · rcases List.mem_cons.mp hmem with rfl | hmem
    · exact htables.current howner
    · apply htables.current
      rw [hframe.owner (hnot permit hmem)]
      exact (h.current permit hmem).2.2
  · rcases List.mem_cons.mp hmem with rfl | hmem
    · exact permitFor_ok hguard
    · exact (h.permitOk permit hmem).occupy flat key
  · by_cases hflat : s = flat
    · exact ⟨_,List.mem_cons_self,hflat.symm⟩
    · rw [hframe.owner hflat] at hs
      obtain ⟨permit,hmem,heq⟩ := h.installing s installing slotEpoch ticket hs
      exact ⟨permit,List.mem_cons_of_mem _ hmem,heq⟩
  · rw [List.map_cons, List.nodup_cons]
    refine ⟨fun hmem => ?_,h.apart⟩
    obtain ⟨permit,hpermit,heq⟩ := List.mem_map.mp hmem
    exact hnot permit hpermit heq
  · intro residency hres
    rw [hguard.free] at hres
    cases hres
  · intro residency hres
    rw [howner] at hres
    cases hres

/-- Publishing a held permit makes its slot resident. -/
lemma publish (h : Held arena (permit::rest)) {entry : MappingEntry}
    (hentry : permit.residency.mappingEntry = .ok entry) :
    Held (arena.publish permit entry) rest ∧
      (∀ s residency, (arena.publish permit entry).state.owner s = .resident residency ↔
        arena.state.owner s = .resident residency ∨
          s = permit.flatSlot ∧ residency = permit.residency) ∧
      arena.state.owner permit.flatSlot = .installing permit.key permit.residency.slotEpoch
        permit.installTicket := by
  have hcurrent := h.current permit List.mem_cons_self
  have hok := h.permitOk permit List.mem_cons_self
  have hguard : Publishable arena permit entry := ⟨hcurrent,hentry,hok.key,hok.location⟩
  have hframe := arena.publish_frame permit entry
  have htables := h.tables.publish hguard
  have howner : (arena.publish permit entry).state.owner permit.flatSlot =
      .resident permit.residency := by
    rw [ArenaState.owner, arena.slots_publish]
  refine ⟨⟨htables,fun other hmem => h.keep hframe htables hmem,
    fun other hmem => (h.permitOk other (List.mem_cons_of_mem _ hmem)).move (.publish hguard),
    fun s key slotEpoch ticket hs => ?_,?_⟩,fun s residency => ?_,hcurrent.2.2⟩
  · have hne : s ≠ permit.flatSlot := by
      rintro rfl
      rw [howner] at hs
      cases hs
    rw [hframe.owner hne] at hs
    obtain ⟨other,hmem,hflat⟩ := h.installing s key slotEpoch ticket hs
    rcases List.mem_cons.mp hmem with rfl | hmem
    · exact absurd hflat.symm hne
    · exact ⟨other,hmem,hflat⟩
  · have happart := h.apart
    rw [List.map_cons, List.nodup_cons] at happart
    exact happart.2
  · by_cases hs : s = permit.flatSlot
    · subst hs
      rw [howner, hcurrent.2.2]
      constructor
      · intro heq
        exact .inr ⟨rfl,(SlotOwner.resident.inj heq).symm⟩
      · rintro (heq | ⟨-,rfl⟩)
        · cases heq
        · rfl
    · rw [hframe.owner hs]
      simp [hs]

/-- Retiring a resident frees its slot. -/
lemma retire (h : Held arena permits) {flat : ℕ} {residency : ExpertResidency}
    (howner : arena.state.owner flat = .resident residency) :
    ∃ b, arena.retire residency.key = (b,.ok .retired) ∧ Held b permits ∧ SameFrame arena b ∧
      ∀ s other, b.state.owner s = .resident other ↔
        arena.state.owner s = .resident other ∧ s ≠ flat := by
  have hkey : (arena.state.owner flat).key? = some residency.key := by
    rw [howner]
    rfl
  have hframe := arena.retireSlot_frame flat residency.key.expertId
  have hrelease := Release.retire howner
  have htables := h.tables.released hrelease
  have hfree : (arena.retireSlot flat residency.key.expertId).state.owner flat = .free := by
    change ((arena.state.release flat residency.key.expertId).slots flat).owner = _
    rw [arena.slots_release]
  have hnot : ∀ permit ∈ permits, permit.flatSlot ≠ flat := by
    rintro permit hmem rfl
    have hcurrent := (h.current permit hmem).2.2
    rw [howner] at hcurrent
    cases hcurrent
  refine ⟨arena.retireSlot flat residency.key.expertId,
    (ExpertArena.retire_owned h.tables hkey).1 residency howner,
    ⟨htables,fun permit hmem => ?_,fun permit hmem => (h.permitOk permit hmem).released hrelease,
      fun s key slotEpoch ticket hs => ?_,h.apart⟩,.of_frame hframe,fun s other => ?_⟩
  · apply htables.current
    rw [hframe.owner (hnot permit hmem)]
    exact (h.current permit hmem).2.2
  · have hne : s ≠ flat := by
      rintro rfl
      rw [hfree] at hs
      cases hs
    rw [hframe.owner hne] at hs
    exact h.installing s key slotEpoch ticket hs
  · by_cases hs : s = flat
    · subst hs
      rw [hfree]
      simp
    · rw [hframe.owner hs]
      simp [hs]

end Held

namespace Namespace
variable {space : Namespace}

lemma validate_eq_ok (h : space.validate = .ok ()) : 0<space.expertsPerLayer := by
  unfold validate at h
  split_ifs at h
  omega

lemma identity_global (h : space.validate = .ok ()) {layerIndex e : ℕ}
    (hlayer : layerIndex<space.numLayers) (he : e<space.expertsPerLayer) :
    space.identity (layerIndex*space.expertsPerLayer+e) = .ok ⟨layerIndex,e⟩ := by
  have hdiv : (layerIndex*space.expertsPerLayer+e)/space.expertsPerLayer = layerIndex := by
    rw [Nat.mul_comm, Nat.mul_add_div (validate_eq_ok h), Nat.div_eq_of_lt he, Nat.add_zero]
  have hmod : (layerIndex*space.expertsPerLayer+e) % space.expertsPerLayer = e := by
    rw [Nat.mul_comm, Nat.mul_add_mod, Nat.mod_eq_of_lt he]
  unfold identity
  rw [h]
  change (if space.numLayers ≤ (layerIndex*space.expertsPerLayer+e)/space.expertsPerLayer
    then _ else Except.ok _) = _
  rw [hdiv, hmod, if_neg (Nat.not_le.mpr hlayer)]

lemma identity_eq_ok {globalId : ℕ} {expert : LayerExpertId}
    (h : space.identity globalId = .ok expert) :
    space.validate = .ok () ∧ expert.layerIndex<space.numLayers ∧
      expert.localExpertId<space.expertsPerLayer ∧
      globalId = expert.layerIndex*space.expertsPerLayer+expert.localExpertId := by
  obtain ⟨_,hvalid,h⟩ := bind_eq_ok.mp h
  have hpos := validate_eq_ok hvalid
  dsimp only at h
  split_ifs at h with hrange
  obtain rfl := Except.ok.inj h
  refine ⟨hvalid,Nat.not_le.mp hrange,Nat.mod_lt _ hpos,?_⟩
  exact (Nat.div_add_mod' globalId space.expertsPerLayer).symm

end Namespace

/-- A layer in step: its recency list holds exactly the residents of its arena. -/
structure InStep (space : Namespace) (layer : LayerResidency) (permits : List InstallPermit) :
    Prop where
  held : Held layer.arena permits
  valid : space.validate = .ok ()
  inside : layer.arena.layerIndex<space.numLayers
  width : layer.arena.geometry.numExperts = space.expertsPerLayer
  distinct : Lru.Distinct layer.residents
  recorded : ∀ globalId record, (globalId,record) ∈ layer.residents ↔
    record.key = record.residency.key ∧
      globalId = layer.arena.layerIndex*space.expertsPerLayer+record.key.expertId ∧
      ∃ s, layer.arena.state.owner s = .resident record.residency

namespace InStep
variable {space : Namespace} {layer : LayerResidency} {permits : List InstallPermit}

/-- The slot, the key and the id of a recorded resident. -/
lemma resident (h : InStep space layer permits) {globalId : ℕ} {record : PhysicalRecord}
    (hmem : (globalId,record) ∈ layer.residents) :
    ∃ s, layer.arena.state.owner s = .resident record.residency ∧
      record.residency.key = record.key ∧ record.key.layerIndex = layer.arena.layerIndex ∧
      space.identity globalId = .ok ⟨layer.arena.layerIndex,record.key.expertId⟩ := by
  obtain ⟨hkey,hglobal,s,howner⟩ := (h.recorded globalId record).mp hmem
  have howned : (layer.arena.state.owner s).key? = some record.key := by
    rw [howner, hkey]
    rfl
  have hrange := (h.held.tables.slot s).range record.key howned
  rw [h.width] at hrange
  refine ⟨s,howner,hkey.symm,(h.held.tables.slot s).layer record.key howned,?_⟩
  rw [hglobal]
  exact Namespace.identity_global h.valid h.inside hrange

/-- An arena step that leaves the residents alone. -/
lemma setArena (h : InStep space layer permits) {arena : ExpertArena} {rest : List InstallPermit}
    (hheld : Held arena rest) (hsame : SameResidents layer.arena arena) :
    InStep space (layer.setArena arena) rest := by
  refine ⟨hheld,h.valid,?_,?_,h.distinct,fun globalId record => ?_⟩
  · change arena.layerIndex<_
    rw [hsame.layer]
    exact h.inside
  · change arena.geometry.numExperts = _
    rw [hsame.geometry]
    exact h.width
  · change (globalId,record) ∈ layer.residents ↔ record.key = record.residency.key ∧
      globalId = arena.layerIndex*space.expertsPerLayer+record.key.expertId ∧
      ∃ s, arena.state.owner s = .resident record.residency
    rw [h.recorded globalId record, hsame.layer]
    simp only [hsame.owner]

lemma abandon {dropped rest : List InstallPermit} (h : InStep space layer (dropped++rest)) :
    InStep space (layer.abandon dropped) rest :=
  h.setArena h.held.drop.1 h.held.drop.2

lemma abandonAll (h : InStep space layer permits) : InStep space (layer.abandon permits) [] :=
  h.setArena h.held.dropAll.1 h.held.dropAll.2

lemma perm {rest : List InstallPermit} (h : InStep space layer permits)
    (hperm : permits.Perm rest) : InStep space layer rest :=
  ⟨h.held.perm hperm,h.valid,h.inside,h.width,h.distinct,h.recorded⟩

lemma touch (h : InStep space layer permits) (globalId : ℕ) :
    InStep space { layer with residents := Lru.touch layer.residents globalId } permits := by
  refine ⟨h.held,h.valid,h.inside,h.width,h.distinct.touch globalId,fun x record => ?_⟩
  rw [Lru.mem_touch h.distinct]
  exact h.recorded x record

/-- The slots that are not free belong to residents and permits. -/
lemma occupied (h : InStep space layer permits) {s : ℕ} (hs : layer.arena.state.owner s ≠ .free) :
    s ∈ layer.residents.filterMap (fun entry =>
      layer.arena.state.logicalSlots entry.2.key.expertId)++permits.map InstallPermit.flatSlot := by
  rw [List.mem_append]
  cases howner : layer.arena.state.owner s with
  | free => exact absurd howner hs
  | installing key slotEpoch ticket =>
    obtain ⟨permit,hmem,hflat⟩ := h.held.installing s key slotEpoch ticket howner
    exact .inr (List.mem_map.mpr ⟨permit,hmem,hflat⟩)
  | resident residency =>
    refine .inl (List.mem_filterMap.mpr ?_)
    have hmem := (h.recorded _ ⟨residency.key,residency⟩).mpr ⟨rfl,rfl,s,howner⟩
    refine ⟨_,hmem,(h.held.tables.logical _ s).mpr ⟨residency.key,?_,rfl⟩⟩
    rw [howner]
    rfl

/-- With room left there is a free slot. -/
lemma exists_free (h : InStep space layer permits)
    (hroom : layer.residents.length+permits.length<layer.arena.state.slotCapacity) :
    ∃ s, s<layer.arena.state.slotCapacity ∧ layer.arena.state.owner s = .free := by
  by_contra hnone
  set used := layer.residents.filterMap (fun entry =>
    layer.arena.state.logicalSlots entry.2.key.expertId)++permits.map InstallPermit.flatSlot
  have hsubset : List.range layer.arena.state.slotCapacity ⊆ used := by
    intro s hs
    refine h.occupied fun hfree => hnone ⟨s,List.mem_range.mp hs,hfree⟩
  have hle := (List.nodup_range.subperm hsubset).length_le
  rw [List.length_range, List.length_append, List.length_map] at hle
  have hresidents := List.length_filterMap_le
    (fun entry : ℕ × PhysicalRecord => layer.arena.state.logicalSlots entry.2.key.expertId)
    layer.residents
  omega

/-- Residents fit in the arena. -/
lemma residents_le (h : InStep space layer permits) :
    layer.residents.length ≤ layer.arena.state.slotCapacity := by
  set slotOf : ℕ × PhysicalRecord → ℕ := fun entry =>
    (layer.arena.state.logicalSlots entry.2.key.expertId).getD 0
  have hslot : ∀ entry ∈ layer.residents, layer.arena.state.owner (slotOf entry) =
      .resident entry.2.residency := by
    rintro ⟨globalId,record⟩ hmem
    obtain ⟨s,howner,hkey,-,-⟩ := h.resident hmem
    have hlogical := (h.held.tables.logical record.key.expertId s).mpr
      ⟨record.key,by rw [howner, ← hkey]; rfl,rfl⟩
    change layer.arena.state.owner
      ((layer.arena.state.logicalSlots record.key.expertId).getD 0) = _
    rw [hlogical]
    exact howner
  have hnodup : (layer.residents.map slotOf).Nodup := by
    refine List.Nodup.map_on ?_ (List.Nodup.of_map _ h.distinct)
    rintro ⟨x,record⟩ hx ⟨y,record'⟩ hy heq
    have howner := hslot _ hx
    rw [heq, hslot _ hy] at howner
    have hres := SlotOwner.resident.inj howner
    obtain ⟨hkey,hglobal,-⟩ := (h.recorded x record).mp hx
    obtain ⟨hkey',hglobal',-⟩ := (h.recorded y record').mp hy
    change record'.residency = record.residency at hres
    have hrecord : record = record' := by
      cases record with
      | mk key residency =>
        cases record' with
        | mk key' residency' =>
          dsimp only at hres hkey hkey'
          rw [hkey, hkey', hres]
    rw [hglobal, hglobal', hrecord]
  have hsubset : layer.residents.map slotOf ⊆ List.range layer.arena.state.slotCapacity := by
    intro s hs
    obtain ⟨entry,hmem,rfl⟩ := List.mem_map.mp hs
    refine List.mem_range.mpr (h.held.tables.capacity _ entry.2.residency.key ?_)
    rw [hslot entry hmem]
    rfl
  have hle := (hnodup.subperm hsubset).length_le
  rw [List.length_map, List.length_range] at hle
  exact hle

/-- An expert that is neither recorded nor being installed has no slot. -/
lemma logical_none (h : InStep space layer permits) {globalId e : ℕ}
    (hidentity : space.identity globalId = .ok ⟨layer.arena.layerIndex,e⟩)
    (habsent : ∀ record, (globalId,record) ∉ layer.residents)
    (hfree : ∀ permit ∈ permits, permit.key.expertId ≠ e) :
    layer.arena.state.logicalSlots e = none := by
  cases hlogical : layer.arena.state.logicalSlots e with
  | none => rfl
  | some s =>
    obtain ⟨key,hkey,rfl⟩ := (h.held.tables.logical e s).mp hlogical
    cases howner : layer.arena.state.owner s with
    | free =>
      rw [howner] at hkey
      cases hkey
    | installing installing slotEpoch ticket =>
      obtain ⟨permit,hmem,rfl⟩ := h.held.installing s installing slotEpoch ticket howner
      have hcurrent := (h.held.current permit hmem).2.2
      rw [hcurrent] at hkey
      cases hkey
      exact absurd rfl (hfree permit hmem)
    | resident residency =>
      rw [howner] at hkey
      cases hkey
      have hglobal := (Namespace.identity_eq_ok hidentity).2.2.2
      exact absurd ((h.recorded globalId ⟨residency.key,residency⟩).mpr ⟨rfl,hglobal,s,howner⟩)
        (habsent _)

/-- A published permit becomes the most recent record. -/
lemma record {permit : InstallPermit} (h : InStep space layer (permit::permits)) {globalId : ℕ}
    {entry : MappingEntry} (hentry : permit.residency.mappingEntry = .ok entry)
    (hglobal : globalId = layer.arena.layerIndex*space.expertsPerLayer+permit.key.expertId) :
    InStep space ((layer.setArena (layer.arena.publish permit entry)).record globalId permit.key
      permit.residency) permits := by
  obtain ⟨hheld,howner,hinstalling⟩ := h.held.publish hentry
  have hkey := (h.held.permitOk permit List.mem_cons_self).key
  -- The slot of the expert was installing, so the expert was not recorded.
  have habsent : ∀ record, (globalId,record) ∉ layer.residents := by
    intro record hmem
    obtain ⟨hrecord,hid,s,hs⟩ := (h.recorded globalId record).mp hmem
    have hexpert : record.key.expertId = permit.key.expertId := by omega
    have hlogical := (h.held.tables.logical permit.key.expertId s).mpr
      ⟨record.key,by rw [hs, hrecord]; rfl,hexpert⟩
    rw [(h.held.current permit List.mem_cons_self).2.1] at hlogical
    rw [← Option.some.inj hlogical, hinstalling] at hs
    cases hs
  refine ⟨hheld,h.valid,h.inside,h.width,h.distinct.put _ _,fun x record => ?_⟩
  change (x,record) ∈ Lru.put layer.residents globalId ⟨permit.key,permit.residency⟩ ↔
    record.key = record.residency.key ∧
      x = layer.arena.layerIndex*space.expertsPerLayer+record.key.expertId ∧
      ∃ s, (layer.arena.publish permit entry).state.owner s = .resident record.residency
  rw [Lru.mem_put, h.recorded x record]
  simp only [howner]
  constructor
  · rintro (heq | ⟨⟨hrecord,hid,s,hs⟩,-⟩)
    · obtain ⟨rfl,rfl⟩ := Prod.mk.inj heq
      exact ⟨hkey.symm,hglobal,permit.flatSlot,.inr ⟨rfl,rfl⟩⟩
    · exact ⟨hrecord,hid,s,.inl hs⟩
  · rintro ⟨hrecord,hid,s,hs | ⟨-,hs⟩⟩
    · refine .inr ⟨⟨hrecord,hid,s,hs⟩,?_⟩
      rintro rfl
      exact habsent record ((h.recorded x record).mpr ⟨hrecord,hid,s,hs⟩)
    · left
      cases record with
      | mk key residency =>
        dsimp only at hrecord hid hs
        subst hs
        rw [hkey] at hrecord
        subst hrecord
        rw [hid, hglobal]

/-- Evicting a recorded expert retires its slot and forgets the record. -/
lemma evict_granted (h : InStep space layer permits) {env : Environment} {globalId : ℕ}
    {record : PhysicalRecord} (hmem : (globalId,record) ∈ layer.residents)
    (hgate : env.retireGate globalId = .ok ()) :
    ∃ next, layer.evict env globalId = (next,.ok ()) ∧ InStep space next permits ∧
      next.residents = Lru.pop layer.residents globalId ∧ SameFrame layer.arena next.arena ∧
      next.arena = (layer.arena.retire record.key).1 := by
  unfold LayerResidency.evict
  rw [(Lru.peek_eq_some h.distinct).mpr hmem]
  dsimp only
  rw [hgate]
  obtain ⟨flat,howner,hkey,-,-⟩ := h.resident hmem
  obtain ⟨b,hretire,hheld,hframe,hresidents⟩ := h.held.retire howner
  rw [hkey] at hretire
  dsimp only
  rw [hretire]
  refine ⟨_,rfl,⟨hheld,h.valid,?_,?_,h.distinct.pop _,fun x other => ?_⟩,rfl,hframe,rfl⟩
  · dsimp only
    rw [hframe.layer]
    exact h.inside
  · dsimp only
    rw [hframe.geometry]
    exact h.width
  · dsimp only
    rw [Lru.mem_pop, h.recorded x other, hframe.layer]
    simp only [hresidents]
    constructor
    · rintro ⟨⟨hother,hid,s,hs⟩,hne⟩
      refine ⟨hother,hid,s,hs,?_⟩
      rintro rfl
      rw [howner] at hs
      have hres := SlotOwner.resident.inj hs
      obtain ⟨hrecord,hid',-⟩ := (h.recorded globalId record).mp hmem
      rw [← hres, ← hrecord] at hother
      rw [hother, ← hid'] at hid
      exact hne hid
    · rintro ⟨hother,hid,s,hs,hne⟩
      refine ⟨⟨hother,hid,s,hs⟩,?_⟩
      rintro rfl
      have hrecord := h.distinct.eq ((h.recorded x other).mpr ⟨hother,hid,s,hs⟩) hmem
      subst hrecord
      -- One residency is resident in one slot.
      have howned : (layer.arena.state.owner flat).key? = some other.residency.key := by
        rw [howner]
        rfl
      exact hne ((h.held.tables.linked howned).logical s ((h.held.tables.logical _ s).mpr
        ⟨other.residency.key,by rw [hs]; rfl,rfl⟩))

/-- An eviction can only fail at the executor. -/
lemma evict (h : InStep space layer permits) {env : Environment} {globalId : ℕ}
    {record : PhysicalRecord} (hmem : (globalId,record) ∈ layer.residents) :
    (∃ e, layer.evict env globalId = (layer,.error (.backend e))) ∨
      ∃ next, layer.evict env globalId = (next,.ok ()) ∧ InStep space next permits ∧
        next.residents = Lru.pop layer.residents globalId ∧
        SameFrame layer.arena next.arena := by
  cases hgate : env.retireGate globalId with
  | error e =>
    refine .inl ⟨e,?_⟩
    unfold LayerResidency.evict
    rw [(Lru.peek_eq_some h.distinct).mpr hmem]
    dsimp only
    rw [hgate]
  | ok _ =>
    obtain ⟨next,hevict,hstep,hresidents,hframe,-⟩ := h.evict_granted hmem hgate
    exact .inr ⟨next,hevict,hstep,hresidents,hframe⟩

/-- Withdrawing an expert that was published but not recorded restores the step. -/
lemma withdraw {permit : InstallPermit} (h : InStep space layer (permit::permits))
    {env : Environment} {globalId : ℕ} {entry : MappingEntry}
    (hentry : permit.residency.mappingEntry = .ok entry)
    (hretire : env.retireGate globalId = .ok ()) :
    ∃ next, (layer.setArena (layer.arena.publish permit entry)).withdraw env globalId permit.key =
        (next,.logicalAdmissionStale globalId permit.key.logicalGeneration) ∧
      InStep space next permits ∧ next.residents = layer.residents ∧
      SameFrame layer.arena next.arena := by
  obtain ⟨hheld,howner,hinstalling⟩ := h.held.publish hentry
  have hok := h.held.permitOk permit List.mem_cons_self
  have hresident : (layer.arena.publish permit entry).state.owner permit.flatSlot =
      .resident permit.residency := (howner _ _).mpr (.inr ⟨rfl,rfl⟩)
  obtain ⟨b,hb,hheld',hframe,hresidents⟩ := hheld.retire hresident
  rw [hok.key] at hb
  have hsame : SameResidents layer.arena b := by
    refine ⟨(SameFrame.of_frame (layer.arena.publish_frame permit entry)).trans hframe,
      fun s residency => ?_⟩
    rw [hresidents, howner]
    constructor
    · rintro ⟨hs | ⟨rfl,-⟩,hne⟩
      · exact hs
      · exact absurd rfl hne
    · intro hs
      refine ⟨.inl hs,?_⟩
      rintro rfl
      rw [hinstalling] at hs
      cases hs
  have hpublished : (layer.setArena (layer.arena.publish permit entry)).arena.retire permit.key =
      (b,.ok .retired) := hb
  unfold LayerResidency.withdraw
  rw [hretire]
  dsimp only
  rw [hpublished]
  exact ⟨_,rfl,h.setArena hheld' hsame,rfl,hsame.toSameFrame⟩

end InStep

end MicroExpertRouter.Residency
