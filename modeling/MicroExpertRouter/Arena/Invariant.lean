import MicroExpertRouter.Arena.State

/-! The tables of an expert arena agree. What the operations do to the tables is said once, as a
short list of guarded moves; every operation is a chain of moves, and each move keeps the
tables. -/
namespace MicroExpertRouter.Arena

/-- What one slot says about its owner. -/
structure SlotOk (arena : ExpertArena) (slot : PhysicalSlot) : Prop where
  layer : ∀ key, slot.owner.key? = some key → key.layerIndex = arena.layerIndex
  range : ∀ key, slot.owner.key? = some key → key.expertId<arena.geometry.numExperts
  latest : ∀ key, slot.owner.key? = some key →
    arena.state.latestGenerations key.expertId = some key.logicalGeneration
  epoch : ∀ epoch, slot.owner.epoch? = some epoch → epoch = slot.lastEpoch
  positive : ∀ epoch, slot.owner.epoch? = some epoch → 0<epoch
  location : ∀ residency, slot.owner = .resident residency → residency.location = slot.location
  bound : slot.lastEpoch ≤ u32Max

/-- The slot, logical, generation and mapping tables agree. -/
structure Tables (arena : ExpertArena) : Prop where
  slot : ∀ s, SlotOk arena (arena.state.slots s)
  logical : ∀ e s, arena.state.logicalSlots e = some s ↔
    ∃ key, (arena.state.owner s).key? = some key ∧ key.expertId = e
  capacity : ∀ s key, (arena.state.owner s).key? = some key → s<arena.state.slotCapacity
  mapped : ∀ s residency, arena.state.owner s = .resident residency →
    residency.mappingEntry = .ok (arena.mapping residency.key.expertId)
  unmapped : ∀ e, (∀ s residency, arena.state.owner s = .resident residency →
    residency.key.expertId ≠ e) → arena.mapping e = .unmapped
  packs : ∀ s, s<arena.state.slotCapacity →
    ∃ packed, (arena.state.slots s).location.pack = .ok packed
  distinct : ∀ s t, s<arena.state.slotCapacity → t<arena.state.slotCapacity →
    (arena.state.slots s).location = (arena.state.slots t).location → s = t

/-- The two arenas differ at most at one slot, at one expert and in counters and tickets. -/
structure Frame (a b : ExpertArena) (flat e : ℕ) : Prop where
  layer : b.layerIndex = a.layerIndex
  geometry : b.geometry = a.geometry
  capacity : b.state.slotCapacity = a.state.slotCapacity
  latest : b.state.latestGenerations = a.state.latestGenerations
  slots : ∀ s, s ≠ flat → b.state.slots s = a.state.slots s
  location : (b.state.slots flat).location = (a.state.slots flat).location
  logical : ∀ x, x ≠ e → b.state.logicalSlots x = a.state.logicalSlots x
  mapping : ∀ x, x ≠ e → b.mapping x = a.mapping x

/-- Slot and expert are linked to each other or to nothing. -/
structure Linked (arena : ExpertArena) (flat e : ℕ) : Prop where
  key : ∀ key, (arena.state.owner flat).key? = some key → key.expertId = e
  logical : ∀ s, arena.state.logicalSlots e = some s → s = flat

namespace Frame
variable {a b : ExpertArena} {flat e : ℕ} (h : Frame a b flat e)
include h

lemma owner {s : ℕ} (hs : s ≠ flat) : b.state.owner s = a.state.owner s := by
  rw [ArenaState.owner, h.slots s hs, ArenaState.owner]

lemma locations (s : ℕ) : (b.state.slots s).location = (a.state.slots s).location := by
  by_cases hs : s = flat
  · rw [hs, h.location]
  · rw [h.slots s hs]

end Frame

lemma SlotOk.congr {a b : ExpertArena} {slot : PhysicalSlot} (h : SlotOk a slot)
    (hlayer : b.layerIndex = a.layerIndex) (hgeometry : b.geometry = a.geometry)
    (hlatest : b.state.latestGenerations = a.state.latestGenerations) : SlotOk b slot :=
  ⟨by rw [hlayer]; exact h.layer,by rw [hgeometry]; exact h.range,
    by rw [hlatest]; exact h.latest,h.epoch,h.positive,h.location,h.bound⟩

lemma Tables.linked {arena : ExpertArena} (h : Tables arena) {flat : ℕ} {key : ExpertKey}
    (howner : (arena.state.owner flat).key? = some key) : Linked arena flat key.expertId := by
  refine ⟨fun other hother => ?_,fun s hs => ?_⟩
  · rw [howner] at hother
    rw [Option.some.inj hother]
  · have hflat := (h.logical key.expertId flat).mpr ⟨key,howner,rfl⟩
    rw [hs] at hflat
    exact Option.some.inj hflat

/-- A permit is current when its slot installs for it. -/
lemma Tables.current {arena : ExpertArena} (h : Tables arena) {permit : InstallPermit}
    (howner : arena.state.owner permit.flatSlot =
      .installing permit.key permit.residency.slotEpoch permit.installTicket) :
    permit.reservationCurrent arena.state := by
  have hkey : (arena.state.owner permit.flatSlot).key? = some permit.key := by
    rw [howner]
    rfl
  exact ⟨(h.slot _).latest _ hkey,(h.logical _ _).mpr ⟨_,hkey,rfl⟩,howner⟩

/-- A change at a linked slot and expert keeps the tables when the slot stays consistent. -/
lemma Tables.frame {a b : ExpertArena} {flat e : ℕ} (h : Tables a) (hframe : Frame a b flat e)
    (hlinked : Linked a flat e) (hlinked' : Linked b flat e) (hcapacity : flat<a.state.slotCapacity)
    (hslot : SlotOk b (b.state.slots flat))
    (hlogical : b.state.logicalSlots e = some flat ↔ ∃ key, (b.state.owner flat).key? = some key)
    (hmapped : ∀ residency, b.state.owner flat = .resident residency →
      residency.mappingEntry = .ok (b.mapping e))
    (hunmapped : (∀ residency, b.state.owner flat ≠ .resident residency) →
      b.mapping e = .unmapped) : Tables b := by
  have hother : ∀ s, s ≠ flat → ∀ key, (b.state.owner s).key? = some key → key.expertId ≠ e := by
    intro s hs key hkey he
    rw [hframe.owner hs] at hkey
    exact hs (hlinked.logical s ((h.logical e s).mpr ⟨key,hkey,he⟩))
  refine ⟨fun s => ?_,fun x s => ?_,fun s key hkey => ?_,fun s residency howner => ?_,
    fun x hx => ?_,fun s hs => ?_,fun s t hs ht heq => ?_⟩
  · by_cases hs : s = flat
    · rw [hs]
      exact hslot
    · rw [hframe.slots s hs]
      exact (h.slot s).congr hframe.layer hframe.geometry hframe.latest
  · by_cases hs : s = flat
    · subst hs
      by_cases hx : x = e
      · subst hx
        rw [hlogical]
        exact ⟨fun ⟨key,hkey⟩ => ⟨key,hkey,hlinked'.key key hkey⟩,fun ⟨key,hkey,_⟩ => ⟨key,hkey⟩⟩
      · rw [hframe.logical x hx, h.logical x s]
        constructor
        · rintro ⟨key,hkey,rfl⟩
          exact absurd (hlinked.key key hkey) hx
        · rintro ⟨key,hkey,rfl⟩
          exact absurd (hlinked'.key key hkey) hx
    · by_cases hx : x = e
      · subst hx
        constructor
        · intro hsome
          exact absurd (hlinked'.logical s hsome) hs
        · rintro ⟨key,hkey,he⟩
          exact absurd he (hother s hs key hkey)
      · rw [hframe.logical x hx, hframe.owner hs]
        exact h.logical x s
  · rw [hframe.capacity]
    by_cases hs : s = flat
    · rw [hs]
      exact hcapacity
    · rw [hframe.owner hs] at hkey
      exact h.capacity s key hkey
  · by_cases hs : s = flat
    · subst hs
      have hkey := hlinked'.key residency.key (by rw [howner]; rfl)
      rw [hkey]
      exact hmapped residency howner
    · have hne := hother s hs residency.key (by rw [howner]; rfl)
      rw [hframe.mapping _ hne]
      rw [hframe.owner hs] at howner
      exact h.mapped s residency howner
  · by_cases hxe : x = e
    · subst hxe
      refine hunmapped fun residency howner => hx flat residency howner ?_
      exact hlinked'.key residency.key (by rw [howner]; rfl)
    · rw [hframe.mapping x hxe]
      refine h.unmapped x fun s residency howner hkey => ?_
      by_cases hs : s = flat
      · subst hs
        exact hxe (hkey.symm.trans (hlinked.key residency.key (by rw [howner]; rfl)))
      · exact hx s residency (by rw [hframe.owner hs, howner]) hkey
  · rw [hframe.locations]
    exact h.packs s (hframe.capacity ▸ hs)
  · rw [hframe.locations, hframe.locations] at heq
    exact h.distinct s t (hframe.capacity ▸ hs) (hframe.capacity ▸ ht) heq

/-- When a slot can be given to the next reservation. -/
structure Reservable (arena : ExpertArena) (flat : ℕ) (key : ExpertKey) : Prop where
  capacity : flat<arena.state.slotCapacity
  free : arena.state.owner flat = .free
  epoch : (arena.state.slots flat).lastEpoch<u32Max
  layer : key.layerIndex = arena.layerIndex
  range : key.expertId<arena.geometry.numExperts
  latest : arena.state.latestGenerations key.expertId = some key.logicalGeneration
  logical : arena.state.logicalSlots key.expertId = none

/-- When a permit can be published. -/
structure Publishable (arena : ExpertArena) (permit : InstallPermit) (entry : MappingEntry) :
    Prop where
  current : permit.reservationCurrent arena.state
  entry : permit.residency.mappingEntry = .ok entry
  key : permit.residency.key = permit.key
  location : permit.residency.location = (arena.state.slots permit.flatSlot).location

/-- The moves that neither reserve nor publish. -/
inductive Release : ExpertArena → ExpertArena → Prop
  | reject (a : ExpertArena) : Release a a.rejectStale
  | retire {a : ExpertArena} {flat : ℕ} {residency : ExpertResidency}
      (owner : a.state.owner flat = .resident residency) :
      Release a (a.retireSlot flat residency.key.expertId)
  | cancel {a : ExpertArena} {flat slotEpoch ticket : ℕ} {key : ExpertKey}
      (owner : a.state.owner flat = .installing key slotEpoch ticket) :
      Release a (a.cancelSlot flat key.expertId)
  | raise {a : ExpertArena} {key : ExpertKey} (logical : a.state.logicalSlots key.expertId = none)
      (newer : ∀ latest, a.state.latestGenerations key.expertId = some latest →
        latest ≤ key.logicalGeneration) : Release a (a.raiseGeneration key)

abbrev Releases : ExpertArena → ExpertArena → Prop := Relation.ReflTransGen Release

/-- The moves the operations are made of. -/
inductive Move : ExpertArena → ExpertArena → Prop
  | release {a b : ExpertArena} (release : Release a b) : Move a b
  | occupy {a : ExpertArena} {flat : ℕ} {key : ExpertKey} (guard : Reservable a flat key) :
      Move a (a.occupy flat key)
  | publish {a : ExpertArena} {permit : InstallPermit} {entry : MappingEntry}
      (guard : Publishable a permit entry) : Move a (a.publish permit entry)

abbrev Moves : ExpertArena → ExpertArena → Prop := Relation.ReflTransGen Move

lemma Releases.moves {a b : ExpertArena} (h : Releases a b) : Moves a b := by
  induction h with
  | refl => exact .refl
  | tail _ hrelease ih => exact ih.tail (.release hrelease)

namespace ExpertArena

lemma release_frame (arena : ExpertArena) (flat e : ℕ) (mapping : ℕ → MappingEntry)
    (counters : ResidencyCounters) (hmapping : ∀ x, x ≠ e → mapping x = arena.mapping x) :
    Frame arena ⟨arena.layerIndex,arena.geometry,
      { arena.state.release flat e with counters := counters },mapping⟩ flat e := by
  refine ⟨rfl,rfl,rfl,rfl,fun s hs => ?_,?_,fun x hx => ?_,hmapping⟩
  · exact Function.update_of_ne hs _ _
  · change (Function.update arena.state.slots flat _ flat).location = _
    rw [Function.update_self]
  · exact Function.update_of_ne hx _ _

lemma retireSlot_frame (arena : ExpertArena) (flat e : ℕ) :
    Frame arena (arena.retireSlot flat e) flat e :=
  arena.release_frame flat e _ _ fun _ hx => Function.update_of_ne hx _ _

lemma cancelSlot_frame (arena : ExpertArena) (flat e : ℕ) :
    Frame arena (arena.cancelSlot flat e) flat e :=
  arena.release_frame flat e _ _ fun _ _ => rfl

lemma occupy_frame (arena : ExpertArena) (flat : ℕ) (key : ExpertKey) :
    Frame arena (arena.occupy flat key) flat key.expertId := by
  refine ⟨rfl,rfl,rfl,rfl,fun s hs => ?_,?_,fun x hx => ?_,fun _ _ => rfl⟩
  · exact Function.update_of_ne hs _ _
  · change (Function.update arena.state.slots flat _ flat).location = _
    rw [Function.update_self]
  · exact Function.update_of_ne hx _ _

lemma publish_frame (arena : ExpertArena) (permit : InstallPermit) (entry : MappingEntry) :
    Frame arena (arena.publish permit entry) permit.flatSlot permit.key.expertId := by
  refine ⟨rfl,rfl,rfl,rfl,fun s hs => ?_,?_,fun x hx => rfl,fun x hx => ?_⟩
  · exact Function.update_of_ne hs _ _
  · change (Function.update arena.state.slots permit.flatSlot _ permit.flatSlot).location = _
    rw [Function.update_self]
  · exact Function.update_of_ne hx _ _

lemma slots_release (arena : ExpertArena) (flat e : ℕ) :
    (arena.state.release flat e).slots flat =
      { arena.state.slots flat with owner := .free } :=
  Function.update_self _ _ _

lemma slots_occupy (arena : ExpertArena) (flat : ℕ) (key : ExpertKey) :
    (arena.occupy flat key).state.slots flat = { arena.state.slots flat with
      lastEpoch := (arena.state.slots flat).lastEpoch+1
      owner := .installing key ((arena.state.slots flat).lastEpoch+1)
        arena.state.nextInstallTicket } :=
  Function.update_self _ _ _

lemma slots_publish (arena : ExpertArena) (permit : InstallPermit) (entry : MappingEntry) :
    (arena.publish permit entry).state.slots permit.flatSlot =
      { arena.state.slots permit.flatSlot with
        owner := .resident permit.residency
        everInstalled := true } :=
  Function.update_self _ _ _

end ExpertArena

/-- Freeing an owned slot, with its mapping entry cleared when it was resident. -/
lemma Tables.release {a b : ExpertArena} {flat : ℕ} {key : ExpertKey} (h : Tables a)
    (howner : (a.state.owner flat).key? = some key) (hframe : Frame a b flat key.expertId)
    (hslot : b.state.slots flat = { a.state.slots flat with owner := .free })
    (hlogical : b.state.logicalSlots key.expertId = none)
    (hmapping : b.mapping key.expertId = .unmapped) : Tables b := by
  have hfree : b.state.owner flat = .free := by
    rw [ArenaState.owner, hslot]
  refine h.frame hframe (h.linked howner) ⟨?_,?_⟩ (h.capacity flat key howner) ?_ ?_ ?_ ?_
  · intro other hother
    rw [hfree] at hother
    cases hother
  · intro s hs
    rw [hlogical] at hs
    cases hs
  · rw [hslot]
    exact ⟨nofun,nofun,nofun,nofun,nofun,nofun,(h.slot flat).bound⟩
  · rw [hlogical, hfree]
    exact ⟨nofun,nofun⟩
  · intro residency hres
    rw [hfree] at hres
    cases hres
  · exact fun _ => hmapping

/-- A slot that installs for an expert leaves the expert unmapped. -/
lemma Tables.mapping_of_installing {a : ExpertArena} {flat slotEpoch ticket : ℕ} {key : ExpertKey}
    (h : Tables a) (howner : a.state.owner flat = .installing key slotEpoch ticket) :
    a.mapping key.expertId = .unmapped := by
  refine h.unmapped key.expertId fun s residency hres hkey => ?_
  have howned : (a.state.owner flat).key? = some key := by
    rw [howner]
    rfl
  have hs := (h.linked howned).logical s ((h.logical _ s).mpr ⟨residency.key,by rw [hres]; rfl,hkey⟩)
  rw [hs, howner] at hres
  cases hres

lemma Tables.mapping_of_logical_none {a : ExpertArena} {e : ℕ} (h : Tables a)
    (hnone : a.state.logicalSlots e = none) : a.mapping e = .unmapped := by
  refine h.unmapped e fun s residency hres hkey => ?_
  have hs := (h.logical e s).mpr ⟨residency.key,by rw [hres]; rfl,hkey⟩
  rw [hnone] at hs
  cases hs

lemma Tables.occupy {a : ExpertArena} {flat : ℕ} {key : ExpertKey} (h : Tables a)
    (hguard : Reservable a flat key) : Tables (a.occupy flat key) := by
  have howner : (a.occupy flat key).state.owner flat =
      .installing key ((a.state.slots flat).lastEpoch+1) a.state.nextInstallTicket := by
    rw [ArenaState.owner, ExpertArena.slots_occupy]
  have hlogical : (a.occupy flat key).state.logicalSlots key.expertId = some flat :=
    Function.update_self _ _ _
  refine h.frame (a.occupy_frame flat key) ⟨?_,?_⟩ ⟨?_,?_⟩ hguard.capacity ?_ ?_ ?_ ?_
  · intro other hother
    rw [hguard.free] at hother
    cases hother
  · intro s hs
    rw [hguard.logical] at hs
    cases hs
  · intro other hother
    rw [howner] at hother
    rw [← Option.some.inj hother]
  · intro s hs
    rw [hlogical] at hs
    exact (Option.some.inj hs).symm
  · rw [ExpertArena.slots_occupy]
    refine ⟨?_,?_,?_,?_,?_,nofun,hguard.epoch⟩
    · rintro _ ⟨⟩
      exact hguard.layer
    · rintro _ ⟨⟩
      exact hguard.range
    · rintro _ ⟨⟩
      exact hguard.latest
    · rintro _ ⟨⟩
      rfl
    · rintro _ ⟨⟩
      exact Nat.succ_pos _
  · rw [howner]
    exact ⟨fun _ => ⟨key,rfl⟩,fun _ => hlogical⟩
  · intro residency hres
    rw [howner] at hres
    cases hres
  · exact fun _ => h.mapping_of_logical_none hguard.logical

lemma Tables.publish {a : ExpertArena} {permit : InstallPermit} {entry : MappingEntry}
    (h : Tables a) (hguard : Publishable a permit entry) : Tables (a.publish permit entry) := by
  obtain ⟨hlatest,hlogical,hinstalling⟩ := hguard.current
  have hkey : (a.state.owner permit.flatSlot).key? = some permit.key := by
    rw [hinstalling]
    rfl
  have howner : (a.publish permit entry).state.owner permit.flatSlot =
      .resident permit.residency := by
    rw [ArenaState.owner, ExpertArena.slots_publish]
  have hmapping : (a.publish permit entry).mapping permit.key.expertId = entry :=
    Function.update_self _ _ _
  have hslot := h.slot permit.flatSlot
  have hepoch : (a.state.owner permit.flatSlot).epoch? = some permit.residency.slotEpoch := by
    rw [hinstalling]
    rfl
  refine h.frame (a.publish_frame permit entry) (h.linked hkey) ⟨?_,(h.linked hkey).logical⟩
    (h.capacity _ _ hkey) ?_ ?_ ?_ ?_
  · intro other hother
    rw [howner] at hother
    rw [← Option.some.inj hother, hguard.key]
  · rw [ExpertArena.slots_publish]
    refine ⟨?_,?_,?_,?_,?_,?_,hslot.bound⟩
    · rintro _ ⟨⟩
      rw [hguard.key]
      exact hslot.layer _ hkey
    · rintro _ ⟨⟩
      rw [hguard.key]
      exact hslot.range _ hkey
    · rintro _ ⟨⟩
      rw [hguard.key]
      exact hlatest
    · rintro _ ⟨⟩
      exact hslot.epoch _ hepoch
    · rintro _ ⟨⟩
      exact hslot.positive _ hepoch
    · rintro _ ⟨⟩
      exact hguard.location
  · rw [howner]
    exact ⟨fun _ => ⟨_,rfl⟩,fun _ => hlogical⟩
  · intro residency hres
    rw [howner] at hres
    cases hres
    rw [hmapping]
    exact hguard.entry
  · intro hnone
    exact absurd howner (hnone _)

/-- A newer generation may be recorded for an expert without a slot. -/
lemma Tables.raise {a : ExpertArena} {key : ExpertKey} (h : Tables a)
    (hnone : a.state.logicalSlots key.expertId = none) : Tables (a.raiseGeneration key) := by
  have hlatest : ∀ s other, ((a.raiseGeneration key).state.slots s).owner.key? = some other →
      (a.raiseGeneration key).state.latestGenerations other.expertId =
        a.state.latestGenerations other.expertId := by
    intro s other hother
    refine Function.update_of_ne (fun he => ?_) _ _
    have hs := (h.logical other.expertId s).mpr ⟨other,hother,rfl⟩
    rw [he, hnone] at hs
    cases hs
  refine ⟨fun s => ?_,h.logical,h.capacity,h.mapped,h.unmapped,h.packs,h.distinct⟩
  have hslot := h.slot s
  refine ⟨hslot.layer,hslot.range,fun other hother => ?_,hslot.epoch,hslot.positive,
    hslot.location,hslot.bound⟩
  rw [hlatest s other hother]
  exact hslot.latest other hother

lemma Tables.released {a b : ExpertArena} (h : Tables a) (hrelease : Release a b) : Tables b := by
  cases hrelease with
  | reject => exact ⟨fun s => (h.slot s).congr rfl rfl rfl,h.logical,h.capacity,h.mapped,h.unmapped,
      h.packs,h.distinct⟩
  | @retire flat residency owner =>
    have howned : (a.state.owner flat).key? = some residency.key := by
      rw [owner]
      rfl
    exact h.release howned (a.retireSlot_frame flat _)
      (a.slots_release flat residency.key.expertId) (Function.update_self _ _ _)
      (Function.update_self _ _ _)
  | @cancel flat slotEpoch ticket key owner =>
    have howned : (a.state.owner flat).key? = some key := by
      rw [owner]
      rfl
    exact h.release howned (a.cancelSlot_frame flat _)
      (a.slots_release flat key.expertId) (Function.update_self _ _ _)
      (h.mapping_of_installing owner)
  | raise logical => exact h.raise logical

theorem Tables.move {a b : ExpertArena} (h : Tables a) (hmove : Move a b) : Tables b := by
  cases hmove with
  | release release => exact h.released release
  | occupy guard => exact h.occupy guard
  | publish guard => exact h.publish guard

theorem Tables.moves {a b : ExpertArena} (h : Tables a) (hmoves : Moves a b) : Tables b := by
  induction hmoves with
  | refl => exact h
  | tail _ hmove ih => exact ih.move hmove

/-- Publications not undone are the resident slots, until the counter saturates. -/
def ArenaState.Counted (state : ArenaState) : Prop :=
  state.counters.expertMappingPublications<u64Max →
    state.counters.expertMappingPublications =
      state.counters.expertMappingUnpublications+state.residentSlots.card

lemma ArenaState.mem_residentSlots {state : ArenaState} {s : ℕ} :
    s ∈ state.residentSlots ↔ s<state.slotCapacity ∧ (state.owner s).isResident = true := by
  rw [residentSlots, Finset.mem_filter, Finset.mem_range]

/-- A slot that is resident neither before nor after leaves the resident slots alone. -/
lemma Frame.residentSlots_eq {a b : ExpertArena} {flat e : ℕ} (h : Frame a b flat e)
    (hbefore : (a.state.owner flat).isResident = false)
    (hafter : (b.state.owner flat).isResident = false) :
    b.state.residentSlots = a.state.residentSlots := by
  ext s
  rw [ArenaState.mem_residentSlots, ArenaState.mem_residentSlots, h.capacity]
  by_cases hs : s = flat
  · rw [hs, hbefore, hafter]
  · rw [h.owner hs]

lemma Counted.retire {a : ExpertArena} {flat : ℕ} {residency : ExpertResidency} (h : Tables a)
    (hcounted : a.state.Counted) (howner : a.state.owner flat = .resident residency) :
    (a.retireSlot flat residency.key.expertId).state.Counted := by
  intro hlt
  have hmem : flat ∈ a.state.residentSlots := by
    rw [ArenaState.mem_residentSlots, howner]
    exact ⟨h.capacity flat residency.key (by rw [howner]; rfl),rfl⟩
  have hslots : (a.retireSlot flat residency.key.expertId).state.residentSlots =
      a.state.residentSlots.erase flat := by
    ext s
    rw [Finset.mem_erase, ArenaState.mem_residentSlots, ArenaState.mem_residentSlots]
    by_cases hs : s = flat
    · subst hs
      have hfree : (a.retireSlot s residency.key.expertId).state.owner s = .free := by
        change ((a.state.release s residency.key.expertId).slots s).owner = _
        rw [a.slots_release s]
      rw [hfree]
      simp [SlotOwner.isResident]
    · rw [(a.retireSlot_frame flat _).owner hs]
      simp [hs, (a.retireSlot_frame flat residency.key.expertId).capacity]
  have hcount := hcounted hlt
  have hpos := Finset.card_pos.mpr ⟨flat,hmem⟩
  rw [hslots, Finset.card_erase_of_mem hmem]
  change a.state.counters.expertMappingPublications =
    min (a.state.counters.expertMappingUnpublications+1) u64Max+_
  change a.state.counters.expertMappingPublications<u64Max at hlt
  omega

lemma Counted.publish {a : ExpertArena} {permit : InstallPermit} {entry : MappingEntry}
    (h : Tables a) (hcounted : a.state.Counted) (hguard : Publishable a permit entry) :
    (a.publish permit entry).state.Counted := by
  intro hlt
  obtain ⟨-,-,hinstalling⟩ := hguard.current
  have hflat := h.capacity permit.flatSlot permit.key (by rw [hinstalling]; rfl)
  have hnot : permit.flatSlot ∉ a.state.residentSlots := by
    rw [ArenaState.mem_residentSlots, hinstalling]
    simp [SlotOwner.isResident]
  have hslots : (a.publish permit entry).state.residentSlots =
      insert permit.flatSlot a.state.residentSlots := by
    ext s
    rw [Finset.mem_insert, ArenaState.mem_residentSlots, ArenaState.mem_residentSlots]
    by_cases hs : s = permit.flatSlot
    · have hres : ((a.publish permit entry).state.owner s).isResident = true := by
        rw [hs, ArenaState.owner, ExpertArena.slots_publish]
        rfl
      rw [hres, hs, (a.publish_frame permit entry).capacity]
      simpa using hflat
    · rw [(a.publish_frame permit entry).owner hs]
      simp [hs, (a.publish_frame permit entry).capacity]
  have hpub : (a.publish permit entry).state.counters.expertMappingPublications =
      min (a.state.counters.expertMappingPublications+1) u64Max := rfl
  rw [hpub] at hlt ⊢
  have hcount := hcounted (by omega)
  rw [hslots, Finset.card_insert_of_notMem hnot]
  change _ = a.state.counters.expertMappingUnpublications+_
  omega

lemma Counted.released {a b : ExpertArena} (h : Tables a) (hcounted : a.state.Counted)
    (hrelease : Release a b) : b.state.Counted := by
  cases hrelease with
  | reject => exact hcounted
  | retire owner => exact Counted.retire h hcounted owner
  | @cancel flat slotEpoch ticket key owner =>
    have hfree : ((a.cancelSlot flat key.expertId).state.owner flat).isResident = false := by
      change ((a.state.release flat key.expertId).slots flat).owner.isResident = false
      rw [a.slots_release flat]
      rfl
    have hslots := (a.cancelSlot_frame flat key.expertId).residentSlots_eq (by rw [owner]; rfl) hfree
    intro hlt
    rw [hslots]
    exact hcounted hlt
  | raise => exact hcounted

theorem Counted.move {a b : ExpertArena} (h : Tables a) (hcounted : a.state.Counted)
    (hmove : Move a b) : b.state.Counted := by
  cases hmove with
  | release release => exact Counted.released h hcounted release
  | @occupy flat key guard =>
    have hinstalling : ((a.occupy flat key).state.owner flat).isResident = false := by
      rw [ArenaState.owner, a.slots_occupy]
      rfl
    have hslots := (a.occupy_frame flat key).residentSlots_eq (by rw [guard.free]; rfl) hinstalling
    intro hlt
    rw [hslots]
    exact hcounted hlt
  | publish guard => exact Counted.publish h hcounted guard

theorem Counted.moves {a b : ExpertArena} (h : Tables a) (hcounted : a.state.Counted)
    (hmoves : Moves a b) : b.state.Counted := by
  induction hmoves with
  | refl => exact hcounted
  | tail hmoves hmove ih => exact Counted.move (h.moves hmoves) ih hmove

/-- An acquire: releases, and then a reservation or none. -/
def AcquireMoves (a : ExpertArena) (key : ExpertKey)
    (outcome : ExpertArena × Except BootstrapError Acquire) : Prop :=
  ∃ b, Releases a b ∧
    (outcome.1 = b ∧ (∀ permit, outcome.2 ≠ .ok (.install permit)) ∨
      ∃ flat, Reservable b flat key ∧
        outcome = (b.occupy flat key,.ok (.install (b.permitFor flat key))))

lemma AcquireMoves.trans {a b : ExpertArena} {key : ExpertKey}
    {outcome : ExpertArena × Except BootstrapError Acquire} (hmoves : Releases a b)
    (h : AcquireMoves b key outcome) : AcquireMoves a key outcome := by
  obtain ⟨c,hc,houtcome⟩ := h
  exact ⟨c,hmoves.trans hc,houtcome⟩

namespace ExpertArena
variable {arena : ExpertArena}

/-- The slot of an expert is owned by a key of the expert. -/
lemma owner_of_logical (h : Tables arena) {e flat : ℕ}
    (hsome : arena.state.logicalSlots e = some flat) :
    ∃ key, (arena.state.owner flat).key? = some key ∧ key.expertId = e :=
  (h.logical e flat).mp hsome

/-- Arenas with the same slots, logical slots and mapping. -/
structure SameSlots (a b : ExpertArena) : Prop where
  releases : Releases a b
  layer : b.layerIndex = a.layerIndex
  geometry : b.geometry = a.geometry
  capacity : b.state.slotCapacity = a.state.slotCapacity
  slots : b.state.slots = a.state.slots
  logical : b.state.logicalSlots = a.state.logicalSlots
  mapping : b.mapping = a.mapping

/-- How an acquire ends for an expert without a slot. -/
inductive AbsentAcquire (a : ExpertArena) (key : ExpertKey) :
    ExpertArena × Except BootstrapError Acquire → Prop
  | error {b : ExpertArena} (same : SameSlots a b) (e : BootstrapError) :
      AbsentAcquire a key (b,.error e)
  | stale {b : ExpertArena} (same : SameSlots a b) : AbsentAcquire a key (b,.ok .staleRequester)
  | full {b : ExpertArena} (same : SameSlots a b)
      (full : ∀ s, s<a.state.slotCapacity → a.state.owner s ≠ .free) :
      AbsentAcquire a key (b,.ok .noPhysicalSlot)
  | granted {b : ExpertArena} {flat : ℕ} (same : SameSlots a b) (guard : Reservable b flat key)
      (first : a.state.freeSlot = some flat) :
      AbsentAcquire a key (b.occupy flat key,.ok (.install (b.permitFor flat key)))

lemma reserve_absent (h : Tables arena) {key : ExpertKey}
    (hlayer : key.layerIndex = arena.layerIndex) (hrange : key.expertId<arena.geometry.numExperts)
    (hnone : arena.state.logicalSlots key.expertId = none)
    (hnewer : ∀ latest, arena.state.latestGenerations key.expertId = some latest →
      latest ≤ key.logicalGeneration) :
    AbsentAcquire arena key (arena.reserve key) := by
  have hsame : SameSlots arena (arena.raiseGeneration key) :=
    ⟨.single (.raise hnone hnewer),rfl,rfl,rfl,rfl,rfl,rfl⟩
  unfold reserve
  dsimp only
  cases hfree : (arena.raiseGeneration key).state.freeSlot with
  | none =>
    dsimp only
    split
    · exact .error hsame _
    · rename_i hfull
      refine .full hsame fun s hs howner => ?_
      rw [List.find?_eq_none] at hfull
      have hnot := hfull s (List.mem_range.mpr hs)
      simp only [decide_eq_true_eq] at hnot
      exact hnot howner
  | some flat =>
    dsimp only
    split_ifs with hticket
    · exact .error hsame _
    · have hfind := List.find?_some hfree
      have hmem := List.mem_range.mp (List.mem_of_find?_eq_some hfree)
      simp only [decide_eq_true_eq] at hfind
      have hepoch := lt_of_le_of_ne (h.slot flat).bound hfind.2
      exact .granted hsame ⟨hmem,hfind.1,hepoch,hlayer,hrange,Function.update_self _ _ _,hnone⟩
        hfree

lemma AbsentAcquire.moves {a : ExpertArena} {key : ExpertKey}
    {outcome : ExpertArena × Except BootstrapError Acquire} (h : AbsentAcquire a key outcome) :
    AcquireMoves a key outcome := by
  cases h with
  | error same e => exact ⟨_,same.releases,.inl ⟨rfl,nofun⟩⟩
  | stale same => exact ⟨_,same.releases,.inl ⟨rfl,nofun⟩⟩
  | full same full => exact ⟨_,same.releases,.inl ⟨rfl,nofun⟩⟩
  | granted same guard first => exact ⟨_,same.releases,.inr ⟨_,guard,rfl⟩⟩

/-- Freeing the slot of a superseded generation and reserving for the newer one. -/
lemma supersede_moves (h : Tables arena) {b : ExpertArena} {key : ExpertKey} (hmove : Release arena b)
    (hlayer : key.layerIndex = b.layerIndex) (hrange : key.expertId<b.geometry.numExperts)
    (hnone : b.state.logicalSlots key.expertId = none)
    (hnewer : ∀ latest, b.state.latestGenerations key.expertId = some latest →
      latest ≤ key.logicalGeneration) :
    AcquireMoves arena key (b.reserve key) :=
  .trans (.single hmove) (reserve_absent (h.released hmove) hlayer hrange hnone hnewer).moves

theorem acquire_moves (h : Tables arena) (key : ExpertKey) :
    AcquireMoves arena key (arena.acquire key) := by
  have hstay : ∀ result : Except BootstrapError Acquire,
      (∀ permit, result ≠ .ok (.install permit)) → AcquireMoves arena key (arena,result) :=
    fun result hresult => ⟨arena,.refl,.inl ⟨rfl,hresult⟩⟩
  unfold acquire
  split_ifs with hlayer hrange hgeneration
  · exact hstay _ nofun
  · exact hstay _ nofun
  · exact hstay _ nofun
  replace hlayer := not_not.mp hlayer
  replace hrange := Nat.not_le.mp hrange
  cases hlatest : arena.state.latestGenerations key.expertId with
  | none =>
    dsimp only
    cases hlogical : arena.state.logicalSlots key.expertId with
    | none =>
      refine (reserve_absent h hlayer hrange hlogical fun latest hsome => ?_).moves
      rw [hlatest] at hsome
      cases hsome
    | some flat =>
      -- An expert with a slot has a generation.
      obtain ⟨owned,howned,he⟩ := owner_of_logical h hlogical
      have hsome := (h.slot flat).latest owned howned
      rw [he, hlatest] at hsome
      cases hsome
  | some latest =>
    have hle : ¬ key.logicalGeneration<latest → ∀ other,
        arena.state.latestGenerations key.expertId = some other → other ≤ key.logicalGeneration := by
      intro hlt other hother
      rw [hlatest] at hother
      cases hother
      exact Nat.not_lt.mp hlt
    dsimp only
    by_cases hstale : key.logicalGeneration<latest
    · rw [if_pos hstale]
      exact ⟨arena.rejectStale,.single (.reject arena),.inl ⟨rfl,nofun⟩⟩
    rw [if_neg hstale]
    cases hlogical : arena.state.logicalSlots key.expertId with
    | none => exact (reserve_absent h hlayer hrange hlogical (hle hstale)).moves
    | some flat =>
      obtain ⟨owned,howned,he⟩ := owner_of_logical h hlogical
      dsimp only
      split_ifs with hequal
      · refine hstay _ fun permit => ?_
        split
        · split_ifs <;> nofun
        · split_ifs <;> nofun
        · nofun
      · cases howner : arena.state.owner flat with
        | free =>
          rw [howner] at howned
          cases howned
        | installing installing slotEpoch ticket =>
          rw [howner] at howned
          cases howned
          have hmove := Release.cancel howner
          rw [he] at hmove
          exact supersede_moves h hmove hlayer hrange (Function.update_self _ _ _) (hle hstale)
        | resident residency =>
          rw [howner] at howned
          cases howned
          have hmove := Release.retire howner
          rw [he] at hmove
          exact supersede_moves h hmove hlayer hrange (Function.update_self _ _ _) (hle hstale)

theorem retire_moves (arena : ExpertArena) (key : ExpertKey) :
    Releases arena (arena.retire key).1 := by
  unfold retire
  split_ifs with hlayer hrange
  · exact .refl
  · exact .refl
  cases hlatest : arena.state.latestGenerations key.expertId with
  | none => exact .refl
  | some latest =>
    dsimp only
    split_ifs with hstale hequal
    · exact .refl
    · exact .refl
    cases hlogical : arena.state.logicalSlots key.expertId with
    | none => exact .refl
    | some flat =>
      dsimp only
      cases howner : arena.state.owner flat with
      | free => exact .refl
      | installing installing slotEpoch ticket =>
        dsimp only
        split_ifs with heq
        · subst heq
          exact .single (.cancel howner)
        · exact .refl
      | resident residency =>
        dsimp only
        split_ifs with heq
        · subst heq
          exact .single (.retire howner)
        · exact .refl

theorem cancelInstall_moves (h : Tables arena) (flat ticket : ℕ) :
    Releases arena (arena.cancelInstall flat ticket) := by
  unfold cancelInstall
  cases howner : arena.state.owner flat with
  | free => exact .refl
  | resident residency => exact .refl
  | installing key slotEpoch current =>
    dsimp only
    split_ifs with hticket hlogical
    · exact .single (.cancel howner)
    · exact absurd ((h.logical key.expertId flat).mpr ⟨key,by rw [howner]; rfl,rfl⟩) hlogical
    · exact .refl

/-- Dropping a current permit frees its slot. -/
lemma cancelInstall_eq {permit : InstallPermit} (hcurrent : permit.reservationCurrent arena.state) :
    arena.cancelInstall permit.flatSlot permit.installTicket =
      arena.cancelSlot permit.flatSlot permit.key.expertId := by
  obtain ⟨-,hlogical,howner⟩ := hcurrent
  have hfreed : (arena.state.setOwner permit.flatSlot .free).logicalSlots permit.key.expertId =
      some permit.flatSlot := hlogical
  unfold cancelInstall
  rw [howner]
  dsimp only
  rw [if_pos rfl, if_pos hfreed]
  rfl

/-- Retirement by a key that owns a slot looks at that slot. -/
lemma retire_owned (h : Tables arena) {flat : ℕ} {key : ExpertKey}
    (hkey : (arena.state.owner flat).key? = some key) :
    (∀ residency, arena.state.owner flat = .resident residency →
      arena.retire key = (arena.retireSlot flat key.expertId,.ok .retired)) ∧
    ∀ installing slotEpoch ticket,
      arena.state.owner flat = .installing installing slotEpoch ticket →
      arena.retire key = (arena.cancelSlot flat key.expertId,.ok .cancelledInstall) := by
  have hlogical := (h.logical key.expertId flat).mpr ⟨key,hkey,rfl⟩
  unfold retire
  rw [if_neg (not_not.mpr ((h.slot flat).layer key hkey)),
    if_neg (Nat.not_le.mpr ((h.slot flat).range key hkey)), (h.slot flat).latest key hkey]
  dsimp only
  rw [if_neg (lt_irrefl _), if_neg (not_not.mpr rfl), hlogical]
  dsimp only
  refine ⟨fun residency howner => ?_,fun installing slotEpoch ticket howner => ?_⟩
  · rw [howner] at hkey ⊢
    cases hkey
    exact if_pos rfl
  · rw [howner] at hkey ⊢
    cases hkey
    exact if_pos rfl

theorem acquire_absent (h : Tables arena) {key : ExpertKey}
    (hnone : arena.state.logicalSlots key.expertId = none) :
    AbsentAcquire arena key (arena.acquire key) := by
  have hstay : SameSlots arena arena := ⟨.refl,rfl,rfl,rfl,rfl,rfl,rfl⟩
  unfold acquire
  split_ifs with hlayer hrange hgeneration
  · exact .error hstay _
  · exact .error hstay _
  · exact .error hstay _
  replace hlayer := not_not.mp hlayer
  replace hrange := Nat.not_le.mp hrange
  rw [hnone]
  cases hlatest : arena.state.latestGenerations key.expertId with
  | none =>
    refine reserve_absent h hlayer hrange hnone fun latest hsome => ?_
    rw [hlatest] at hsome
    cases hsome
  | some latest =>
    dsimp only
    split_ifs with hstale
    · exact .stale ⟨.single (.reject arena),rfl,rfl,rfl,rfl,rfl,rfl⟩
    · refine reserve_absent h hlayer hrange hnone fun other hsome => ?_
      rw [hlatest] at hsome
      cases hsome
      exact Nat.not_lt.mp hstale

end ExpertArena

end MicroExpertRouter.Arena
