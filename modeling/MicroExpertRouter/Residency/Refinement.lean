import MicroExpertRouter.Residency.Calls

/-! The concurrent install path and the sequential one come to the same. Both publish the misses
in request order up to the first whose stage fails; the concurrent path has reserved all of them
by then and gives the rest back, the sequential path never asks for them. -/
namespace MicroExpertRouter.Residency
open Arena

/-- Only staging can fail: admissions stay current, uploads, copies and commits go through. -/
structure Environment.Undisturbed (env : Environment) : Prop where
  admission : ∀ x, env.admissionCurrent x = true
  upload : env.uploadState = .ok ()
  copies : env.copySubmit = .ok ()
  commit : ∀ x, env.commitGate x = .ok ()

lemma Environment.Undisturbed.takesBack {env : Environment} (h : env.Undisturbed) :
    env.TakesBack := by
  intro x hx
  rw [h.admission x] at hx
  cases hx

/-- What both paths make of the reserved misses: the recency list and the residencies found, up
to the first miss whose stage fails. -/
def settle (env : Environment) (geometry : ExpertGeometry) :
    List ReservedInstall → List (ℕ × PhysicalRecord) → (ℕ → Option ExpertResidency) →
      List (ℕ × PhysicalRecord) × Except TieredResidencyError (ℕ → Option ExpertResidency)
  | [], residents, resolved => (residents,.ok resolved)
  | install::rest, residents, resolved =>
    match stageOutcome env geometry install with
    | .error e => (residents,.error e)
    | .ok _ =>
      settle env geometry rest
        (Lru.put residents install.globalId ⟨install.permit.key,install.permit.residency⟩)
        (Function.update resolved install.globalId (some install.permit.residency))

lemma settle_cons_error {env : Environment} {geometry : ExpertGeometry} {install : ReservedInstall}
    {rest : List ReservedInstall} {residents : List (ℕ × PhysicalRecord)}
    {resolved : ℕ → Option ExpertResidency} {error : TieredResidencyError}
    (h : stageOutcome env geometry install = .error error) :
    settle env geometry (install::rest) residents resolved = (residents,.error error) := by
  unfold settle
  rw [h]

lemma settle_cons_ok {env : Environment} {geometry : ExpertGeometry} {install : ReservedInstall}
    {rest : List ReservedInstall} {residents : List (ℕ × PhysicalRecord)}
    {resolved : ℕ → Option ExpertResidency} {entry : MappingEntry}
    (h : stageOutcome env geometry install = .ok entry) :
    settle env geometry (install::rest) residents resolved = settle env geometry rest
      (Lru.put residents install.globalId ⟨install.permit.key,install.permit.residency⟩)
      (Function.update resolved install.globalId (some install.permit.residency)) := by
  rw [settle, h]

section Concurrent
variable {space : Namespace} {env : Environment} {layer : LayerResidency}

lemma commitStaged_settle {geometry : ExpertGeometry} {reserved : List ReservedInstall}
    {staged : ℕ → Except TieredResidencyError MappingEntry} {resolved : ℕ → Option ExpertResidency}
    (h : InStep space layer (survivors env geometry reserved))
    (hstaged : ∀ install ∈ reserved,
      staged install.globalId = stageOutcome env geometry install)
    (hreserved : ∀ install ∈ reserved, ReservedOk space layer.arena.layerIndex install)
    (henv : env.Undisturbed) :
    (commitStaged env staged reserved layer resolved).1.residents =
        (settle env geometry reserved layer.residents resolved).1 ∧
      (commitStaged env staged reserved layer resolved).2 =
        (settle env geometry reserved layer.residents resolved).2 := by
  induction reserved generalizing layer resolved with
  | nil => exact ⟨rfl,rfl⟩
  | cons install reserved ih =>
    obtain ⟨hthis,hrest⟩ := List.forall_mem_cons.mp hstaged
    obtain ⟨hok,hoks⟩ := List.forall_mem_cons.mp hreserved
    unfold commitStaged
    rw [hthis]
    cases houtcome : stageOutcome env geometry install with
    | error e =>
      rw [settle_cons_error houtcome]
      exact ⟨rfl,rfl⟩
    | ok entry =>
      rw [settle_cons_ok houtcome]
      rw [survivors_of_ok houtcome] at h
      have hcommit : layer.arena.commit install.permit entry =
          (layer.arena.publish install.permit entry,.ok install.permit.residency) :=
        if_pos (h.held.current install.permit List.mem_cons_self)
      dsimp only
      rw [henv.commit]
      dsimp only
      rw [hcommit]
      dsimp only
      rw [if_pos (henv.admission _), hok.key]
      exact ih (h.record (stageOutcome_ok houtcome) hok.globalId) hrest hoks

lemma installParallelMisses_settle {misses : List (ℕ × Source)} {arena : ExpertArena}
    {reserved : List ReservedInstall} {resolved : ℕ → Option ExpertResidency}
    (h : InStep space layer []) (hmisses : MissesOk space layer misses)
    (hroom : layer.residents.length+misses.length ≤ layer.arena.state.slotCapacity)
    (henv : env.Undisturbed)
    (hgranted : reserveMisses space env misses layer.arena [] = (arena,.ok reserved)) :
    (installParallelMisses space env layer misses resolved).1.residents =
        (settle env layer.arena.geometry reserved layer.residents resolved).1 ∧
      (installParallelMisses space env layer misses resolved).2 =
        (settle env layer.arena.geometry reserved layer.residents resolved).2 := by
  unfold installParallelMisses
  cases misses with
  | nil =>
    cases hgranted
    exact ⟨rfl,rfl⟩
  | cons miss misses =>
    rw [if_neg (by simp)]
    have hreserve := @reserveMisses_spec space env layer layer.arena (miss::misses) []
      (.start h hmisses hroom)
    rcases hreserve with ⟨b,error,hb,-⟩ | ⟨b,fresh,hb,hfresh,hfreshOk,hstep,hsame⟩
    · rw [hb] at hgranted
      cases hgranted
    · rw [List.nil_append] at hb hstep
      rw [hb] at hgranted
      cases hgranted
      have hnodup : (reserved.map ReservedInstall.globalId).Nodup := by
        have hids : reserved.map ReservedInstall.globalId = (miss::misses).map Prod.fst := by
          rw [← hfresh, List.map_map]
          rfl
        rw [hids]
        exact hmisses.nodup
      obtain ⟨c,results,hc,hstaged,hsame',hresults⟩ :=
        @InStep.stage space env layer arena reserved (fun globalId => .error (.demandSourceMissing globalId))
          hstep hnodup
      have hlayer : c.layerIndex = layer.arena.layerIndex := (hsame.trans hsame').layer
      rw [← hlayer] at hfreshOk
      rw [hb, henv.upload]
      dsimp only
      rw [hc, henv.copies]
      rw [← hsame.geometry]
      exact commitStaged_settle hstaged hresults hfreshOk henv

end Concurrent

/-- A slot on the concurrent and on the sequential path: installing on the one may be resident on
the other. -/
structure SlotAligned (x y : PhysicalSlot) : Prop where
  location : y.location = x.location
  epoch : y.lastEpoch = x.lastEpoch
  free : y.owner = .free ↔ x.owner = .free
  ever : x.owner = .free → y.everInstalled = x.everInstalled

/-- The arena of the concurrent path, with every miss so far reserved, beside the arena of the
sequential path, with every miss so far installed. -/
structure Aligned (a b : ExpertArena) : Prop where
  layer : b.layerIndex = a.layerIndex
  geometry : b.geometry = a.geometry
  capacity : b.state.slotCapacity = a.state.slotCapacity
  ticket : b.state.nextInstallTicket = a.state.nextInstallTicket
  latest : b.state.latestGenerations = a.state.latestGenerations
  logical : b.state.logicalSlots = a.state.logicalSlots
  slots : ∀ s, SlotAligned (a.state.slots s) (b.state.slots s)

namespace Aligned
variable {a b a' : ExpertArena} {key : ExpertKey} {permit : InstallPermit}

lemma refl (a : ExpertArena) : Aligned a a :=
  ⟨rfl,rfl,rfl,rfl,rfl,rfl,fun _ => ⟨rfl,rfl,Iff.rfl,fun _ => rfl⟩⟩

lemma raise (h : Aligned a b) (key : ExpertKey) :
    Aligned (a.raiseGeneration key) (b.raiseGeneration key) := by
  refine ⟨h.layer,h.geometry,h.capacity,h.ticket,?_,h.logical,h.slots⟩
  change Function.update b.state.latestGenerations _ _ = Function.update a.state.latestGenerations _ _
  rw [h.latest]

lemma freeSlot (h : Aligned a b) : b.state.freeSlot = a.state.freeSlot := by
  unfold ArenaState.freeSlot
  rw [h.capacity]
  congr 1
  funext s
  rw [decide_eq_decide, ArenaState.owner, (h.slots s).free, (h.slots s).epoch, ArenaState.owner]

lemma permitFor (h : Aligned a b) {flat : ℕ} (hfree : a.state.owner flat = .free) :
    b.permitFor flat key = a.permitFor flat key := by
  unfold ExpertArena.permitFor
  dsimp only
  rw [(h.slots flat).location, (h.slots flat).epoch, h.ticket, (h.slots flat).ever hfree]

lemma occupy (h : Aligned a b) (flat : ℕ) (key : ExpertKey) :
    Aligned (a.occupy flat key) (b.occupy flat key) := by
  refine ⟨h.layer,h.geometry,h.capacity,?_,h.latest,?_,fun s => ?_⟩
  · change b.state.nextInstallTicket+1 = a.state.nextInstallTicket+1
    rw [h.ticket]
  · change Function.update b.state.logicalSlots _ _ = Function.update a.state.logicalSlots _ _
    rw [h.logical]
  · by_cases hs : s = flat
    · rw [hs, a.slots_occupy, b.slots_occupy]
      refine ⟨(h.slots flat).location,?_,iff_of_false nofun nofun,nofun⟩
      dsimp only
      rw [(h.slots flat).epoch]
    · rw [(a.occupy_frame flat key).slots s hs, (b.occupy_frame flat key).slots s hs]
      exact h.slots s

/-- Installing on the sequential path what stays reserved on the concurrent one. -/
lemma publish (h : Aligned a b) (hreserved : a.state.owner permit.flatSlot ≠ .free)
    (entry : MappingEntry) : Aligned a (b.publish permit entry) := by
  refine ⟨h.layer,h.geometry,h.capacity,h.ticket,h.latest,h.logical,fun s => ?_⟩
  by_cases hs : s = permit.flatSlot
  · rw [hs, b.slots_publish]
    have hslot := h.slots permit.flatSlot
    exact ⟨hslot.location,hslot.epoch,iff_of_false nofun hreserved,fun hfree =>
      absurd hfree hreserved⟩
  · rw [(b.publish_frame permit entry).slots s hs]
    exact h.slots s

lemma reserve (h : Aligned a b) (hreserve : a.reserve key = (a',.ok (.install permit))) :
    ∃ b', b.reserve key = (b',.ok (.install permit)) ∧ Aligned a' b' := by
  have hraised := h.raise key
  unfold ExpertArena.reserve at hreserve ⊢
  dsimp only at hreserve ⊢
  rw [hraised.freeSlot, hraised.ticket]
  cases hfree : (a.raiseGeneration key).state.freeSlot with
  | none =>
    rw [hfree] at hreserve
    dsimp only at hreserve
    split at hreserve <;> cases hreserve
  | some flat =>
    rw [hfree] at hreserve
    dsimp only at hreserve ⊢
    split_ifs at hreserve ⊢ with hticket
    · cases hreserve
    obtain ⟨rfl,hpermit⟩ := Prod.mk.inj hreserve
    obtain rfl := Acquire.install.inj (Except.ok.inj hpermit)
    have hslot := List.find?_some hfree
    rw [decide_eq_true_eq] at hslot
    refine ⟨_,?_,hraised.occupy flat key⟩
    rw [hraised.permitFor hslot.1]

/-- A reservation granted on the concurrent path is granted on the sequential one. -/
lemma acquire (h : Aligned a b) (hnone : a.state.logicalSlots key.expertId = none)
    (hacquire : a.acquire key = (a',.ok (.install permit))) :
    ∃ b', b.acquire key = (b',.ok (.install permit)) ∧ Aligned a' b' := by
  unfold ExpertArena.acquire at hacquire ⊢
  rw [h.layer, h.geometry, h.latest, h.logical]
  split_ifs at hacquire ⊢ with hlayer hrange hgeneration
  · cases hacquire
  · cases hacquire
  · cases hacquire
  cases hlatest : a.state.latestGenerations key.expertId with
  | none =>
    rw [hlatest] at hacquire
    exact h.reserve hacquire
  | some latest =>
    rw [hlatest, hnone] at hacquire
    rw [hnone]
    dsimp only at hacquire ⊢
    split_ifs at hacquire ⊢ with hstale
    · cases hacquire
    · exact h.reserve hacquire

end Aligned

section Sequential
variable {space : Namespace} {env : Environment} {layer : LayerResidency}

lemma reserveOne_eq_ok {arena b : ExpertArena} {miss : ℕ × Source} {next : ReservedInstall}
    (h : reserveOne space env arena miss = (b,.ok next)) :
    ∃ key permit, space.expertKey miss.1 miss.2.generation = .ok key ∧
      env.acquireGate miss.1 = .ok () ∧ arena.acquire key = (b,.ok (.install permit)) ∧
      next = ⟨miss.1,miss.2,key,permit⟩ := by
  unfold reserveOne at h
  cases hkey : space.expertKey miss.1 miss.2.generation with
  | error e =>
    rw [hkey] at h
    cases h
  | ok key =>
    rw [hkey] at h
    dsimp only at h
    cases hgate : env.acquireGate miss.1 with
    | error e =>
      rw [hgate] at h
      cases h
    | ok _ =>
      rw [hgate] at h
      dsimp only at h
      split at h <;> cases h
      exact ⟨key,_,rfl,rfl,‹_›,rfl⟩

lemma reserveMisses_prefix {misses : List (ℕ × Source)} {arena b : ExpertArena}
    {reserved all : List ReservedInstall}
    (h : reserveMisses space env misses arena reserved = (b,.ok all)) :
    ∃ fresh, all = reserved++fresh := by
  induction misses generalizing arena reserved with
  | nil =>
    cases h
    exact ⟨[],(List.append_nil _).symm⟩
  | cons miss misses ih =>
    unfold reserveMisses at h
    split at h
    · cases h
    · obtain ⟨fresh,hfresh⟩ := ih h
      rw [List.append_assoc] at hfresh
      exact ⟨_,hfresh⟩

/-- An install for which the reservation is granted. -/
lemma installLocked_granted {miss : ℕ × Source} {key : ExpertKey} {b : ExpertArena}
    {permit : InstallPermit} (henv : env.Undisturbed)
    (hkey : space.expertKey miss.1 miss.2.generation = .ok key)
    (hgate : env.acquireGate miss.1 = .ok ())
    (hacquire : layer.arena.acquire key = (b,.ok (.install permit)))
    (hcurrent : permit.reservationCurrent b.state) :
    (∀ e, stageResult env b.geometry miss.1 permit miss.2.data = .error e →
      ∃ next, installLocked space env layer miss.1 miss.2 = (next,.error (.backend e)) ∧
        next.residents = layer.residents) ∧
    ∀ entry, stageResult env b.geometry miss.1 permit miss.2.data = .ok entry →
      installLocked space env layer miss.1 miss.2 =
        ((layer.setArena (b.publish permit entry)).record miss.1 key permit.residency,
          .ok permit.residency) := by
  unfold installLocked
  rw [hkey, hgate]
  dsimp only
  rw [hacquire]
  dsimp only
  rw [installPermit_eq hcurrent]
  constructor
  · intro e he
    rw [he]
    exact ⟨_,rfl,rfl⟩
  · intro entry hentry
    rw [hentry]
    change finishInstall env _ _ _ _ true = _
    unfold finishInstall
    rw [if_pos (henv.admission _)]
    rfl

lemma installSequential_settle {misses : List (ℕ × Source)} {arena b : ExpertArena}
    {reserved fresh : List ReservedInstall} {resolved : ℕ → Option ExpertResidency}
    (h : InStep space layer []) (hmisses : MissesOk space layer misses)
    (hroom : layer.residents.length+misses.length ≤ layer.arena.state.slotCapacity)
    (henv : env.Undisturbed) (haligned : Aligned arena layer.arena)
    (hgranted : reserveMisses space env misses arena reserved = (b,.ok (reserved++fresh))) :
    (installSequential space env misses layer resolved).1.residents =
        (settle env layer.arena.geometry fresh layer.residents resolved).1 ∧
      (installSequential space env misses layer resolved).2 =
        (settle env layer.arena.geometry fresh layer.residents resolved).2 := by
  induction misses generalizing layer arena reserved fresh resolved with
  | nil =>
    have hfresh : reserved = reserved++fresh := Except.ok.inj (Prod.mk.inj hgranted).2
    rw [List.self_eq_append_right] at hfresh
    rw [hfresh]
    exact ⟨rfl,rfl⟩
  | cons miss misses ih =>
    unfold reserveMisses at hgranted
    split at hgranted
    · cases hgranted
    rename_i next install hone
    obtain ⟨key,permit,hkey,hgate,hacquire,rfl⟩ := reserveOne_eq_ok hone
    obtain ⟨fresh',hfresh⟩ := reserveMisses_prefix hgranted
    rw [List.append_assoc] at hfresh
    obtain rfl : fresh = _ := List.append_cancel_left hfresh
    rw [List.singleton_append]
    obtain ⟨e,hidentity⟩ := hmisses.expert miss List.mem_cons_self
    have habsent := hmisses.absent miss List.mem_cons_self
    have hfree : layer.residents.length<layer.arena.state.slotCapacity := by
      rw [List.length_cons] at hroom
      omega
    rw [expertKey_eq hidentity] at hkey
    obtain rfl := Except.ok.inj hkey
    have hnone : arena.state.logicalSlots e = none := by
      rw [← haligned.logical]
      exact h.logical_none hidentity habsent nofun
    obtain ⟨taken,htaken,haligned'⟩ := haligned.acquire hnone hacquire
    have hstep := h.acquire miss.2.generation hidentity habsent nofun hfree
    rw [htaken] at hstep
    cases hstep with
    | permit key_eq step same =>
    have hcurrent : permit.reservationCurrent taken.state :=
      step.held.current permit List.mem_cons_self
    obtain ⟨hfail,hdone⟩ := installLocked_granted henv (expertKey_eq hidentity) hgate htaken hcurrent
    rw [same.geometry] at hfail hdone
    unfold installSequential
    cases hresult : stageResult env layer.arena.geometry miss.1 permit miss.2.data with
    | error error =>
      obtain ⟨last,hlast,hresidents⟩ := hfail error hresult
      have houtcome : ∀ key, stageOutcome env layer.arena.geometry ⟨miss.1,miss.2,key,permit⟩ =
          .error (.backend error) := fun _ => congrArg liftBackend hresult
      rw [hlast, settle_cons_error (houtcome _)]
      exact ⟨hresidents,rfl⟩
    | ok entry =>
      have houtcome : ∀ key, stageOutcome env layer.arena.geometry ⟨miss.1,miss.2,key,permit⟩ =
          .ok entry := fun _ => congrArg liftBackend hresult
      rw [hdone entry hresult, settle_cons_ok (houtcome _)]
      have hglobal : miss.1 = (layer.setArena taken).arena.layerIndex*space.expertsPerLayer+
          permit.key.expertId := by
        change miss.1 = taken.layerIndex*_+_
        rw [same.layer, key_eq]
        exact (Namespace.identity_eq_ok hidentity).2.2.2
      have hrecorded := step.record (stageResult_ok hresult) hglobal
      rw [key_eq] at hrecorded
      have hframe := same.toSameFrame.trans (.of_frame (taken.publish_frame permit entry))
      obtain ⟨hrest,hlength⟩ := @MissesOk.installed space layer miss misses _ _ hmisses hframe
        (rfl : ((layer.setArena (taken.publish permit entry)).record miss.1 _ _).residents = _) hroom
      have hheld : next.state.owner permit.flatSlot ≠ .free := by
        intro hempty
        have hempty := ((haligned'.slots permit.flatSlot).free).mpr hempty
        change taken.state.owner permit.flatSlot = .free at hempty
        rw [hcurrent.2.2] at hempty
        cases hempty
      have hlast := @ih _ next (reserved++[_]) fresh' (Function.update resolved miss.1
        (some permit.residency)) hrecorded hrest hlength (haligned'.publish hheld entry) (by
          rw [List.append_assoc]
          exact hgranted)
      have hgeometry : (taken.publish permit entry).geometry = layer.arena.geometry := same.geometry
      dsimp only
      rw [key_eq, ← hgeometry]
      exact hlast

end Sequential

/-- What readers of a layer see: its recency list, the published mapping and the slots of its
experts. -/
structure SameView (a b : LayerResidency) : Prop where
  residents : a.residents = b.residents
  mapping : a.arena.mapping = b.arena.mapping
  logicalSlots : a.arena.state.logicalSlots = b.arena.state.logicalSlots

section View
variable {space : Namespace} {layer : LayerResidency}

lemma InStep.mapping_eq (h : InStep space layer []) {globalId : ℕ} {record : PhysicalRecord}
    (hmem : (globalId,record) ∈ layer.residents) :
    record.residency.mappingEntry = .ok (layer.arena.mapping record.key.expertId) := by
  obtain ⟨hkey,-,s,howner⟩ := (h.recorded globalId record).mp hmem
  rw [hkey]
  exact h.held.tables.mapped s record.residency howner

lemma InStep.slot_eq (h : InStep space layer []) {globalId : ℕ} {record : PhysicalRecord}
    (hmem : (globalId,record) ∈ layer.residents) :
    ∃ s, layer.arena.state.logicalSlots record.key.expertId = some s ∧
      s<layer.arena.state.slotCapacity ∧
      (layer.arena.state.slots s).location = record.residency.location := by
  obtain ⟨hkey,-,s,howner⟩ := (h.recorded globalId record).mp hmem
  have howned : (layer.arena.state.owner s).key? = some record.key := by
    rw [howner, hkey]
    rfl
  exact ⟨s,(h.held.tables.logical _ s).mpr ⟨record.key,howned,rfl⟩,
    h.held.tables.capacity s _ howned,((h.held.tables.slot s).location _ howner).symm⟩

/-- An expert without a record has neither a mapping nor a slot. -/
lemma InStep.unrecorded (h : InStep space layer []) {e : ℕ}
    (hnone : ∀ entry ∈ layer.residents, entry.2.key.expertId ≠ e) :
    layer.arena.mapping e = .unmapped ∧ layer.arena.state.logicalSlots e = none := by
  have hfree : ∀ s residency, layer.arena.state.owner s = .resident residency →
      residency.key.expertId ≠ e := fun s residency howner =>
    hnone _ ((h.recorded _ ⟨residency.key,residency⟩).mpr ⟨rfl,rfl,s,howner⟩)
  refine ⟨h.held.tables.unmapped e hfree,?_⟩
  cases hlogical : layer.arena.state.logicalSlots e with
  | none => rfl
  | some s =>
    obtain ⟨key,hkey,rfl⟩ := (h.held.tables.logical e s).mp hlogical
    cases howner : layer.arena.state.owner s with
    | free =>
      rw [howner] at hkey
      cases hkey
    | installing installing slotEpoch ticket =>
      obtain ⟨permit,hmem,-⟩ := h.held.installing s installing slotEpoch ticket howner
      cases hmem
    | resident residency =>
      rw [howner] at hkey
      cases hkey
      exact absurd rfl (hfree s residency howner)

/-- Layers in step with the same recency list over the same slots look the same. -/
lemma InStep.sameView {a b : LayerResidency} (ha : InStep space a []) (hb : InStep space b [])
    (hframe : SameFrame a.arena b.arena) (hresidents : a.residents = b.residents) :
    SameView a b := by
  have hall : ∀ e, a.arena.mapping e = b.arena.mapping e ∧
      a.arena.state.logicalSlots e = b.arena.state.logicalSlots e := by
    intro e
    by_cases hnone : ∀ entry ∈ a.residents, entry.2.key.expertId ≠ e
    · have hnone' := hnone
      rw [hresidents] at hnone'
      rw [(ha.unrecorded hnone).1, (hb.unrecorded hnone').1, (ha.unrecorded hnone).2,
        (hb.unrecorded hnone').2]
      exact ⟨rfl,rfl⟩
    · push Not at hnone
      obtain ⟨⟨globalId,record⟩,hmem,rfl⟩ := hnone
      have hmem' := hmem
      rw [hresidents] at hmem'
      refine ⟨Except.ok.inj ((ha.mapping_eq hmem).symm.trans (hb.mapping_eq hmem')),?_⟩
      obtain ⟨s,hs,hcapacity,hlocation⟩ := ha.slot_eq hmem
      obtain ⟨t,ht,hcapacity',hlocation'⟩ := hb.slot_eq hmem'
      rw [hs, ht, ha.held.tables.distinct s t hcapacity (hframe.capacity ▸ hcapacity') ?_]
      rw [hlocation, ← hframe.location, hlocation']
  exact ⟨hresidents,funext fun e => (hall e).1,funext fun e => (hall e).2⟩

end View

section Demand
variable {space : Namespace} {env : Environment} {layer : LayerResidency}

/-- A failed demand stopped at the first miss whose stage fails: exactly the misses before it are
resident. -/
def Stopped (env : Environment) (geometry : ExpertGeometry) (reserved : List ReservedInstall)
    (residents : List (ℕ × PhysicalRecord)) (error : TieredResidencyError) : Prop :=
  ∃ before failing after, reserved = before++failing::after ∧
    (∀ install ∈ before, ∃ entry, stageOutcome env geometry install = .ok entry) ∧
    stageOutcome env geometry failing = .error error ∧
    ∀ install ∈ reserved, (∃ record, (install.globalId,record) ∈ residents) ↔ install ∈ before

lemma settle_error {geometry : ExpertGeometry} {reserved : List ReservedInstall}
    {residents : List (ℕ × PhysicalRecord)} {resolved : ℕ → Option ExpertResidency}
    {error : TieredResidencyError}
    (h : (settle env geometry reserved residents resolved).2 = .error error) :
    ∃ before failing after, reserved = before++failing::after ∧
      (∀ install ∈ before, ∃ entry, stageOutcome env geometry install = .ok entry) ∧
      stageOutcome env geometry failing = .error error ∧
      ∀ x, (∃ record, (x,record) ∈ (settle env geometry reserved residents resolved).1) ↔
        x ∈ before.map ReservedInstall.globalId ∨ ∃ record, (x,record) ∈ residents := by
  induction reserved generalizing residents resolved with
  | nil => cases h
  | cons install reserved ih =>
    cases houtcome : stageOutcome env geometry install with
    | error e =>
      rw [settle_cons_error houtcome] at h ⊢
      cases h
      exact ⟨[],install,reserved,rfl,nofun,houtcome,fun x => by simp⟩
    | ok entry =>
      rw [settle_cons_ok houtcome] at h ⊢
      obtain ⟨before,failing,after,rfl,hbefore,hfailing,hresident⟩ := ih h
      refine ⟨install::before,failing,after,rfl,
        List.forall_mem_cons.mpr ⟨⟨entry,houtcome⟩,hbefore⟩,hfailing,fun x => ?_⟩
      rw [hresident x, List.map_cons, List.mem_cons]
      constructor
      · rintro (hx | ⟨record,hrecord⟩)
        · exact .inl (.inr hx)
        · rcases Lru.mem_put.mp hrecord with heq | ⟨hmem,-⟩
          · exact .inl (.inl (Prod.mk.inj heq).1)
          · exact .inr ⟨record,hmem⟩
      · rintro ((rfl | hx) | ⟨record,hmem⟩)
        · exact .inr ⟨_,List.mem_cons_self⟩
        · exact .inl hx
        · by_cases hx : x = install.globalId
          · subst hx
            exact .inr ⟨_,List.mem_cons_self⟩
          · exact .inr ⟨record,Lru.mem_put.mpr (.inr ⟨hmem,hx⟩)⟩

/-- Every reservation that the demand asks for is granted. -/
def Grants (space : Namespace) (env : Environment) (layer : LayerResidency)
    (demands : List DemandExpert) : Prop :=
  ∀ ready resolved misses, prepareDemand space env layer demands = (ready,.ok (resolved,misses)) →
    ∃ arena reserved, reserveMisses space env misses ready.arena [] = (arena,.ok reserved)

/-- The reservations are for the misses, in request order. -/
lemma reserveMisses_misses {misses : List (ℕ × Source)} {arena : ExpertArena}
    {reserved : List ReservedInstall} (h : InStep space layer [])
    (hmisses : MissesOk space layer misses)
    (hroom : layer.residents.length+misses.length ≤ layer.arena.state.slotCapacity)
    (hgranted : reserveMisses space env misses layer.arena [] = (arena,.ok reserved)) :
    reserved.map (fun install => (install.globalId,install.source)) = misses := by
  have hreserve := @reserveMisses_spec space env layer layer.arena misses [] (.start h hmisses hroom)
  rcases hreserve with ⟨b,error,hb,-⟩ | ⟨b,fresh,hb,hfresh,-⟩
  · rw [hb] at hgranted
    cases hgranted
  · rw [hb] at hgranted
    cases hgranted
    exact hfresh

/-- Both paths settle the reserved misses. -/
lemma installMisses_settle {path : InstallPath} {misses : List (ℕ × Source)} {arena : ExpertArena}
    {reserved : List ReservedInstall} {resolved : ℕ → Option ExpertResidency}
    (h : InStep space layer []) (hmisses : MissesOk space layer misses)
    (hroom : layer.residents.length+misses.length ≤ layer.arena.state.slotCapacity)
    (henv : env.Undisturbed)
    (hgranted : reserveMisses space env misses layer.arena [] = (arena,.ok reserved)) :
    (installMisses space env path layer misses resolved).1.residents =
        (settle env layer.arena.geometry reserved layer.residents resolved).1 ∧
      (installMisses space env path layer misses resolved).2 =
        (settle env layer.arena.geometry reserved layer.residents resolved).2 := by
  unfold installMisses
  split_ifs
  · exact installParallelMisses_settle h hmisses hroom henv hgranted
  · exact installSequential_settle h hmisses hroom henv (.refl _) hgranted

/-- With every requested expert resolved the collection succeeds. -/
lemma collectResolved_of_resolved {resolved : ℕ → Option ExpertResidency}
    {demands : List DemandExpert}
    (h : ∀ demand ∈ demands, ∃ residency, resolved demand.globalId = some residency) :
    ∃ residencies, collectResolved resolved demands = .ok residencies := by
  induction demands with
  | nil => exact ⟨[],rfl⟩
  | cons demand demands ih =>
    obtain ⟨⟨residency,hresidency⟩,hrest⟩ := List.forall_mem_cons.mp h
    obtain ⟨residencies,hresidencies⟩ := ih hrest
    refine ⟨residency::residencies,?_⟩
    unfold collectResolved at hresidencies ⊢
    rw [List.mapM_cons, hresidencies, hresidency]
    rfl

/-- Where a failed install stopped, seen from the layer that was ready for it. -/
lemma stopped_of_settle {misses : List (ℕ × Source)} {reserved : List ReservedInstall}
    {resolved : ℕ → Option ExpertResidency} {error : TieredResidencyError}
    (hmisses : MissesOk space layer misses)
    (hreserved : reserved.map (fun install => (install.globalId,install.source)) = misses)
    (h : (settle env layer.arena.geometry reserved layer.residents resolved).2 = .error error) :
    Stopped env layer.arena.geometry reserved
      (settle env layer.arena.geometry reserved layer.residents resolved).1 error := by
  obtain ⟨before,failing,after,hsplit,hbefore,hfailing,hresident⟩ := settle_error h
  refine ⟨before,failing,after,hsplit,hbefore,hfailing,fun install hmem => ?_⟩
  have hids : reserved.map ReservedInstall.globalId = misses.map Prod.fst := by
    rw [← hreserved, List.map_map]
    rfl
  have habsent : ¬ ∃ record, (install.globalId,record) ∈ layer.residents := by
    rintro ⟨record,hrecord⟩
    have hmiss : (install.globalId,install.source) ∈ misses := by
      rw [← hreserved]
      exact List.mem_map.mpr ⟨install,hmem,rfl⟩
    exact hmisses.absent _ hmiss record hrecord
  rw [hresident, or_iff_left habsent]
  constructor
  · intro hid
    obtain ⟨other,hother,heq⟩ := List.mem_map.mp hid
    have hnodup : (reserved.map ReservedInstall.globalId).Nodup := by
      rw [hids]
      exact hmisses.nodup
    have hmem' : other ∈ reserved := by
      rw [hsplit]
      exact List.mem_append_left _ hother
    rw [← List.inj_on_of_nodup_map hnodup hmem' hmem heq]
    exact hother
  · exact fun hbefore => List.mem_map_of_mem hbefore

/-- The concurrent path refines the sequential one, and indeed any path any other: the same
answer, the same view of the layer, and after a failed install exactly the misses before the
first failing one are resident. -/
theorem demandLocked_concurrent_refines {demands : List DemandExpert}
    {concurrent sequential : InstallPath} (h : InStep space layer [])
    (hchecked : checkDemands space env layer.arena.layerIndex [] demands = .ok ())
    (hcapacity : demands.length ≤ layer.arena.state.slotCapacity) (henv : env.Undisturbed)
    (hgranted : Grants space env layer demands) :
    (demandLocked space env concurrent layer demands).2 =
        (demandLocked space env sequential layer demands).2 ∧
      SameView (demandLocked space env concurrent layer demands).1
        (demandLocked space env sequential layer demands).1 ∧
      ∀ ready resolved misses arena reserved error,
        prepareDemand space env layer demands = (ready,.ok (resolved,misses)) →
        reserveMisses space env misses ready.arena [] = (arena,.ok reserved) →
        (demandLocked space env concurrent layer demands).2 = .error error →
        reserved.map (fun install => (install.globalId,install.source)) = misses ∧
          Stopped env ready.arena.geometry reserved
            (demandLocked space env concurrent layer demands).1.residents error := by
  obtain ⟨hnodup,hexperts⟩ := checkDemands_ok hchecked
  have hprepared := (@prepareDemand_spec space env layer demands h hnodup
    (fun demand hmem => (hexperts demand hmem).2) hcapacity).2
  unfold demandLocked
  unfold Grants at hgranted
  generalize prepareDemand space env layer demands = prepared at hprepared hgranted ⊢
  obtain ⟨ready,preparation⟩ := prepared
  cases preparation with
  | error e =>
    refine ⟨rfl,⟨rfl,rfl,rfl⟩,?_⟩
    rintro _ _ _ _ _ _ ⟨⟩
  | ok pair =>
    obtain ⟨resolved,misses⟩ := pair
    have hready := hprepared resolved misses rfl
    obtain ⟨arena,reserved,hreserved⟩ := hgranted ready resolved misses rfl
    have hparallel := @installMisses_settle space env ready concurrent misses arena reserved resolved
      hready.inStep hready.absent hready.room henv hreserved
    have hserial := @installMisses_settle space env ready sequential misses arena reserved resolved
      hready.inStep hready.absent hready.room henv hreserved
    have hinstalled := @installMisses_spec space env ready concurrent misses resolved hready.inStep
      hready.absent hready.room henv.takesBack
    have hinstalled' := @installMisses_spec space env ready sequential misses resolved hready.inStep
      hready.absent hready.room henv.takesBack
    have hmisses := reserveMisses_misses hready.inStep hready.absent hready.room hreserved
    dsimp only at hready ⊢
    generalize installMisses space env concurrent ready misses resolved = parallel
      at hparallel hinstalled
    generalize installMisses space env sequential ready misses resolved = serial
      at hserial hinstalled'
    obtain ⟨last,result⟩ := parallel
    obtain ⟨last',result'⟩ := serial
    have hview : SameView last last' := hinstalled.inStep.sameView hinstalled'.inStep
      (hinstalled.frame.symm.trans hinstalled'.frame) (hparallel.1.trans hserial.1.symm)
    have hsame : result' = result := hserial.2.trans hparallel.2.symm
    subst hsame
    cases result' with
    | error e =>
      refine ⟨rfl,hview,?_⟩
      rintro _ _ _ _ _ _ ⟨⟩ hagain ⟨⟩
      rw [hreserved] at hagain
      cases hagain
      have hstopped := @stopped_of_settle space env ready misses reserved resolved e hready.absent
        hmisses hparallel.2.symm
      rw [← hparallel.1] at hstopped
      exact ⟨hmisses,hstopped⟩
    | ok final =>
      have hresolved : ∀ demand ∈ demands, ∃ residency, final demand.globalId = some residency := by
        intro demand hdemand
        by_cases hmiss : demand.globalId ∈ misses.map Prod.fst
        · obtain ⟨record,-,hfinal⟩ := hinstalled.resident final rfl _ hmiss
          exact ⟨_,hfinal⟩
        · rcases hready.hit _ (List.mem_map_of_mem hdemand) with hmem | ⟨record,-,hfound⟩
          · exact absurd hmem hmiss
          · refine ⟨record.residency,?_⟩
            rw [hinstalled.other final rfl _ hmiss, hfound]
      obtain ⟨residencies,hcollect⟩ := collectResolved_of_resolved hresolved
      refine ⟨rfl,hview,fun _ _ _ _ _ error _ _ hfailed => ?_⟩
      dsimp only at hfailed
      rw [hcollect] at hfailed
      cases hfailed

/-- Two misses, the second of which fails to stage. -/
def smallDemands : List DemandExpert :=
  [.install 0 (Manager.smallSource 0),.install 1 (Manager.smallSource 1)]

theorem demandLocked_concurrent_refines_failing :
    ∃ layer, Manager.emptyLayer smallGeometry ⟨64,64⟩ 2 0 = .ok layer ∧
      (demandLocked ⟨1,2⟩ (Manager.smallEnvironment [1]) .productionConcurrentDirectStaging layer
          smallDemands).2 =
        (demandLocked ⟨1,2⟩ (Manager.smallEnvironment [1]) .sequentialDirectStagingControl layer
          smallDemands).2 ∧
      SameView
        (demandLocked ⟨1,2⟩ (Manager.smallEnvironment [1]) .productionConcurrentDirectStaging layer
          smallDemands).1
        (demandLocked ⟨1,2⟩ (Manager.smallEnvironment [1]) .sequentialDirectStagingControl layer
          smallDemands).1 := by
  refine ⟨_,rfl,?_⟩
  have hrefines := @demandLocked_concurrent_refines ⟨1,2⟩ (Manager.smallEnvironment [1]) _
    smallDemands .productionConcurrentDirectStaging .sequentialDirectStagingControl
    (@Manager.emptyLayer_inStep smallGeometry ⟨64,64⟩ 2 0 _ ⟨1,2⟩ rfl rfl (by decide) rfl).2 rfl
    (by decide) ⟨fun _ => rfl,rfl,rfl,fun _ => rfl⟩ (by
      intro ready resolved misses hready
      obtain ⟨rfl,hpair⟩ := Prod.mk.inj (Eq.trans rfl hready)
      obtain ⟨rfl,rfl⟩ := Prod.mk.inj (Except.ok.inj hpair)
      exact ⟨_,_,rfl⟩)
  exact ⟨hrefines.1,hrefines.2.1⟩

end Demand

end MicroExpertRouter.Residency
