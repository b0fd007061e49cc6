import MicroExpertRouter.Residency.Transaction

/-! Every call of the residency manager leaves its layers in step, whatever fails on the way:
each early return drops the permits it still holds. -/
namespace MicroExpertRouter.Residency
open Arena

/-- The errors that would show metadata and arena apart. -/
def TieredResidencyError.inconsistent : TieredResidencyError → Bool
  | physicalIdentityCorrupt _ => true
  | noEvictablePhysicalSlot _ => true
  | installInProgress _ _ => true
  | noPhysicalSlot _ => true
  | _ => false

/-- A publication that came too late can be retired: the device is not lost in between. -/
def Environment.TakesBack (env : Environment) : Prop :=
  ∀ x, env.admissionCurrent x = false → env.retireGate x = .ok ()

/-- A reservation with the id and the key of its expert. -/
structure ReservedOk (space : Namespace) (layerIndex : ℕ) (reserved : ReservedInstall) : Prop where
  key : reserved.key = reserved.permit.key
  globalId : reserved.globalId = layerIndex*space.expertsPerLayer+reserved.permit.key.expertId

/-- The misses of a demand: experts of the layer, each once, none of them recorded. -/
structure MissesOk (space : Namespace) (layer : LayerResidency) (misses : List (ℕ × Source)) :
    Prop where
  expert : ∀ miss ∈ misses, ∃ e, space.identity miss.1 = .ok ⟨layer.arena.layerIndex,e⟩
  absent : ∀ miss ∈ misses, ∀ record, (miss.1,record) ∉ layer.residents
  nodup : (misses.map Prod.fst).Nodup

lemma expertKey_eq {space : Namespace} {globalId generation : ℕ} {expert : LayerExpertId}
    (h : space.identity globalId = .ok expert) :
    space.expertKey globalId generation =
      .ok ⟨expert.layerIndex,expert.localExpertId,generation⟩ := by
  unfold Namespace.expertKey
  rw [h]
  rfl

/-- Acquiring an expert that is neither recorded nor being installed, with room left. -/
inductive Granted (space : Namespace) (layer : LayerResidency) (permits : List InstallPermit)
    (key : ExpertKey) : ExpertArena × Except BootstrapError Acquire → Prop
  | error {b : ExpertArena} (error : BootstrapError)
      (step : InStep space (layer.setArena b) permits) (same : SameResidents layer.arena b) :
      Granted space layer permits key (b,.error error)
  | stale {b : ExpertArena} (step : InStep space (layer.setArena b) permits)
      (same : SameResidents layer.arena b) : Granted space layer permits key (b,.ok .staleRequester)
  | permit {b : ExpertArena} {permit : InstallPermit} (key_eq : permit.key = key)
      (step : InStep space (layer.setArena b) (permit::permits))
      (same : SameResidents layer.arena b) : Granted space layer permits key (b,.ok (.install permit))

lemma InStep.acquire {space : Namespace} {layer : LayerResidency} {permits : List InstallPermit}
    (h : InStep space layer permits) {globalId e : ℕ} (generation : ℕ)
    (hidentity : space.identity globalId = .ok ⟨layer.arena.layerIndex,e⟩)
    (habsent : ∀ record, (globalId,record) ∉ layer.residents)
    (hfree : ∀ permit ∈ permits, permit.key.expertId ≠ e)
    (hroom : layer.residents.length+permits.length<layer.arena.state.slotCapacity) :
    Granted space layer permits ⟨layer.arena.layerIndex,e,generation⟩
      (layer.arena.acquire ⟨layer.arena.layerIndex,e,generation⟩) := by
  have hstep : ∀ b : ExpertArena, ExpertArena.SameSlots layer.arena b →
      InStep space (layer.setArena b) permits := fun b hsame =>
    h.setArena (h.held.sameSlots hsame) (.of_sameSlots hsame)
  have hacquire := @ExpertArena.acquire_absent layer.arena h.held.tables
    ⟨layer.arena.layerIndex,e,generation⟩ (h.logical_none hidentity habsent hfree)
  generalize layer.arena.acquire ⟨layer.arena.layerIndex,e,generation⟩ = outcome at hacquire ⊢
  cases hacquire with
  | @error b same error => exact .error error (hstep b same) (.of_sameSlots same)
  | @stale b same => exact .stale (hstep b same) (.of_sameSlots same)
  | full same full =>
    obtain ⟨s,hs,hempty⟩ := h.exists_free hroom
    exact absurd hempty (full s hs)
  | @granted b flat same guard first =>
    obtain ⟨hnext,hsame⟩ := (h.held.sameSlots same).occupy guard
    have hall := (SameResidents.of_sameSlots same).trans hsame
    exact .permit rfl (h.setArena hnext hall) hall

section Reserve
variable {space : Namespace} {env : Environment} {layer : LayerResidency} {arena : ExpertArena}

/-- One reservation: the only refusals are those of the executor and stale requesters. -/
lemma reserveOne_spec {permits : List InstallPermit} {miss : ℕ × Source} {e : ℕ}
    (h : InStep space (layer.setArena arena) permits)
    (hidentity : space.identity miss.1 = .ok ⟨arena.layerIndex,e⟩)
    (habsent : ∀ record, (miss.1,record) ∉ layer.residents)
    (hfree : ∀ permit ∈ permits, permit.key.expertId ≠ e)
    (hroom : layer.residents.length+permits.length<arena.state.slotCapacity) :
    (∃ b error, reserveOne space env arena miss = (b,.error error) ∧
      error.inconsistent = false ∧ InStep space (layer.setArena b) permits ∧
      SameResidents arena b) ∨
    ∃ b permit, reserveOne space env arena miss =
        (b,.ok ⟨miss.1,miss.2,⟨arena.layerIndex,e,miss.2.generation⟩,permit⟩) ∧
      permit.key = ⟨arena.layerIndex,e,miss.2.generation⟩ ∧
      InStep space (layer.setArena b) (permit::permits) ∧ SameResidents arena b := by
  have hacquire : Granted space (layer.setArena arena) permits _ (arena.acquire
    ⟨arena.layerIndex,e,miss.2.generation⟩) :=
    h.acquire miss.2.generation hidentity habsent hfree hroom
  unfold reserveOne
  rw [expertKey_eq hidentity]
  dsimp only
  cases env.acquireGate miss.1 with
  | error error => exact .inl ⟨arena,_,rfl,rfl,h,.refl arena⟩
  | ok _ =>
    dsimp only
    generalize arena.acquire ⟨arena.layerIndex,e,miss.2.generation⟩ = outcome at hacquire
    cases hacquire with
    | error error step same => exact .inl ⟨_,_,rfl,rfl,step,same⟩
    | stale step same => exact .inl ⟨_,_,rfl,rfl,step,same⟩
    | permit key_eq step same => exact .inr ⟨_,_,rfl,key_eq,step,same⟩

/-- The reservation loop on its way: some misses are reserved, the others are still to come. -/
structure Reserving (space : Namespace) (layer : LayerResidency) (arena : ExpertArena)
    (misses : List (ℕ × Source)) (reserved : List ReservedInstall) : Prop where
  inStep : InStep space (layer.setArena arena) (reserved.map ReservedInstall.permit)
  missesOk : MissesOk space (layer.setArena arena) misses
  reservedOk : ∀ install ∈ reserved, ReservedOk space arena.layerIndex install
  apart : ∀ install ∈ reserved, ∀ miss ∈ misses, install.globalId ≠ miss.1
  room : layer.residents.length+reserved.length+misses.length ≤ arena.state.slotCapacity

namespace Reserving
variable {misses : List (ℕ × Source)} {reserved : List ReservedInstall} {miss : ℕ × Source} {e : ℕ}

lemma start (h : InStep space layer []) (hmisses : MissesOk space layer misses)
    (hroom : layer.residents.length+misses.length ≤ layer.arena.state.slotCapacity) :
    Reserving space layer layer.arena misses [] :=
  ⟨h,hmisses,nofun,nofun,hroom⟩

/-- The next miss has no permit yet. -/
lemma free (h : Reserving space layer arena (miss::misses) reserved)
    (hidentity : space.identity miss.1 = .ok ⟨arena.layerIndex,e⟩) :
    ∀ permit ∈ reserved.map ReservedInstall.permit, permit.key.expertId ≠ e := by
  intro permit hmem heq
  obtain ⟨install,hinstall,rfl⟩ := List.mem_map.mp hmem
  have hid := (h.reservedOk install hinstall).globalId
  rw [heq] at hid
  exact h.apart install hinstall miss List.mem_cons_self
    (hid.trans (Namespace.identity_eq_ok hidentity).2.2.2.symm)

/-- There is a slot for the next miss. -/
lemma roomNext (h : Reserving space layer arena (miss::misses) reserved) :
    layer.residents.length+(reserved.map ReservedInstall.permit).length<
      arena.state.slotCapacity := by
  have hroom := h.room
  rw [List.length_cons] at hroom
  rw [List.length_map]
  omega

/-- The next miss gets its permit. -/
lemma next (h : Reserving space layer arena (miss::misses) reserved) {b : ExpertArena}
    {permit : InstallPermit} (hidentity : space.identity miss.1 = .ok ⟨arena.layerIndex,e⟩)
    (hkey : permit.key = ⟨arena.layerIndex,e,miss.2.generation⟩)
    (hstep : InStep space (layer.setArena b) (permit::reserved.map ReservedInstall.permit))
    (hsame : SameResidents arena b) :
    Reserving space layer b misses
      (reserved++[⟨miss.1,miss.2,⟨arena.layerIndex,e,miss.2.generation⟩,permit⟩]) := by
  set install : ReservedInstall :=
    ⟨miss.1,miss.2,⟨arena.layerIndex,e,miss.2.generation⟩,permit⟩ with hinstall
  have hinstallOk : ReservedOk space arena.layerIndex install := by
    refine ⟨hkey.symm,?_⟩
    change miss.1 = _+permit.key.expertId
    rw [hkey]
    exact (Namespace.identity_eq_ok hidentity).2.2.2
  have hpermits : (permit::reserved.map ReservedInstall.permit).Perm
      ((reserved++[install]).map ReservedInstall.permit) := by
    rw [List.map_append]
    exact (List.perm_append_singleton _ _).symm
  have hnodup := h.missesOk.nodup
  rw [List.map_cons, List.nodup_cons] at hnodup
  refine ⟨hstep.perm hpermits,⟨fun other hmem => ?_,fun other hmem => ?_,hnodup.2⟩,
    fun other hmem => ?_,fun other hmem next hnext => ?_,?_⟩
  · change ∃ e, space.identity other.1 = .ok ⟨b.layerIndex,e⟩
    rw [hsame.layer]
    exact h.missesOk.expert other (List.mem_cons_of_mem _ hmem)
  · exact h.missesOk.absent other (List.mem_cons_of_mem _ hmem)
  · rw [hsame.layer]
    rcases List.mem_append.mp hmem with hmem | hmem
    · exact h.reservedOk other hmem
    · rw [List.mem_singleton.mp hmem]
      exact hinstallOk
  · rcases List.mem_append.mp hmem with hmem | hmem
    · exact h.apart other hmem next (List.mem_cons_of_mem _ hnext)
    · rw [List.mem_singleton.mp hmem]
      intro heq
      exact hnodup.1 (List.mem_map.mpr ⟨next,hnext,heq.symm⟩)
  · have hroom := h.room
    rw [List.length_cons] at hroom
    rw [List.length_append, List.length_singleton, hsame.capacity]
    omega

end Reserving

/-- Reserving the misses: all of them are reserved, or none is left reserved. -/
lemma reserveMisses_spec {misses : List (ℕ × Source)} {reserved : List ReservedInstall}
    (h : Reserving space layer arena misses reserved) :
    (∃ b error, reserveMisses space env misses arena reserved = (b,.error error) ∧
      error.inconsistent = false ∧ InStep space (layer.setArena b) [] ∧ SameResidents arena b) ∨
    ∃ b fresh, reserveMisses space env misses arena reserved = (b,.ok (reserved++fresh)) ∧
      fresh.map (fun install => (install.globalId,install.source)) = misses ∧
      (∀ install ∈ fresh, ReservedOk space arena.layerIndex install) ∧
      InStep space (layer.setArena b) ((reserved++fresh).map ReservedInstall.permit) ∧
      SameResidents arena b := by
  induction misses generalizing arena reserved with
  | nil =>
    refine .inr ⟨arena,[],?_,rfl,nofun,?_,.refl arena⟩
    · rw [List.append_nil]
      rfl
    · rw [List.append_nil]
      exact h.inStep
  | cons miss misses ih =>
    obtain ⟨e,hidentity⟩ := h.missesOk.expert miss List.mem_cons_self
    have hone := @reserveOne_spec space env layer arena _ miss e h.inStep hidentity
      (h.missesOk.absent miss List.mem_cons_self) (h.free hidentity) h.roomNext
    unfold reserveMisses
    rcases hone with ⟨b,error,hb,hconsistent,hstep,hsame⟩ | ⟨b,permit,hb,hkey,hstep,hsame⟩
    · rw [hb]
      obtain ⟨hheld,hdropped⟩ := hstep.held.dropAll
      exact .inl ⟨_,error,rfl,hconsistent,h.inStep.setArena hheld (hsame.trans hdropped),
        hsame.trans hdropped⟩
    · rw [hb]
      have hnext := h.next hidentity hkey hstep hsame
      rcases ih hnext with ⟨c,error,hc,hconsistent,hlast,hsame'⟩ |
        ⟨c,fresh,hc,hfresh,hfreshOk,hlast,hsame'⟩
      · exact .inl ⟨c,error,hc,hconsistent,hlast,hsame.trans hsame'⟩
      · rw [← List.append_cons] at hc hlast
        refine .inr ⟨c,_,hc,?_,?_,hlast,hsame.trans hsame'⟩
        · rw [List.map_cons, hfresh]
        · rw [hsame.layer] at hfreshOk
          refine List.forall_mem_cons.mpr ⟨?_,hfreshOk⟩
          have hok := hnext.reservedOk _ (List.mem_append_right _ (List.mem_singleton_self _))
          rw [hsame.layer] at hok
          exact hok

end Reserve

section Stage
variable {space : Namespace} {env : Environment} {layer : LayerResidency} {arena : ExpertArena}

/-- What staging or installing for a held permit comes to, whatever the rest of the arena. -/
def stageResult (env : Environment) (geometry : ExpertGeometry) (globalId : ℕ)
    (permit : InstallPermit) (data : List UInt8) : Except BootstrapError MappingEntry := do
  env.stageGate globalId
  ExpertArena.checkSlot geometry permit.key.expertId permit.residency.slotEpoch data
  let entry ← permit.residency.mappingEntry
  env.physicalWrite globalId
  return entry

def stageOutcome (env : Environment) (geometry : ExpertGeometry) (install : ReservedInstall) :
    Except TieredResidencyError MappingEntry :=
  liftBackend (stageResult env geometry install.globalId install.permit install.source.data)

lemma stageResult_ok {geometry : ExpertGeometry} {globalId : ℕ} {permit : InstallPermit}
    {data : List UInt8} {entry : MappingEntry}
    (h : stageResult env geometry globalId permit data = .ok entry) :
    permit.residency.mappingEntry = .ok entry := by
  obtain ⟨_,-,h⟩ := bind_eq_ok.mp h
  obtain ⟨_,-,h⟩ := bind_eq_ok.mp h
  obtain ⟨entry',hentry,h⟩ := bind_eq_ok.mp h
  obtain ⟨_,-,h⟩ := bind_eq_ok.mp h
  cases h
  exact hentry

lemma stageCheck_current {permit : InstallPermit} {data : List UInt8}
    (hcurrent : permit.reservationCurrent arena.state) :
    arena.stageCheck permit data = (arena,do
      ExpertArena.checkSlot arena.geometry permit.key.expertId permit.residency.slotEpoch data
      permit.residency.mappingEntry) := by
  unfold ExpertArena.stageCheck
  cases ExpertArena.checkSlot arena.geometry permit.key.expertId permit.residency.slotEpoch data with
  | error e => rfl
  | ok _ =>
    cases permit.residency.mappingEntry with
    | error e => rfl
    | ok entry =>
      dsimp only
      rw [if_pos hcurrent]
      rfl

/-- Only a failed stage touches the arena. -/
def afterStage (arena : ExpertArena) (permit : InstallPermit) :
    Except TieredResidencyError MappingEntry → ExpertArena
  | .ok _ => arena
  | .error _ => arena.cancelInstall permit.flatSlot permit.installTicket

lemma stageOne_eq {install : ReservedInstall}
    (hcurrent : install.permit.reservationCurrent arena.state) :
    stageOne env arena install =
      (afterStage arena install.permit (stageOutcome env arena.geometry install),
        stageOutcome env arena.geometry install) := by
  unfold stageOne stageOutcome stageResult
  dsimp only
  rw [stageCheck_current hcurrent]
  cases env.stageGate install.globalId with
  | error e => rfl
  | ok _ =>
    cases ExpertArena.checkSlot arena.geometry install.permit.key.expertId
        install.permit.residency.slotEpoch install.source.data with
    | error e => rfl
    | ok _ =>
      cases install.permit.residency.mappingEntry with
      | error e => rfl
      | ok entry =>
        cases env.physicalWrite install.globalId with
        | error e => rfl
        | ok _ => rfl

lemma liftBackend_eq_ok {α : Type} {result : Except BootstrapError α} {a : α}
    (h : liftBackend result = .ok a) : result = .ok a := by
  cases result with
  | error e => cases h
  | ok b =>
    cases h
    rfl

lemma liftBackend_consistent {α : Type} {result : Except BootstrapError α}
    {error : TieredResidencyError} (h : liftBackend result = .error error) :
    error.inconsistent = false := by
  cases result with
  | error e =>
    cases h
    rfl
  | ok a => cases h

lemma stageOutcome_ok {geometry : ExpertGeometry} {install : ReservedInstall} {entry : MappingEntry}
    (h : stageOutcome env geometry install = .ok entry) :
    install.permit.residency.mappingEntry = .ok entry := by
  exact stageResult_ok (liftBackend_eq_ok h)

/-- The permits whose stage succeeds. -/
def survivors (env : Environment) (geometry : ExpertGeometry) (installs : List ReservedInstall) :
    List InstallPermit :=
  (installs.filter (fun install => (stageOutcome env geometry install).isOk)).map
    ReservedInstall.permit

lemma survivors_of_ok {geometry : ExpertGeometry} {install : ReservedInstall}
    {installs : List ReservedInstall} {entry : MappingEntry}
    (h : stageOutcome env geometry install = .ok entry) :
    survivors env geometry (install::installs) =
      install.permit::survivors env geometry installs := by
  rw [survivors, List.filter_cons_of_pos (by rw [h]; rfl)]
  rfl

lemma survivors_of_error {geometry : ExpertGeometry} {install : ReservedInstall}
    {installs : List ReservedInstall} {error : TieredResidencyError}
    (h : stageOutcome env geometry install = .error error) :
    survivors env geometry (install::installs) = survivors env geometry installs := by
  rw [survivors, List.filter_cons_of_neg (by rw [h]; exact Bool.false_ne_true)]
  rfl

/-- Staging in any order: results by expert, and the permits of the failed stages are gone. -/
lemma stageAll_spec {order : List ReservedInstall} {rest : List InstallPermit}
    {staged : ℕ → Except TieredResidencyError MappingEntry}
    (h : Held arena (order.map ReservedInstall.permit++rest))
    (hnodup : (order.map ReservedInstall.globalId).Nodup) :
    ∃ b results, stageAll env order arena staged = (b,results) ∧
      Held b (survivors env arena.geometry order++rest) ∧ SameResidents arena b ∧
      (∀ install ∈ order, results install.globalId = stageOutcome env arena.geometry install) ∧
      ∀ x, x ∉ order.map ReservedInstall.globalId → results x = staged x := by
  induction order generalizing arena rest staged with
  | nil => exact ⟨arena,staged,rfl,h,.refl arena,nofun,fun _ _ => rfl⟩
  | cons install order ih =>
    rw [List.map_cons, List.nodup_cons] at hnodup
    rw [List.map_cons, List.cons_append] at h
    have hcurrent := h.current install.permit List.mem_cons_self
    unfold stageAll
    rw [stageOne_eq hcurrent]
    dsimp only
    -- The result of this stage is kept: the later ones are for other experts.
    have hresults : ∀ results : ℕ → Except TieredResidencyError MappingEntry,
        (∀ other ∈ order, results other.globalId = stageOutcome env arena.geometry other) →
        (∀ x, x ∉ order.map ReservedInstall.globalId → results x = Function.update staged
          install.globalId (stageOutcome env arena.geometry install) x) →
        (∀ other ∈ install::order,
          results other.globalId = stageOutcome env arena.geometry other) ∧
        ∀ x, x ∉ (install::order).map ReservedInstall.globalId → results x = staged x := by
      intro results hin hout
      refine ⟨List.forall_mem_cons.mpr ⟨?_,hin⟩,fun x hx => ?_⟩
      · rw [hout _ hnodup.1, Function.update_self]
      · rw [List.map_cons, List.mem_cons, not_or] at hx
        rw [hout x hx.2, Function.update_of_ne hx.1]
    cases houtcome : stageOutcome env arena.geometry install with
    | ok entry =>
      rw [houtcome] at hresults
      have hmoved : Held arena (order.map ReservedInstall.permit++(install.permit::rest)) :=
        h.perm List.perm_middle.symm
      obtain ⟨b,results,hb,hheld,hsame,hin,hout⟩ := ih hmoved hnodup.2
      refine ⟨b,results,hb,?_,hsame,hresults results hin hout⟩
      rw [survivors_of_ok houtcome]
      exact hheld.perm List.perm_middle
    | error e =>
      rw [houtcome] at hresults
      obtain ⟨hcancel,hsame⟩ := h.cancel
      obtain ⟨b,results,hb,hheld,hsame',hin,hout⟩ := ih hcancel hnodup.2
      rw [hsame.geometry] at hheld hin
      refine ⟨b,results,hb,?_,hsame.trans hsame',hresults results hin hout⟩
      rw [survivors_of_error houtcome]
      exact hheld

/-- The prepared permits are the survivors. -/
lemma preparedPermits_eq {geometry : ExpertGeometry} {installs : List ReservedInstall}
    {staged : ℕ → Except TieredResidencyError MappingEntry}
    (h : ∀ install ∈ installs, staged install.globalId = stageOutcome env geometry install) :
    preparedPermits staged installs = survivors env geometry installs := by
  unfold preparedPermits survivors
  congr 1
  refine List.filter_congr fun install hmem => ?_
  rw [h install hmem]

/-- The staging threads, in whatever order they run. -/
lemma InStep.stage {reserved : List ReservedInstall}
    {staged : ℕ → Except TieredResidencyError MappingEntry}
    (h : InStep space (layer.setArena arena) (reserved.map ReservedInstall.permit))
    (hnodup : (reserved.map ReservedInstall.globalId).Nodup) :
    ∃ b results, stageAll env (env.schedule reserved) arena staged = (b,results) ∧
      InStep space (layer.setArena b) (survivors env arena.geometry reserved) ∧
      SameResidents arena b ∧
      ∀ install ∈ reserved, results install.globalId = stageOutcome env arena.geometry install := by
  have hperm := env.schedule_perm reserved
  have hheld : Held arena ((env.schedule reserved).map ReservedInstall.permit++[]) := by
    rw [List.append_nil]
    exact h.held.perm (hperm.map _).symm
  obtain ⟨b,results,hb,hheld',hsame,hin,-⟩ := @stageAll_spec env arena _ [] staged hheld
    ((hperm.map _).nodup_iff.mpr hnodup)
  have hsurvivors : (survivors env arena.geometry (env.schedule reserved)++[]).Perm
      (survivors env arena.geometry reserved) := by
    rw [List.append_nil]
    exact (hperm.filter _).map _
  exact ⟨b,results,hb,h.setArena (hheld'.perm hsurvivors) hsame,hsame,
    fun install hmem => hin install (hperm.mem_iff.mpr hmem)⟩

end Stage

/-- What installing the misses with these ids comes to. -/
structure Installed (space : Namespace) (layer next : LayerResidency) (ids : List ℕ)
    (resolved : ℕ → Option ExpertResidency)
    (result : Except TieredResidencyError (ℕ → Option ExpertResidency)) : Prop where
  inStep : InStep space next []
  frame : SameFrame layer.arena next.arena
  kept : ∀ x record, (x,record) ∈ layer.residents → (x,record) ∈ next.residents
  consistent : ∀ error, result = .error error → error.inconsistent = false
  resident : ∀ found, result = .ok found → ∀ x ∈ ids, ∃ record, (x,record) ∈ next.residents ∧
    found x = some record.residency
  other : ∀ found, result = .ok found → ∀ x, x ∉ ids → found x = resolved x

section Commit
variable {space : Namespace} {env : Environment} {layer : LayerResidency}

/-- A new record is the most recent one and hides no other. -/
lemma InStep.kept_record {permits : List InstallPermit} {permit : InstallPermit}
    (h : InStep space layer (permit::permits)) {arena : ExpertArena} {globalId : ℕ}
    (hglobal : globalId = layer.arena.layerIndex*space.expertsPerLayer+permit.key.expertId)
    {x : ℕ} {record : PhysicalRecord} (hmem : (x,record) ∈ layer.residents) :
    (x,record) ∈ ((layer.setArena arena).record globalId permit.key permit.residency).residents := by
  change (x,record) ∈ Lru.put layer.residents globalId ⟨permit.key,permit.residency⟩
  rw [Lru.mem_put]
  refine .inr ⟨hmem,?_⟩
  rintro rfl
  obtain ⟨hrecord,hid,s,hs⟩ := (h.recorded x record).mp hmem
  have hexpert : record.key.expertId = permit.key.expertId := by omega
  have hcurrent := h.held.current permit List.mem_cons_self
  have hlogical := (h.held.tables.logical permit.key.expertId s).mpr
    ⟨record.key,by rw [hs, hrecord]; rfl,hexpert⟩
  rw [hcurrent.2.1] at hlogical
  rw [← Option.some.inj hlogical, hcurrent.2.2] at hs
  cases hs

lemma commitStaged_spec {geometry : ExpertGeometry} {reserved : List ReservedInstall}
    {staged : ℕ → Except TieredResidencyError MappingEntry} {resolved : ℕ → Option ExpertResidency}
    (h : InStep space layer (survivors env geometry reserved))
    (hstaged : ∀ install ∈ reserved,
      staged install.globalId = stageOutcome env geometry install)
    (hreserved : ∀ install ∈ reserved, ReservedOk space layer.arena.layerIndex install)
    (hnodup : (reserved.map ReservedInstall.globalId).Nodup)
    (hretire : env.TakesBack) :
    Installed space layer (commitStaged env staged reserved layer resolved).1
      (reserved.map ReservedInstall.globalId) resolved
      (commitStaged env staged reserved layer resolved).2 := by
  induction reserved generalizing layer resolved with
  | nil =>
    refine ⟨h,.refl _,fun _ _ hmem => hmem,nofun,nofun,?_⟩
    rintro _ ⟨⟩ x -
    rfl
  | cons install reserved ih =>
    obtain ⟨hthis,hrest⟩ := List.forall_mem_cons.mp hstaged
    obtain ⟨hok,hoks⟩ := List.forall_mem_cons.mp hreserved
    rw [List.map_cons, List.nodup_cons] at hnodup
    unfold commitStaged
    rw [preparedPermits_eq hrest, hthis]
    cases houtcome : stageOutcome env geometry install with
    | error e =>
      rw [survivors_of_error houtcome] at h
      refine ⟨h.abandonAll,h.held.dropAll.2.toSameFrame,fun _ _ hmem => hmem,?_,nofun,nofun⟩
      rintro _ ⟨⟩
      exact liftBackend_consistent houtcome
    | ok entry =>
      rw [survivors_of_ok houtcome] at h
      have hentry := stageOutcome_ok houtcome
      have hcurrent := h.held.current install.permit List.mem_cons_self
      dsimp only
      cases env.commitGate install.globalId with
      | error e =>
        refine ⟨h.abandonAll,h.held.dropAll.2.toSameFrame,fun _ _ hmem => hmem,?_,nofun,nofun⟩
        rintro _ ⟨⟩
        rfl
      | ok _ =>
        have hcommit : layer.arena.commit install.permit entry =
            (layer.arena.publish install.permit entry,.ok install.permit.residency) :=
          if_pos hcurrent
        dsimp only
        rw [hcommit]
        dsimp only
        rw [hok.key]
        cases hadmission : env.admissionCurrent install.globalId with
        | true =>
          rw [if_pos rfl]
          have hnext := h.record hentry hok.globalId
          have hframe := SameFrame.of_frame (layer.arena.publish_frame install.permit entry)
          have hlast := @ih _ (Function.update resolved install.globalId
            (some install.permit.residency)) hnext hrest hoks hnodup.2
          refine ⟨hlast.inStep,hframe.trans hlast.frame,fun x record hmem =>
            hlast.kept x record (h.kept_record hok.globalId hmem),hlast.consistent,
            fun found hfound => List.forall_mem_cons.mpr ⟨?_,hlast.resident found hfound⟩,
            fun found hfound x hx => ?_⟩
          · refine ⟨_,hlast.kept _ _ List.mem_cons_self,?_⟩
            rw [hlast.other found hfound _ hnodup.1, Function.update_self]
          · rw [List.map_cons, List.mem_cons, not_or] at hx
            rw [hlast.other found hfound x hx.2, Function.update_of_ne hx.1]
        | false =>
          rw [if_neg Bool.false_ne_true]
          obtain ⟨next,hwithdraw,hnext,hresidents,hframe⟩ :=
            @InStep.withdraw _ _ _ _ h env install.globalId entry hentry
              (hretire _ hadmission)
          rw [hwithdraw]
          refine ⟨hnext.abandonAll,hframe.trans hnext.held.dropAll.2.toSameFrame,
            fun x record hmem => ?_,?_,nofun,nofun⟩
          · change (x,record) ∈ next.residents
            rw [hresidents]
            exact hmem
          · rintro _ ⟨⟩
            rfl

theorem installParallelMisses_spec {misses : List (ℕ × Source)}
    {resolved : ℕ → Option ExpertResidency} (h : InStep space layer [])
    (hmisses : MissesOk space layer misses)
    (hroom : layer.residents.length+misses.length ≤ layer.arena.state.slotCapacity)
    (hretire : env.TakesBack) :
    Installed space layer (installParallelMisses space env layer misses resolved).1
      (misses.map Prod.fst) resolved
      (installParallelMisses space env layer misses resolved).2 := by
  unfold installParallelMisses
  cases misses with
  | nil =>
    refine ⟨h,.refl _,fun _ _ hmem => hmem,nofun,nofun,?_⟩
    rintro _ ⟨⟩ x -
    rfl
  | cons miss misses =>
    rw [if_neg (by simp)]
    have hreserve := @reserveMisses_spec space env layer layer.arena (miss::misses) []
      (.start h hmisses hroom)
    rcases hreserve with ⟨b,error,hb,hconsistent,hstep,hsame⟩ |
      ⟨b,fresh,hb,hfresh,hfreshOk,hstep,hsame⟩
    · rw [hb]
      refine ⟨hstep,hsame.toSameFrame,fun _ _ hmem => hmem,?_,nofun,nofun⟩
      rintro _ ⟨⟩
      exact hconsistent
    · rw [List.nil_append] at hb hstep
      rw [hb]
      have hids : fresh.map ReservedInstall.globalId = (miss::misses).map Prod.fst := by
        rw [← hfresh, List.map_map]
        rfl
      have hnodup : (fresh.map ReservedInstall.globalId).Nodup := by
        rw [hids]
        exact hmisses.nodup
      dsimp only
      cases env.uploadState with
      | error e =>
        refine ⟨hstep.abandonAll,(hsame.trans hstep.held.dropAll.2).toSameFrame,
          fun _ _ hmem => hmem,?_,nofun,nofun⟩
        rintro _ ⟨⟩
        rfl
      | ok _ =>
        obtain ⟨c,results,hc,hstaged,hsame',hresults⟩ :=
          @InStep.stage space env layer b fresh (fun globalId => .error (.demandSourceMissing globalId))
            hstep hnodup
        dsimp only
        rw [hc]
        dsimp only
        cases env.copySubmit with
        | error e =>
          rw [preparedPermits_eq hresults]
          refine ⟨hstaged.abandonAll,((hsame.trans hsame').trans hstaged.held.dropAll.2).toSameFrame,
            fun _ _ hmem => hmem,?_,nofun,nofun⟩
          rintro _ ⟨⟩
          rfl
        | ok _ =>
          have hlayer : (layer.setArena c).arena.layerIndex = layer.arena.layerIndex :=
            (hsame.trans hsame').layer
          rw [← hlayer] at hfreshOk
          have hcommit := @commitStaged_spec space env _ b.geometry fresh results resolved hstaged
            hresults hfreshOk hnodup hretire
          rw [hids] at hcommit
          exact ⟨hcommit.inStep,(hsame.trans hsame').toSameFrame.trans hcommit.frame,hcommit.kept,
            hcommit.consistent,hcommit.resident,hcommit.other⟩

end Commit

section Sequential
variable {space : Namespace} {env : Environment} {layer : LayerResidency} {arena : ExpertArena}

/-- The arena after the single-step install of a held permit. -/
def afterInstall (arena : ExpertArena) (permit : InstallPermit) :
    Except BootstrapError MappingEntry → ExpertArena
  | .ok entry => arena.publish permit entry
  | .error _ => arena.cancelInstall permit.flatSlot permit.installTicket

lemma installPermit_eq {permit : InstallPermit} {globalId : ℕ} {data : List UInt8}
    (hcurrent : permit.reservationCurrent arena.state) :
    installPermit env arena permit globalId data =
      (afterInstall arena permit (stageResult env arena.geometry globalId permit data),
        (stageResult env arena.geometry globalId permit data).map fun _ => permit.residency) := by
  unfold installPermit stageResult ExpertArena.install
  cases env.stageGate globalId with
  | error e => rfl
  | ok _ =>
    cases hslot : ExpertArena.checkSlot arena.geometry permit.key.expertId
        permit.residency.slotEpoch data with
    | error e => rfl
    | ok _ =>
      cases permit.residency.mappingEntry with
      | error e => rfl
      | ok entry =>
        dsimp only
        rw [if_pos hcurrent]
        cases env.physicalWrite globalId with
        | error e => rfl
        | ok _ => rfl

lemma finishInstall_spec {permit : InstallPermit} {globalId : ℕ} {entry : MappingEntry}
    (h : InStep space layer [permit]) (hentry : permit.residency.mappingEntry = .ok entry)
    (hglobal : globalId = layer.arena.layerIndex*space.expertsPerLayer+permit.key.expertId)
    (hretire : env.TakesBack) :
    (∃ next error, finishInstall env (layer.setArena (layer.arena.publish permit entry)) globalId
        permit.key permit.residency true = (next,.error error) ∧ error.inconsistent = false ∧
      InStep space next [] ∧ SameFrame layer.arena next.arena ∧
      next.residents = layer.residents) ∨
    ∃ next, finishInstall env (layer.setArena (layer.arena.publish permit entry)) globalId
        permit.key permit.residency true = (next,.ok permit.residency) ∧
      InStep space next [] ∧ SameFrame layer.arena next.arena ∧
      next.residents = Lru.put layer.residents globalId ⟨permit.key,permit.residency⟩ := by
  unfold finishInstall
  cases hadmission : env.admissionCurrent globalId with
  | true =>
    exact .inr ⟨_,rfl,h.record hentry hglobal,.of_frame (layer.arena.publish_frame permit entry),rfl⟩
  | false =>
    obtain ⟨next,hwithdraw,hnext,hresidents,hframe⟩ :=
      h.withdraw hentry (hretire globalId hadmission)
    rw [if_neg Bool.false_ne_true, hwithdraw]
    exact .inl ⟨next,_,rfl,rfl,hnext,hframe,hresidents⟩

lemma installLocked_spec {miss : ℕ × Source} {e : ℕ} (h : InStep space layer [])
    (hidentity : space.identity miss.1 = .ok ⟨layer.arena.layerIndex,e⟩)
    (habsent : ∀ record, (miss.1,record) ∉ layer.residents)
    (hroom : layer.residents.length<layer.arena.state.slotCapacity) (hretire : env.TakesBack) :
    (∃ next error, installLocked space env layer miss.1 miss.2 = (next,.error error) ∧
      error.inconsistent = false ∧ InStep space next [] ∧ SameFrame layer.arena next.arena ∧
      next.residents = layer.residents) ∨
    ∃ next, ∃ permit : InstallPermit,
      installLocked space env layer miss.1 miss.2 = (next,.ok permit.residency) ∧
      InStep space next [] ∧ SameFrame layer.arena next.arena ∧
      next.residents = Lru.put layer.residents miss.1 ⟨permit.key,permit.residency⟩ := by
  have hacquire := h.acquire miss.2.generation hidentity habsent nofun hroom
  unfold installLocked
  rw [expertKey_eq hidentity]
  dsimp only
  cases env.acquireGate miss.1 with
  | error error => exact .inl ⟨layer,_,rfl,rfl,h,.refl _,rfl⟩
  | ok _ =>
    dsimp only
    generalize layer.arena.acquire ⟨layer.arena.layerIndex,e,miss.2.generation⟩ = outcome at hacquire
    cases hacquire with
    | error error step same => exact .inl ⟨_,_,rfl,rfl,step,same.toSameFrame,rfl⟩
    | stale step same => exact .inl ⟨_,_,rfl,rfl,step,same.toSameFrame,rfl⟩
    | @permit b permit key_eq step same =>
      have hcurrent : permit.reservationCurrent b.state :=
        step.held.current permit List.mem_cons_self
      dsimp only
      rw [installPermit_eq hcurrent]
      cases hresult : stageResult env b.geometry miss.1 permit miss.2.data with
      | error error =>
        obtain ⟨hheld,hcancel⟩ := step.held.cancel
        exact .inl ⟨_,_,rfl,rfl,h.setArena hheld (same.trans hcancel),
          (same.trans hcancel).toSameFrame,rfl⟩
      | ok entry =>
        have hglobal : miss.1 = (layer.setArena b).arena.layerIndex*space.expertsPerLayer+
            permit.key.expertId := by
          change miss.1 = b.layerIndex*_+_
          rw [same.layer, key_eq]
          exact (Namespace.identity_eq_ok hidentity).2.2.2
        rcases finishInstall_spec step (stageResult_ok hresult) hglobal hretire with
          ⟨next,error,hfinish,hconsistent,hlast,hframe,hresidents⟩ |
          ⟨next,hfinish,hlast,hframe,hresidents⟩
        · rw [key_eq] at hfinish
          exact .inl ⟨next,error,hfinish,hconsistent,hlast,same.toSameFrame.trans hframe,hresidents⟩
        · rw [key_eq] at hfinish
          exact .inr ⟨next,permit,hfinish,hlast,same.toSameFrame.trans hframe,hresidents⟩

/-- What is left to install after a miss became the most recent record. -/
lemma MissesOk.installed {miss : ℕ × Source} {misses : List (ℕ × Source)} {next : LayerResidency}
    {record : PhysicalRecord} (h : MissesOk space layer (miss::misses))
    (hframe : SameFrame layer.arena next.arena)
    (hresidents : next.residents = Lru.put layer.residents miss.1 record)
    (hroom : layer.residents.length+(miss::misses).length ≤ layer.arena.state.slotCapacity) :
    MissesOk space next misses ∧
      next.residents.length+misses.length ≤ next.arena.state.slotCapacity := by
  have hnodup := h.nodup
  rw [List.map_cons, List.nodup_cons] at hnodup
  rw [List.length_cons] at hroom
  refine ⟨⟨fun other hmem => ?_,fun other hmem recorded hrecorded => ?_,hnodup.2⟩,?_⟩
  · rw [hframe.layer]
    exact h.expert other (List.mem_cons_of_mem _ hmem)
  · rw [hresidents, Lru.mem_put] at hrecorded
    rcases hrecorded with heq | ⟨hrecorded,-⟩
    · exact hnodup.1 (List.mem_map.mpr ⟨other,hmem,(Prod.mk.inj heq).1⟩)
    · exact h.absent other (List.mem_cons_of_mem _ hmem) recorded hrecorded
  · have hput := Lru.length_put_le layer.residents miss.1 record
    rw [← hresidents] at hput
    rw [hframe.capacity]
    omega

theorem installSequential_spec {misses : List (ℕ × Source)}
    {resolved : ℕ → Option ExpertResidency} (h : InStep space layer [])
    (hmisses : MissesOk space layer misses)
    (hroom : layer.residents.length+misses.length ≤ layer.arena.state.slotCapacity)
    (hretire : env.TakesBack) :
    Installed space layer (installSequential space env misses layer resolved).1
      (misses.map Prod.fst) resolved
      (installSequential space env misses layer resolved).2 := by
  induction misses generalizing layer resolved with
  | nil =>
    refine ⟨h,.refl _,fun _ _ hmem => hmem,nofun,nofun,?_⟩
    rintro _ ⟨⟩ x -
    rfl
  | cons miss misses ih =>
    obtain ⟨e,hidentity⟩ := hmisses.expert miss List.mem_cons_self
    have habsent := hmisses.absent miss List.mem_cons_self
    have hnodup := hmisses.nodup
    rw [List.map_cons, List.nodup_cons] at hnodup
    have hfree : layer.residents.length<layer.arena.state.slotCapacity := by
      rw [List.length_cons] at hroom
      omega
    unfold installSequential
    rcases installLocked_spec h hidentity habsent hfree hretire with
      ⟨next,error,hnext,hconsistent,hstep,hframe,hresidents⟩ |
      ⟨next,permit,hnext,hstep,hframe,hresidents⟩
    · rw [hnext]
      refine ⟨hstep,hframe,fun x record hmem => ?_,?_,nofun,nofun⟩
      · rw [hresidents]
        exact hmem
      · rintro _ ⟨⟩
        exact hconsistent
    · rw [hnext]
      have hkept : ∀ x record, (x,record) ∈ layer.residents → (x,record) ∈ next.residents := by
        intro x record hmem
        rw [hresidents, Lru.mem_put]
        refine .inr ⟨hmem,?_⟩
        rintro rfl
        exact habsent record hmem
      obtain ⟨hrest,hlength⟩ := hmisses.installed hframe hresidents hroom
      have hlast := @ih next (Function.update resolved miss.1 (some permit.residency)) hstep hrest
        hlength
      refine ⟨hlast.inStep,hframe.trans hlast.frame,
        fun x record hmem => hlast.kept x record (hkept x record hmem),hlast.consistent,
        fun found hfound => List.forall_mem_cons.mpr ⟨?_,hlast.resident found hfound⟩,
        fun found hfound x hx => ?_⟩
      · refine ⟨⟨permit.key,permit.residency⟩,hlast.kept _ _ ?_,?_⟩
        · rw [hresidents]
          exact List.mem_cons_self
        · rw [hlast.other found hfound _ hnodup.1, Function.update_self]
      · rw [List.map_cons, List.mem_cons, not_or] at hx
        rw [hlast.other found hfound x hx.2, Function.update_of_ne hx.1]

end Sequential

end MicroExpertRouter.Residency
