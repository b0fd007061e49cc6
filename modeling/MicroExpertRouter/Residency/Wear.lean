import MicroExpertRouter.Residency.Refinement

/-! How reservations use an arena up. Each takes an install ticket and one of the epochs of its
slot, and nothing else takes either; a slot has `u32::MAX` epochs. -/
namespace MicroExpertRouter.Residency
open Arena

/-- What only reservations change. -/
structure Keeps (a b : ExpertArena) : Prop where
  capacity : b.state.slotCapacity = a.state.slotCapacity
  ticket : b.state.nextInstallTicket = a.state.nextInstallTicket
  latest : b.state.latestGenerations = a.state.latestGenerations
  epochs : ∀ s, (b.state.slots s).lastEpoch = (a.state.slots s).lastEpoch

namespace Keeps
variable {a b c : ExpertArena}

lemma refl (a : ExpertArena) : Keeps a a := ⟨rfl,rfl,rfl,fun _ => rfl⟩

lemma trans (h : Keeps a b) (h' : Keeps b c) : Keeps a c :=
  ⟨h'.capacity.trans h.capacity,h'.ticket.trans h.ticket,h'.latest.trans h.latest,
    fun s => (h'.epochs s).trans (h.epochs s)⟩

lemma lastEpoch_setSlot (state : ArenaState) {flat : ℕ} {slot : PhysicalSlot}
    (h : slot.lastEpoch = (state.slots flat).lastEpoch) (s : ℕ) :
    ((state.setSlot flat slot).slots s).lastEpoch = (state.slots s).lastEpoch := by
  change (Function.update state.slots flat slot s).lastEpoch = _
  by_cases hs : s = flat
  · subst hs
    rw [Function.update_self, h]
  · rw [Function.update_of_ne hs]

lemma release (state : ArenaState) (flat logicalId s : ℕ) :
    ((state.release flat logicalId).slots s).lastEpoch = (state.slots s).lastEpoch :=
  @lastEpoch_setSlot state flat { state.slots flat with owner := .free } rfl s

lemma publish (a : ExpertArena) (permit : InstallPermit) (entry : MappingEntry) :
    Keeps a (a.publish permit entry) :=
  ⟨rfl,rfl,rfl,lastEpoch_setSlot a.state rfl⟩

lemma cancelInstall (a : ExpertArena) (flat ticket : ℕ) : Keeps a (a.cancelInstall flat ticket) := by
  unfold ExpertArena.cancelInstall
  cases a.state.owner flat with
  | free => exact .refl a
  | resident residency => exact .refl a
  | installing key slotEpoch current =>
    dsimp only
    split_ifs with hcurrent hlogical
    · exact ⟨rfl,rfl,rfl,lastEpoch_setSlot a.state rfl⟩
    · exact ⟨rfl,rfl,rfl,lastEpoch_setSlot a.state rfl⟩
    · exact .refl a

lemma retire (a : ExpertArena) (key : ExpertKey) : Keeps a (a.retire key).1 := by
  unfold ExpertArena.retire
  split_ifs with hlayer hrange
  · exact .refl a
  · exact .refl a
  cases a.state.latestGenerations key.expertId with
  | none => exact .refl a
  | some latest =>
    dsimp only
    split_ifs with hstale hequal
    · exact .refl a
    · exact .refl a
    cases a.state.logicalSlots key.expertId with
    | none => exact .refl a
    | some flat =>
      dsimp only
      cases a.state.owner flat with
      | free => exact .refl a
      | installing installing slotEpoch ticket =>
        dsimp only
        split_ifs
        · exact ⟨rfl,rfl,rfl,release a.state flat key.expertId⟩
        · exact .refl a
      | resident residency =>
        dsimp only
        split_ifs
        · exact ⟨rfl,rfl,rfl,release a.state flat key.expertId⟩
        · exact .refl a

lemma dropPermits (permits : List InstallPermit) :
    ∀ a : ExpertArena, Keeps a (dropPermits a permits) := by
  induction permits with
  | nil => exact refl
  | cons permit permits ih => exact fun a => (cancelInstall a _ _).trans (ih _)

lemma stageOne (env : Environment) (a : ExpertArena) (install : ReservedInstall) :
    Keeps a (stageOne env a install).1 := by
  have hcheck : Keeps a (a.stageCheck install.permit install.source.data).1 := by
    unfold ExpertArena.stageCheck
    cases ExpertArena.checkSlot a.geometry install.permit.key.expertId
        install.permit.residency.slotEpoch install.source.data with
    | error e => exact .refl a
    | ok _ =>
      dsimp only
      cases install.permit.residency.mappingEntry with
      | error e => exact .refl a
      | ok entry =>
        dsimp only
        split_ifs
        · exact .refl a
        · exact ⟨rfl,rfl,rfl,fun _ => rfl⟩
  unfold Residency.stageOne
  dsimp only
  cases env.stageGate install.globalId with
  | error e => exact cancelInstall a _ _
  | ok _ =>
    dsimp only
    generalize a.stageCheck install.permit install.source.data = outcome at hcheck
    obtain ⟨checked,result⟩ := outcome
    cases result with
    | error e => exact hcheck.trans (cancelInstall checked _ _)
    | ok entry =>
      dsimp only
      cases env.physicalWrite install.globalId with
      | error e => exact hcheck.trans (cancelInstall checked _ _)
      | ok _ => exact hcheck

lemma stageAll (env : Environment) (order : List ReservedInstall) :
    ∀ (a : ExpertArena) staged, Keeps a (stageAll env order a staged).1 := by
  induction order with
  | nil => exact fun a staged => .refl a
  | cons install order ih => exact fun a staged => (stageOne env a install).trans (ih _ _)

lemma commit (a : ExpertArena) (permit : InstallPermit) (entry : MappingEntry) :
    Keeps a (a.commit permit entry).1 := by
  unfold ExpertArena.commit
  split_ifs
  · exact publish a permit entry
  · exact ⟨rfl,rfl,rfl,fun _ => rfl⟩

lemma withdraw (env : Environment) (layer : LayerResidency) (globalId : ℕ) (key : ExpertKey) :
    Keeps layer.arena (layer.withdraw env globalId key).1.arena := by
  unfold LayerResidency.withdraw
  cases env.retireGate globalId with
  | error e => exact .refl _
  | ok _ =>
    have hretire := retire layer.arena key
    dsimp only
    generalize layer.arena.retire key = outcome at hretire
    obtain ⟨arena,result⟩ := outcome
    cases result with
    | error e => exact hretire
    | ok _ => exact hretire

lemma commitStaged (env : Environment) (staged : ℕ → Except TieredResidencyError MappingEntry)
    (reserved : List ReservedInstall) : ∀ (layer : LayerResidency) resolved,
      Keeps layer.arena (commitStaged env staged reserved layer resolved).1.arena := by
  induction reserved with
  | nil => exact fun layer resolved => .refl _
  | cons install reserved ih =>
    intro layer resolved
    unfold Residency.commitStaged
    dsimp only
    cases staged install.globalId with
    | error e => exact dropPermits _ layer.arena
    | ok entry =>
      dsimp only
      cases env.commitGate install.globalId with
      | error e => exact dropPermits _ layer.arena
      | ok _ =>
        have hcommit := commit layer.arena install.permit entry
        dsimp only
        generalize layer.arena.commit install.permit entry = outcome at hcommit
        obtain ⟨arena,result⟩ := outcome
        cases result with
        | error e => exact hcommit.trans (dropPermits _ arena)
        | ok residency =>
          dsimp only
          split_ifs
          · exact hcommit.trans (ih ((layer.setArena arena).record install.globalId install.key
              residency) _)
          · exact (hcommit.trans (withdraw env (layer.setArena arena) _ _)).trans (dropPermits _ _)

end Keeps

/-- The epochs used so far, over all slots. -/
def wear (arena : ExpertArena) : ℕ :=
  ∑ s ∈ Finset.range arena.state.slotCapacity, (arena.state.slots s).lastEpoch

/-- A slot has `u32::MAX` epochs. -/
lemma wear_le {space : Namespace} {layer : LayerResidency} {permits : List InstallPermit}
    (h : InStep space layer permits) :
    wear layer.arena ≤ layer.arena.state.slotCapacity*u32Max := by
  have hsum := Finset.sum_le_card_nsmul (Finset.range layer.arena.state.slotCapacity)
    (fun s => (layer.arena.state.slots s).lastEpoch) u32Max
    fun s _ => (h.held.tables.slot s).bound
  rw [Finset.card_range] at hsum
  exact hsum

lemma Keeps.wear {a b : ExpertArena} (h : Keeps a b) : wear b = wear a := by
  unfold Residency.wear
  rw [h.capacity]
  exact Finset.sum_congr rfl fun s _ => h.epochs s

/-- Some reservations later. -/
structure Advance (a b : ExpertArena) (keys : List ExpertKey) : Prop where
  capacity : b.state.slotCapacity = a.state.slotCapacity
  ticket : b.state.nextInstallTicket = a.state.nextInstallTicket+keys.length
  worn : wear b = wear a+keys.length
  latest : ∀ e generation, b.state.latestGenerations e = some generation →
    a.state.latestGenerations e = some generation ∨
      ∃ key ∈ keys, key.expertId = e ∧ key.logicalGeneration = generation

namespace Advance
variable {a b c : ExpertArena} {keys more : List ExpertKey} {key : ExpertKey}

lemma of_keeps (h : Keeps a b) : Advance a b [] :=
  ⟨h.capacity,h.ticket,h.wear,fun _ _ hlatest => .inl (h.latest ▸ hlatest)⟩

lemma trans (h : Advance a b keys) (h' : Advance b c more) : Advance a c (keys++more) := by
  refine ⟨h'.capacity.trans h.capacity,?_,?_,fun e generation hlatest => ?_⟩
  · rw [h'.ticket, h.ticket, List.length_append, Nat.add_assoc]
  · rw [h'.worn, h.worn, List.length_append, Nat.add_assoc]
  · rcases h'.latest e generation hlatest with hmiddle | ⟨key,hkey,hsame⟩
    · rcases h.latest e generation hmiddle with hfirst | ⟨key,hkey,hsame⟩
      · exact .inl hfirst
      · exact .inr ⟨key,List.mem_append_left _ hkey,hsame⟩
    · exact .inr ⟨key,List.mem_append_right _ hkey,hsame⟩

/-- A reservation takes the next ticket and the next epoch of its slot. -/
lemma occupy (a : ExpertArena) {flat : ℕ} (hflat : flat<a.state.slotCapacity) (key : ExpertKey) :
    Advance a ((a.raiseGeneration key).occupy flat key) [key] := by
  refine ⟨rfl,rfl,?_,fun e generation hlatest => ?_⟩
  · unfold wear
    have hmem : flat ∈ Finset.range a.state.slotCapacity := Finset.mem_range.mpr hflat
    have hrest : ∀ s ∈ (Finset.range a.state.slotCapacity).erase flat,
        ((((a.raiseGeneration key).occupy flat key).state.slots s).lastEpoch) =
          (a.state.slots s).lastEpoch := by
      intro s hs
      change (Function.update a.state.slots flat _ s).lastEpoch = _
      rw [Function.update_of_ne (Finset.ne_of_mem_erase hs)]
    change ∑ s ∈ Finset.range a.state.slotCapacity, _ = _
    rw [← Finset.add_sum_erase _ _ hmem, ← Finset.add_sum_erase _ _ hmem,
      Finset.sum_congr rfl hrest]
    change (Function.update a.state.slots flat _ flat).lastEpoch+_ = _
    rw [Function.update_self]
    change (a.state.slots flat).lastEpoch+1+_ = _+1
    omega
  · change Function.update a.state.latestGenerations key.expertId _ e = _ at hlatest
    by_cases he : e = key.expertId
    · subst he
      rw [Function.update_self] at hlatest
      exact .inr ⟨key,List.mem_singleton_self key,rfl,Option.some.inj hlatest⟩
    · rw [Function.update_of_ne he] at hlatest
      exact .inl hlatest

end Advance

/-- The errors of an arena that is used up. -/
def TieredResidencyError.usedUp : TieredResidencyError → Bool
  | backend (.expertSlotEpochExhausted _ _) => true
  | backend .expertInstallTicketExhausted => true
  | _ => false

/-- The tickets of an arena count its epochs. -/
def Metered (arena : ExpertArena) : Prop := arena.state.nextInstallTicket = wear arena+1

lemma Advance.metered {a b : ExpertArena} {keys : List ExpertKey} (h : Advance a b keys)
    (ha : Metered a) : Metered b := by
  unfold Metered at ha ⊢
  rw [h.ticket, h.worn, ha]
  omega

/-- A key that the arena takes as current. -/
structure Current (arena : ExpertArena) (e generation : ℕ) : Prop where
  positive : generation ≠ 0
  newest : ∀ latest, arena.state.latestGenerations e = some latest → latest ≤ generation

section Reservations
variable {space : Namespace} {env : Environment} {layer : LayerResidency} {arena : ExpertArena}

/-- A reservation of a current key for an absent expert, with room for it: it is granted, or the
arena is used up. -/
lemma acquire_current {permits : List InstallPermit} {globalId e generation : ℕ}
    (h : InStep space layer permits) (hmetered : Metered layer.arena)
    (hidentity : space.identity globalId = .ok ⟨layer.arena.layerIndex,e⟩)
    (habsent : ∀ record, (globalId,record) ∉ layer.residents)
    (hfree : ∀ permit ∈ permits, permit.key.expertId ≠ e)
    (hroom : layer.residents.length+permits.length<layer.arena.state.slotCapacity)
    (hcurrent : Current layer.arena e generation) :
    (∃ b error, layer.arena.acquire ⟨layer.arena.layerIndex,e,generation⟩ = (b,.error error) ∧
      (TieredResidencyError.backend error).usedUp = true ∧ u32Max ≤ wear layer.arena) ∨
    ∃ b permit, layer.arena.acquire ⟨layer.arena.layerIndex,e,generation⟩ =
        (b,.ok (.install permit)) ∧
      Advance layer.arena b [⟨layer.arena.layerIndex,e,generation⟩] := by
  obtain ⟨-,-,hrange,-⟩ := Namespace.identity_eq_ok hidentity
  rw [← h.width] at hrange
  have hreserve : layer.arena.acquire ⟨layer.arena.layerIndex,e,generation⟩ =
      layer.arena.reserve ⟨layer.arena.layerIndex,e,generation⟩ := by
    unfold ExpertArena.acquire
    rw [if_neg (not_not.mpr rfl), if_neg (Nat.not_le.mpr hrange), if_neg hcurrent.positive]
    dsimp only
    cases hlatest : layer.arena.state.latestGenerations e with
    | none => rfl
    | some latest =>
      dsimp only
      rw [if_neg (Nat.not_lt.mpr (hcurrent.newest latest hlatest)),
        h.logical_none hidentity habsent hfree]
  rw [hreserve]
  unfold ExpertArena.reserve
  dsimp only
  cases hslot : (layer.arena.raiseGeneration ⟨layer.arena.layerIndex,e,generation⟩).state.freeSlot with
  | none =>
    obtain ⟨s,hs,hempty⟩ := h.exists_free hroom
    have hfind : ∀ t ∈ List.range layer.arena.state.slotCapacity,
        layer.arena.state.owner t = .free → (layer.arena.state.slots t).lastEpoch = u32Max := by
      intro t ht howner
      have hnot := List.find?_eq_none.mp hslot t ht
      simp only [decide_eq_true_eq, not_and, not_not] at hnot
      exact hnot howner
    have hworn : u32Max ≤ wear layer.arena := by
      rw [← hfind s (List.mem_range.mpr hs) hempty]
      exact Finset.single_le_sum (f := fun t => (layer.arena.state.slots t).lastEpoch)
        (fun _ _ => Nat.zero_le _) (Finset.mem_range.mpr hs)
    dsimp only
    split
    · exact .inl ⟨_,_,rfl,rfl,hworn⟩
    · rename_i hfull
      have hnot := List.find?_eq_none.mp hfull s (List.mem_range.mpr hs)
      simp only [decide_eq_true_eq] at hnot
      exact absurd hempty hnot
  | some flat =>
    dsimp only
    have hflat := List.mem_range.mp (List.mem_of_find?_eq_some hslot)
    split_ifs with hticket
    · refine .inl ⟨_,_,rfl,rfl,?_⟩
      change u64Max ≤ layer.arena.state.nextInstallTicket at hticket
      rw [hmetered] at hticket
      unfold u64Max at hticket
      unfold u32Max
      omega
    · exact .inr ⟨_,_,rfl,.occupy layer.arena hflat _⟩

/-- The misses come with generations that the arena takes as current. -/
def MissesCurrent (space : Namespace) (arena : ExpertArena) (misses : List (ℕ × Source)) : Prop :=
  ∀ miss ∈ misses, ∀ e, space.identity miss.1 = .ok ⟨arena.layerIndex,e⟩ →
    Current arena e miss.2.generation

lemma reserveOne_current {permits : List InstallPermit} {miss : ℕ × Source} {e : ℕ}
    (h : InStep space (layer.setArena arena) permits) (hmetered : Metered arena)
    (hidentity : space.identity miss.1 = .ok ⟨arena.layerIndex,e⟩)
    (habsent : ∀ record, (miss.1,record) ∉ layer.residents)
    (hfree : ∀ permit ∈ permits, permit.key.expertId ≠ e)
    (hroom : layer.residents.length+permits.length<arena.state.slotCapacity)
    (hgate : env.acquireGate miss.1 = .ok ()) (hcurrent : Current arena e miss.2.generation) :
    (∃ b error, reserveOne space env arena miss = (b,.error error) ∧ error.usedUp = true ∧
      u32Max ≤ wear arena) ∨
    ∃ b permit, reserveOne space env arena miss =
        (b,.ok ⟨miss.1,miss.2,⟨arena.layerIndex,e,miss.2.generation⟩,permit⟩) ∧
      Advance arena b [⟨arena.layerIndex,e,miss.2.generation⟩] := by
  unfold reserveOne
  rw [expertKey_eq hidentity]
  dsimp only
  rw [hgate]
  dsimp only
  have hacquire := @acquire_current space (layer.setArena arena) permits miss.1 e
    miss.2.generation h hmetered hidentity habsent hfree hroom hcurrent
  rcases hacquire with ⟨b,error,hb,hused,hworn⟩ | ⟨b,permit,hb,hadvance⟩
  · change arena.acquire ⟨arena.layerIndex,e,miss.2.generation⟩ = _ at hb
    rw [hb]
    exact .inl ⟨b,_,rfl,hused,hworn⟩
  · change arena.acquire ⟨arena.layerIndex,e,miss.2.generation⟩ = _ at hb
    rw [hb]
    exact .inr ⟨b,permit,rfl,hadvance⟩

/-- Reserving misses with current generations: they are all granted, or the arena is used up. -/
lemma reserveMisses_current {misses : List (ℕ × Source)} {reserved : List ReservedInstall}
    (h : Reserving space layer arena misses reserved) (hmetered : Metered arena)
    (hgate : ∀ x, env.acquireGate x = .ok ()) (hcurrent : MissesCurrent space arena misses) :
    (∃ b error, reserveMisses space env misses arena reserved = (b,.error error) ∧
      error.usedUp = true ∧ u32Max ≤ wear arena+misses.length) ∨
    ∃ b fresh, reserveMisses space env misses arena reserved = (b,.ok (reserved++fresh)) ∧
      Advance arena b (fresh.map ReservedInstall.key) ∧
      ∀ install ∈ fresh, install.key.logicalGeneration = install.source.generation := by
  induction misses generalizing arena reserved with
  | nil =>
    refine .inr ⟨arena,[],?_,.of_keeps (.refl arena),nofun⟩
    rw [List.append_nil]
    rfl
  | cons miss misses ih =>
    obtain ⟨e,hidentity⟩ := h.missesOk.expert miss List.mem_cons_self
    have hspec := @reserveOne_spec space env layer arena _ miss e h.inStep hidentity
      (h.missesOk.absent miss List.mem_cons_self) (h.free hidentity) h.roomNext
    have hone := @reserveOne_current space env layer arena _ miss e h.inStep hmetered hidentity
      (h.missesOk.absent miss List.mem_cons_self) (h.free hidentity) h.roomNext (hgate _)
      (hcurrent miss List.mem_cons_self e hidentity)
    unfold reserveMisses
    rcases hone with ⟨b,error,hb,hused,hworn⟩ | ⟨b,permit,hb,hadvance⟩
    · rw [hb]
      exact .inl ⟨_,error,rfl,hused,by omega⟩
    · rw [hb] at hspec ⊢
      obtain ⟨_,_,hcontra,-⟩ | ⟨b',permit',heq,hkey,hstep,hsame⟩ := hspec
      · cases hcontra
      cases heq
      have hrest : MissesCurrent space b misses := by
        intro other hmem e' hidentity'
        rw [hsame.layer] at hidentity'
        have hold := hcurrent other (List.mem_cons_of_mem _ hmem) e' hidentity'
        refine ⟨hold.positive,fun latest hlatest => ?_⟩
        rcases hadvance.latest e' latest hlatest with hbefore | ⟨key,hkey',rfl,-⟩
        · exact hold.newest latest hbefore
        · -- The expert just reserved is another one.
          rw [List.mem_singleton] at hkey'
          subst hkey'
          have hids : other.1 = miss.1 := (Namespace.identity_eq_ok hidentity').2.2.2.trans
            (Namespace.identity_eq_ok hidentity).2.2.2.symm
          have hnodup := h.missesOk.nodup
          rw [List.map_cons, List.nodup_cons] at hnodup
          exact absurd (List.mem_map.mpr ⟨other,hmem,hids⟩) hnodup.1
      rcases ih (h.next hidentity hkey hstep hsame) (hadvance.metered hmetered) hrest with
        ⟨c,error,hc,hused,hworn⟩ | ⟨c,fresh,hc,hadvance',hgeneration⟩
      · refine .inl ⟨c,error,hc,hused,?_⟩
        rw [hadvance.worn, List.length_singleton] at hworn
        rw [List.length_cons]
        omega
      · rw [← List.append_cons] at hc
        exact .inr ⟨c,_,hc,hadvance.trans hadvance',List.forall_mem_cons.mpr ⟨rfl,hgeneration⟩⟩

/-- After its reservations the concurrent path takes nothing more from the arena. -/
lemma installParallelMisses_advance {misses : List (ℕ × Source)} {reserved : List ReservedInstall}
    {b : ExpertArena} {keys : List ExpertKey} (resolved : ℕ → Option ExpertResidency)
    (henv : env.Undisturbed)
    (hreserve : reserveMisses space env misses layer.arena [] = (b,.ok reserved))
    (hadvance : Advance layer.arena b keys) :
    Advance layer.arena (installParallelMisses space env layer misses resolved).1.arena keys := by
  unfold installParallelMisses
  cases misses with
  | nil =>
    cases hreserve
    exact hadvance
  | cons miss misses =>
    rw [if_neg (by simp), hreserve]
    dsimp only
    rw [henv.upload]
    dsimp only
    have hstaged := Keeps.stageAll env (env.schedule reserved) b
      (fun globalId => .error (.demandSourceMissing globalId))
    generalize stageAll env (env.schedule reserved) b
      (fun globalId => .error (.demandSourceMissing globalId)) = staging at hstaged
    obtain ⟨c,staged⟩ := staging
    dsimp only
    rw [henv.copies]
    have hcommitted := Keeps.commitStaged env staged reserved (layer.setArena c) resolved
    have hall := hadvance.trans (.of_keeps (hstaged.trans hcommitted))
    rw [List.append_nil] at hall
    exact hall

/-- A refused reservation ends the concurrent path. -/
lemma installParallelMisses_refused {misses : List (ℕ × Source)} {b : ExpertArena}
    {error : TieredResidencyError} (resolved : ℕ → Option ExpertResidency)
    (hreserve : reserveMisses space env misses layer.arena [] = (b,.error error)) :
    installParallelMisses space env layer misses resolved = (layer.setArena b,.error error) := by
  unfold installParallelMisses
  cases misses with
  | nil => cases hreserve
  | cons miss misses => rw [if_neg (by simp), hreserve]

end Reservations

end MicroExpertRouter.Residency
