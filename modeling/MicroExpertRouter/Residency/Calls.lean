import MicroExpertRouter.Residency.Invariant

/-! The calls of the residency manager, and what holds after every sequence of them. A demand
call looks up its hits, makes room without touching what was requested, and installs the misses;
a speculative call only ever takes a free slot. -/
namespace MicroExpertRouter.Residency
open Arena

section Lookup
variable {space : Namespace} {layer : LayerResidency}

/-- A recorded residency is the one its arena holds. -/
lemma InStep.containsExact {permits : List InstallPermit} (h : InStep space layer permits)
    {globalId : ℕ} {record : PhysicalRecord} (hmem : (globalId,record) ∈ layer.residents) :
    containsExactResidency layer.arena record.residency = true := by
  obtain ⟨s,howner,hkey,hlayer,-⟩ := h.resident hmem
  have hslot := h.held.tables.slot s
  have howned : (layer.arena.state.slots s).owner.key? = some record.residency.key := by
    change (layer.arena.state.owner s).key? = _
    rw [howner]
    rfl
  have hepoch : (layer.arena.state.slots s).owner.epoch? = some record.residency.slotEpoch := by
    change (layer.arena.state.owner s).epoch? = _
    rw [howner]
    rfl
  have hlogical := (h.held.tables.logical record.residency.key.expertId s).mpr
    ⟨record.residency.key,howned,rfl⟩
  unfold containsExactResidency
  rw [← hkey] at hlayer
  rw [if_neg (not_not.mpr hlayer), hlogical]
  exact decide_eq_true ⟨hslot.latest _ howned,(hslot.location _ howner).symm,
    (hslot.epoch _ hepoch).symm,howner⟩

/-- A layer after lookups: the same residents, in another order. -/
structure Touched (space : Namespace) (layer next : LayerResidency) : Prop where
  inStep : InStep space next []
  arena : next.arena = layer.arena
  residents : ∀ x record, (x,record) ∈ next.residents ↔ (x,record) ∈ layer.residents

lemma Touched.trans {next last : LayerResidency} (h : Touched space layer next)
    (h' : Touched space next last) : Touched space layer last :=
  ⟨h'.inStep,h'.arena.trans h.arena,fun x record =>
    (h'.residents x record).trans (h.residents x record)⟩

lemma currentRecord_spec (h : InStep space layer []) (globalId : ℕ) :
    (layer.currentRecord space globalId = (layer,.ok none) ∧
      ∀ record, (globalId,record) ∉ layer.residents) ∨
    ∃ next record, layer.currentRecord space globalId = (next,.ok (some record)) ∧
      (globalId,record) ∈ layer.residents ∧ Touched space layer next ∧
      next.residents = Lru.touch layer.residents globalId := by
  unfold LayerResidency.currentRecord
  cases hpeek : Lru.peek layer.residents globalId with
  | none => exact .inl ⟨rfl,Lru.peek_eq_none.mp hpeek⟩
  | some record =>
    have hmem := Lru.peek_mem hpeek
    obtain ⟨s,-,hkey,hlayer,hidentity⟩ := h.resident hmem
    refine .inr ⟨_,record,?_,hmem,⟨h.touch globalId,rfl,fun x other => Lru.mem_touch h.distinct⟩,rfl⟩
    dsimp only
    rw [hidentity]
    dsimp only
    rw [if_neg]
    rintro (hne | hne | hne | hne | hne)
    · exact hne hlayer
    · exact hne rfl
    · exact hne hkey
    · exact hne rfl
    · rw [h.containsExact hmem] at hne
      cases hne

/-- What the hit loop found for a demand list. -/
structure Looked (layer : LayerResidency) (ids : List ℕ)
    (resolved found : ℕ → Option ExpertResidency) (fresh : List (ℕ × Source)) : Prop where
  sublist : (fresh.map Prod.fst).Sublist ids
  absent : ∀ miss ∈ fresh, ∀ record, (miss.1,record) ∉ layer.residents
  hit : ∀ x ∈ ids, x ∈ fresh.map Prod.fst ∨
    ∃ record, (x,record) ∈ layer.residents ∧ found x = some record.residency
  other : ∀ x, x ∉ ids → found x = resolved x

/-- The hit loop splits the demands into recorded experts and misses, each in request order. -/
lemma resolveHits_spec {demands : List DemandExpert} {resolved : ℕ → Option ExpertResidency}
    {misses : List (ℕ × Source)} (h : InStep space layer []) :
    (∃ next error, layer.resolveHits space demands resolved misses = (next,.error error) ∧
      error.inconsistent = false ∧ Touched space layer next) ∨
    ∃ next found fresh, layer.resolveHits space demands resolved misses =
        (next,.ok (found,misses++fresh)) ∧ Touched space layer next ∧
      Looked layer (demands.map DemandExpert.globalId) resolved found fresh := by
  induction demands generalizing layer resolved misses with
  | nil =>
    refine .inr ⟨layer,resolved,[],?_,⟨h,rfl,fun _ _ => Iff.rfl⟩,
      ⟨.slnil,nofun,nofun,fun _ _ => rfl⟩⟩
    rw [List.append_nil]
    rfl
  | cons demand demands ih =>
    unfold LayerResidency.resolveHits
    rcases currentRecord_spec h demand.globalId with
      ⟨hlookup,habsent⟩ | ⟨touched,record,hlookup,hmem,htouched,-⟩
    · rw [hlookup]
      cases demand with
      | current globalId => exact .inl ⟨layer,_,rfl,rfl,h,rfl,fun _ _ => Iff.rfl⟩
      | install globalId source =>
        dsimp only
        rcases @ih layer resolved (misses++[(globalId,source)]) h with
          ⟨next,error,hnext,hconsistent,hsame⟩ | ⟨next,found,fresh,hnext,hsame,hlooked⟩
        · exact .inl ⟨next,error,hnext,hconsistent,hsame⟩
        · refine .inr ⟨next,found,(globalId,source)::fresh,?_,hsame,
            hlooked.sublist.cons_cons _,List.forall_mem_cons.mpr ⟨habsent,hlooked.absent⟩,
            List.forall_mem_cons.mpr ⟨.inl List.mem_cons_self,fun x hx => ?_⟩,fun x hx => ?_⟩
          · rw [hnext, List.append_assoc]
            rfl
          · exact (hlooked.hit x hx).imp (List.mem_cons_of_mem _) id
          · exact hlooked.other x (fun hmem => hx (List.mem_cons_of_mem _ hmem))
    · rw [hlookup]
      dsimp only
      rcases @ih touched (Function.update resolved demand.globalId (some record.residency)) misses
        htouched.inStep with ⟨next,error,hnext,hconsistent,hsame⟩ |
        ⟨next,found,fresh,hnext,hsame,hlooked⟩
      · exact .inl ⟨next,error,hnext,hconsistent,htouched.trans hsame⟩
      · have hhit : ∀ x ∈ demands.map DemandExpert.globalId, x ∈ fresh.map Prod.fst ∨
            ∃ record, (x,record) ∈ layer.residents ∧ found x = some record.residency := by
          intro x hx
          refine (hlooked.hit x hx).imp id ?_
          rintro ⟨other,hother,hfound⟩
          exact ⟨other,(htouched.residents x other).mp hother,hfound⟩
        refine .inr ⟨next,found,fresh,hnext,htouched.trans hsame,hlooked.sublist.cons _,
          fun miss hmiss other hother => ?_,List.forall_mem_cons.mpr ⟨?_,hhit⟩,fun x hx => ?_⟩
        · exact hlooked.absent miss hmiss other ((htouched.residents _ _).mpr hother)
        · by_cases hagain : demand.globalId ∈ demands.map DemandExpert.globalId
          · exact hhit _ hagain
          · refine .inr ⟨record,hmem,?_⟩
            rw [hlooked.other _ hagain, Function.update_self]
        · rw [List.map_cons, List.mem_cons, not_or] at hx
          rw [hlooked.other x hx.2, Function.update_of_ne hx.1]

end Lookup

section Room
variable {space : Namespace} {env : Environment} {layer : LayerResidency}

/-- A layer after evictions that spare the protected experts. -/
structure Spared (space : Namespace) (protect : ℕ → Bool) (layer next : LayerResidency) :
    Prop where
  inStep : InStep space next []
  frame : SameFrame layer.arena next.arena
  subset : ∀ x record, (x,record) ∈ next.residents → (x,record) ∈ layer.residents
  kept : ∀ x record, (x,record) ∈ layer.residents → protect x = true →
    (x,record) ∈ next.residents

lemma Spared.refl {protect : ℕ → Bool} (h : InStep space layer []) :
    Spared space protect layer layer :=
  ⟨h,.refl _,fun _ _ hmem => hmem,fun _ _ hmem _ => hmem⟩

/-- Evictions after the eviction of an unprotected expert. -/
lemma Spared.evicted {protect : ℕ → Bool} {next last : LayerResidency} {victim : ℕ}
    (h : Spared space protect next last) (hunprotected : protect victim = false)
    (hresidents : next.residents = Lru.pop layer.residents victim)
    (hframe : SameFrame layer.arena next.arena) : Spared space protect layer last := by
  refine ⟨h.inStep,hframe.trans h.frame,fun x record hmem => ?_,fun x record hmem hprotect => ?_⟩
  · have hmem := h.subset x record hmem
    rw [hresidents, Lru.mem_pop] at hmem
    exact hmem.1
  · refine h.kept x record ?_ hprotect
    rw [hresidents, Lru.mem_pop]
    refine ⟨hmem,?_⟩
    rintro rfl
    rw [hprotect] at hunprotected
    cases hunprotected

/-- Making room never runs out of victims when what is protected leaves room. -/
lemma makeRoom_spec {protect : ℕ → Bool} {wanted turns : ℕ} (h : InStep space layer [])
    (hturns : layer.residents.length ≤ turns)
    (hfit : ∀ residents : List (ℕ × PhysicalRecord), Lru.Distinct residents →
      (∀ entry ∈ residents, entry ∈ layer.residents ∧ protect entry.1 = true) →
      residents.length+wanted ≤ layer.arena.state.slotCapacity) :
    (∃ next error, LayerResidency.makeRoom env protect wanted turns layer = (next,.error error) ∧
      error.inconsistent = false ∧ Spared space protect layer next) ∨
    ∃ next, LayerResidency.makeRoom env protect wanted turns layer = (next,.ok ()) ∧
      Spared space protect layer next ∧
      next.residents.length+wanted ≤ next.arena.state.slotCapacity := by
  have hself : Spared space protect layer layer := .refl h
  induction turns generalizing layer with
  | zero =>
    have hnil := List.length_eq_zero_iff.mp (Nat.le_zero.mp hturns)
    have hroom : layer.residents.length+wanted ≤ layer.arena.state.slotCapacity := by
      apply hfit layer.residents h.distinct
      rw [hnil]
      exact nofun
    unfold LayerResidency.makeRoom
    rw [if_pos hroom]
    exact .inr ⟨layer,rfl,hself,hroom⟩
  | succ turns ih =>
    unfold LayerResidency.makeRoom
    by_cases hroom : layer.residents.length+wanted ≤ layer.arena.state.slotCapacity
    · rw [if_pos hroom]
      exact .inr ⟨layer,rfl,hself,hroom⟩
    · rw [if_neg hroom]
      -- Some resident is unprotected: all of them together do not leave room.
      have hvictim : ∃ entry ∈ layer.residents, protect entry.1 = false := by
        by_contra hnone
        refine hroom (hfit layer.residents h.distinct fun entry hmem => ⟨hmem,?_⟩)
        by_contra hprotect
        exact hnone ⟨entry,hmem,Bool.eq_false_iff.mpr hprotect⟩
      obtain ⟨⟨x,record⟩,hmem,hx⟩ := hvictim
      obtain ⟨victim,hvictim⟩ := @Lru.oldest_isSome _ _ layer.residents x record
        (fun globalId => !protect globalId) hmem (by rw [hx]; rfl)
      obtain ⟨hunprotected,old,hold⟩ := Lru.oldest_eq_some hvictim
      rw [hvictim]
      dsimp only
      rcases @InStep.evict space layer [] h env victim old hold with
        ⟨e,hevict⟩ | ⟨next,hevict,hnext,hresidents,hframe⟩
      · rw [hevict]
        exact .inl ⟨layer,_,rfl,rfl,hself⟩
      · rw [hevict]
        have hlength := Lru.length_pop h.distinct hold
        rw [← hresidents] at hlength
        rw [Bool.not_eq_true'] at hunprotected
        have hrest := @ih next hnext (by omega) (fun residents hdistinct hall => by
          rw [hframe.capacity]
          refine hfit residents hdistinct fun entry hmem => ⟨?_,(hall entry hmem).2⟩
          have hentry := (hall entry hmem).1
          rw [hresidents, Lru.mem_pop] at hentry
          exact hentry.1) (.refl hnext)
        rcases hrest with ⟨last,error,hlast,hconsistent,hspare⟩ | ⟨last,hlast,hspare,hfits⟩
        · exact .inl ⟨last,error,hlast,hconsistent,
            hspare.evicted hunprotected hresidents hframe⟩
        · exact .inr ⟨last,hlast,hspare.evicted hunprotected hresidents hframe,hfits⟩

end Room

section Locked
variable {space : Namespace} {env : Environment} {layer : LayerResidency}

/-- The experts that pass the checks are distinct and belong to the layer. -/
lemma checkDemands_ok {layerIndex : ℕ} {seen : List ℕ} {demands : List DemandExpert}
    (h : checkDemands space env layerIndex seen demands = .ok ()) :
    (demands.map DemandExpert.globalId).Nodup ∧
      ∀ demand ∈ demands, demand.globalId ∉ seen ∧
        ∃ e, space.identity demand.globalId = .ok ⟨layerIndex,e⟩ := by
  induction demands generalizing seen with
  | nil => exact ⟨List.nodup_nil,nofun⟩
  | cons demand demands ih =>
    unfold checkDemands at h
    dsimp only at h
    split_ifs at h with hseen
    obtain ⟨expert,hexpert,h⟩ := bind_eq_ok.mp h
    split_ifs at h with hlayer
    have hrest : checkDemands space env layerIndex (demand.globalId::seen) demands = .ok () := by
      cases demand with
      | current globalId => exact h
      | install globalId source =>
        obtain ⟨_,-,h⟩ := bind_eq_ok.mp h
        exact h
    obtain ⟨hnodup,hall⟩ := ih hrest
    refine ⟨?_,List.forall_mem_cons.mpr ⟨⟨hseen,expert.localExpertId,?_⟩,fun other hmem => ?_⟩⟩
    · rw [List.map_cons, List.nodup_cons]
      refine ⟨fun hmem => ?_,hnodup⟩
      obtain ⟨other,hother,heq⟩ := List.mem_map.mp hmem
      exact (hall other hother).1 (heq ▸ List.mem_cons_self)
    · rw [hexpert, ← not_not.mp hlayer]
    · exact ⟨fun hmem' => (hall other hmem).1 (List.mem_cons_of_mem _ hmem'),(hall other hmem).2⟩

lemma identity_consistent {globalId : ℕ} {error : TieredResidencyError}
    (h : space.identity globalId = .error error) : error.inconsistent = false := by
  rcases bind_eq_error.mp h with h | ⟨_,-,h⟩
  · unfold Namespace.validate at h
    split_ifs at h <;> cases h <;> rfl
  · dsimp only at h
    split_ifs at h
    cases h
    rfl

lemma validateSource_consistent {globalId : ℕ} {source : Source} {error : TieredResidencyError}
    (h : validateSource env globalId source = .error error) : error.inconsistent = false := by
  unfold validateSource at h
  split_ifs at h <;> cases h <;> rfl

/-- The checks of the demand list are about the request alone. -/
lemma checkDemands_consistent {layerIndex : ℕ} {seen : List ℕ} {demands : List DemandExpert}
    {error : TieredResidencyError}
    (h : checkDemands space env layerIndex seen demands = .error error) :
    error.inconsistent = false := by
  induction demands generalizing seen with
  | nil => cases h
  | cons demand demands ih =>
    unfold checkDemands at h
    dsimp only at h
    split_ifs at h with hseen
    · cases h
      rfl
    rcases bind_eq_error.mp h with h | ⟨expert,-,h⟩
    · exact identity_consistent h
    split_ifs at h with hlayer
    · cases h
      rfl
    cases demand with
    | current globalId => exact ih h
    | install globalId source =>
      rcases bind_eq_error.mp h with h | ⟨_,-,h⟩
      · exact validateSource_consistent h
      · exact ih h

lemma collectResolved_ok {resolved : ℕ → Option ExpertResidency} {demands : List DemandExpert}
    {residencies : List ExpertResidency} {P : DemandExpert → ExpertResidency → Prop}
    (h : collectResolved resolved demands = .ok residencies)
    (hresolved : ∀ demand ∈ demands, ∀ residency,
      resolved demand.globalId = some residency → P demand residency) :
    List.Forall₂ P demands residencies := by
  induction demands generalizing residencies with
  | nil =>
    cases h
    exact .nil
  | cons demand demands ih =>
    rw [collectResolved, List.mapM_cons] at h
    obtain ⟨residency,hresidency,h⟩ := bind_eq_ok.mp h
    obtain ⟨rest,hrest,h⟩ := bind_eq_ok.mp h
    cases h
    refine .cons (hresolved demand List.mem_cons_self residency ?_)
      (ih hrest fun other hmem => hresolved other (List.mem_cons_of_mem _ hmem))
    cases hfound : resolved demand.globalId with
    | none =>
      rw [hfound] at hresidency
      cases hresidency
    | some other =>
      rw [hfound] at hresidency
      cases hresidency
      rfl

/-- Collecting fails for want of a residency, nothing else. -/
lemma collectResolved_consistent {resolved : ℕ → Option ExpertResidency}
    {demands : List DemandExpert} {error : TieredResidencyError}
    (h : collectResolved resolved demands = .error error) : error.inconsistent = false := by
  induction demands with
  | nil => cases h
  | cons demand demands ih =>
    rw [collectResolved, List.mapM_cons] at h
    rcases bind_eq_error.mp h with h | ⟨residency,-,h⟩
    · cases hfound : resolved demand.globalId with
      | none =>
        rw [hfound] at h
        cases h
        rfl
      | some other =>
        rw [hfound] at h
        cases h
    · rcases bind_eq_error.mp h with h | ⟨rest,-,h⟩
      · exact ih h
      · cases h

lemma installMisses_spec {path : InstallPath} {misses : List (ℕ × Source)}
    {resolved : ℕ → Option ExpertResidency} (h : InStep space layer [])
    (hmisses : MissesOk space layer misses)
    (hroom : layer.residents.length+misses.length ≤ layer.arena.state.slotCapacity)
    (hretire : env.TakesBack) :
    Installed space layer (installMisses space env path layer misses resolved).1
      (misses.map Prod.fst) resolved (installMisses space env path layer misses resolved).2 := by
  unfold installMisses
  split_ifs
  · exact installParallelMisses_spec h hmisses hroom hretire
  · exact installSequential_spec h hmisses hroom hretire

/-- What a call does to the layer it locks: the experts to keep stay, and no error shows the
metadata and the arena apart. -/
structure Served {α : Type} (space : Namespace) (keep : ℕ → Prop) (layer next : LayerResidency)
    (result : Except TieredResidencyError α) : Prop where
  inStep : InStep space next []
  layerIndex : next.arena.layerIndex = layer.arena.layerIndex
  kept : ∀ x record, keep x → (x,record) ∈ layer.residents → (x,record) ∈ next.residents
  consistent : ∀ error, result = .error error → error.inconsistent = false

/-- A layer with its misses ready to be installed. -/
structure Prepared (space : Namespace) (layer ready : LayerResidency) (ids : List ℕ)
    (resolved : ℕ → Option ExpertResidency) (misses : List (ℕ × Source)) : Prop where
  inStep : InStep space ready []
  frame : SameFrame layer.arena ready.arena
  absent : MissesOk space ready misses
  room : ready.residents.length+misses.length ≤ ready.arena.state.slotCapacity
  hit : ∀ x ∈ ids, x ∈ misses.map Prod.fst ∨
    ∃ record, (x,record) ∈ ready.residents ∧ resolved x = some record.residency

/-- Requested residents and misses are distinct requested experts. -/
lemma room_for_misses {ids misses : List ℕ} {residents : List (ℕ × PhysicalRecord)}
    (hdistinct : Lru.Distinct residents) (hnodup : ids.Nodup) (hsublist : misses.Sublist ids)
    (hrequested : ∀ entry ∈ residents, entry.1 ∈ ids)
    (hapart : ∀ entry ∈ residents, entry.1 ∉ misses) :
    residents.length+misses.length ≤ ids.length := by
  have happart : (residents.map Prod.fst++misses).Nodup := by
    refine List.Nodup.append hdistinct (hsublist.nodup hnodup) ?_
    intro x hx hmiss
    obtain ⟨entry,hentry,rfl⟩ := List.mem_map.mp hx
    exact hapart entry hentry hmiss
  have hsubset : residents.map Prod.fst++misses ⊆ ids := by
    intro x hx
    rcases List.mem_append.mp hx with hx | hx
    · obtain ⟨entry,hentry,rfl⟩ := List.mem_map.mp hx
      exact hrequested entry hentry
    · exact hsublist.subset hx
  have hle := (happart.subperm hsubset).length_le
  rw [List.length_append, List.length_map] at hle
  exact hle

/-- Looking up the demands and making room for the misses. -/
theorem prepareDemand_spec {demands : List DemandExpert} (h : InStep space layer [])
    (hnodup : (demands.map DemandExpert.globalId).Nodup)
    (hexperts : ∀ demand ∈ demands,
      ∃ e, space.identity demand.globalId = .ok ⟨layer.arena.layerIndex,e⟩)
    (hcapacity : demands.length ≤ layer.arena.state.slotCapacity) :
    Served space (· ∈ demands.map DemandExpert.globalId) layer
        (prepareDemand space env layer demands).1 (prepareDemand space env layer demands).2 ∧
      ∀ resolved misses, (prepareDemand space env layer demands).2 = .ok (resolved,misses) →
        Prepared space layer (prepareDemand space env layer demands).1
          (demands.map DemandExpert.globalId) resolved misses := by
  unfold prepareDemand
  rcases @resolveHits_spec space layer demands (fun _ => none) [] h with
    ⟨next,error,hhits,hconsistent,htouched⟩ | ⟨next,found,fresh,hhits,htouched,hlooked⟩
  · rw [hhits]
    refine ⟨⟨htouched.inStep,?_,fun x record _ hmem => (htouched.residents x record).mpr hmem,?_⟩,
      nofun⟩
    · rw [htouched.arena]
    · rintro _ ⟨⟩
      exact hconsistent
  rw [List.nil_append] at hhits
  rw [hhits]
  dsimp only
  set protect : ℕ → Bool := fun globalId =>
    decide (globalId ∈ demands.map DemandExpert.globalId) with hprotect
  have hfit : ∀ residents : List (ℕ × PhysicalRecord), Lru.Distinct residents →
      (∀ entry ∈ residents, entry ∈ next.residents ∧ protect entry.1 = true) →
      residents.length+fresh.length ≤ next.arena.state.slotCapacity := by
    intro residents hdistinct hall
    have hle := room_for_misses hdistinct hnodup hlooked.sublist
      (fun entry hentry => of_decide_eq_true (hall entry hentry).2) (fun entry hentry hmiss => by
        obtain ⟨miss,hmem,heq⟩ := List.mem_map.mp hmiss
        have hrecorded := (htouched.residents entry.1 entry.2).mp (hall entry hentry).1
        rw [← heq] at hrecorded
        exact hlooked.absent miss hmem entry.2 hrecorded)
    rw [List.length_map, List.length_map] at hle
    rw [htouched.arena]
    exact hle.trans hcapacity
  have hkeep : ∀ room, Spared space protect next room → ∀ x record,
      x ∈ demands.map DemandExpert.globalId → (x,record) ∈ layer.residents →
      (x,record) ∈ room.residents := fun room hspared x record hx hmem =>
    hspared.kept x record ((htouched.residents x record).mpr hmem) (decide_eq_true hx)
  rcases @makeRoom_spec space env next protect fresh.length _ htouched.inStep le_rfl hfit with
    ⟨room,error,hroom,hconsistent,hspared⟩ | ⟨room,hroom,hspared,hfits⟩
  · rw [hroom]
    refine ⟨⟨hspared.inStep,?_,hkeep room hspared,?_⟩,nofun⟩
    · rw [hspared.frame.layer, htouched.arena]
    · rintro _ ⟨⟩
      exact hconsistent
  rw [hroom]
  have hframe : SameFrame layer.arena room.arena := by
    rw [← htouched.arena]
    exact hspared.frame
  refine ⟨⟨hspared.inStep,hframe.layer,hkeep room hspared,nofun⟩,?_⟩
  rintro _ _ ⟨⟩
  refine ⟨hspared.inStep,hframe,⟨fun miss hmem => ?_,fun miss hmem record hrecord => ?_,
    hlooked.sublist.nodup hnodup⟩,hfits,fun x hx => ?_⟩
  · obtain ⟨demand,hdemand,heq⟩ :=
      List.mem_map.mp (hlooked.sublist.subset (List.mem_map_of_mem hmem))
    rw [← heq, hframe.layer]
    exact hexperts demand hdemand
  · exact hlooked.absent miss hmem record
      ((htouched.residents _ _).mp (hspared.subset _ _ hrecord))
  · refine (hlooked.hit x hx).imp id ?_
    rintro ⟨record,hmem,hfound⟩
    exact ⟨record,hkeep room hspared x record hx hmem,hfound⟩

/-- A demand call on a layer in step. -/
theorem demandLocked_spec {path : InstallPath} {demands : List DemandExpert}
    (h : InStep space layer []) (hnodup : (demands.map DemandExpert.globalId).Nodup)
    (hexperts : ∀ demand ∈ demands,
      ∃ e, space.identity demand.globalId = .ok ⟨layer.arena.layerIndex,e⟩)
    (hcapacity : demands.length ≤ layer.arena.state.slotCapacity) (hretire : env.TakesBack) :
    Served space (· ∈ demands.map DemandExpert.globalId) layer
        (demandLocked space env path layer demands).1
        (demandLocked space env path layer demands).2 ∧
      ∀ residencies, (demandLocked space env path layer demands).2 = .ok residencies →
        List.Forall₂ (fun demand residency => ∃ record, record.residency = residency ∧
          (demand.globalId,record) ∈ (demandLocked space env path layer demands).1.residents)
          demands residencies := by
  obtain ⟨hserved,hprepared⟩ := @prepareDemand_spec space env layer demands h hnodup hexperts
    hcapacity
  unfold demandLocked
  generalize prepareDemand space env layer demands = preparation at hserved hprepared
  obtain ⟨ready,preparation⟩ := preparation
  cases preparation with
  | error error =>
    refine ⟨⟨hserved.inStep,hserved.layerIndex,hserved.kept,?_⟩,nofun⟩
    rintro _ ⟨⟩
    exact hserved.consistent error rfl
  | ok pair =>
    obtain ⟨resolved,misses⟩ := pair
    have hready := hprepared resolved misses rfl
    have hinstalled := @installMisses_spec space env ready path misses resolved hready.inStep
      hready.absent hready.room hretire
    dsimp only at hready ⊢
    generalize installMisses space env path ready misses resolved = outcome at hinstalled
    obtain ⟨last,result⟩ := outcome
    have hkept : ∀ x record, x ∈ demands.map DemandExpert.globalId →
        (x,record) ∈ layer.residents → (x,record) ∈ last.residents := fun x record hx hmem =>
      hinstalled.kept x record (hserved.kept x record hx hmem)
    have hlast := hinstalled.frame.layer.trans hready.frame.layer
    cases result with
    | error error =>
      refine ⟨⟨hinstalled.inStep,hlast,hkept,?_⟩,nofun⟩
      rintro _ ⟨⟩
      exact hinstalled.consistent error rfl
    | ok final =>
      refine ⟨⟨hinstalled.inStep,hlast,hkept,fun error => collectResolved_consistent⟩,
        fun residencies hcollect => ?_⟩
      refine collectResolved_ok hcollect fun demand hdemand residency hresidency => ?_
      have hx : demand.globalId ∈ demands.map DemandExpert.globalId := List.mem_map_of_mem hdemand
      have hresolved : ∃ record, (demand.globalId,record) ∈ last.residents ∧
          final demand.globalId = some record.residency := by
        by_cases hmiss : demand.globalId ∈ misses.map Prod.fst
        · exact hinstalled.resident final rfl _ hmiss
        · rcases hready.hit _ hx with hmem | ⟨record,hmem,hfound⟩
          · exact absurd hmem hmiss
          · refine ⟨record,hinstalled.kept _ record hmem,?_⟩
            rw [hinstalled.other final rfl _ hmiss, hfound]
      obtain ⟨record,hmem,hfinal⟩ := hresolved
      rw [hresidency] at hfinal
      exact ⟨record,(Option.some.inj hfinal).symm,hmem⟩

/-- A speculative call on a layer in step keeps every resident. -/
theorem speculateLocked_spec {globalId : ℕ} {source : Source} {e : ℕ} (h : InStep space layer [])
    (hidentity : space.identity globalId = .ok ⟨layer.arena.layerIndex,e⟩)
    (hretire : env.TakesBack) :
    Served space (fun _ => True) layer (speculateLocked space env layer globalId source).1
      (speculateLocked space env layer globalId source).2 := by
  have hself : ∀ result : SpeculativeInstall,
      Served space (fun _ => True) layer layer (Except.ok result) := fun result =>
    ⟨h,rfl,fun _ _ _ hmem => hmem,nofun⟩
  unfold speculateLocked
  rcases currentRecord_spec h globalId with
    ⟨hlookup,habsent⟩ | ⟨next,record,hlookup,-,htouched,-⟩
  · rw [hlookup]
    dsimp only
    by_cases hstill : env.stillCurrent globalId = false
    · rw [if_pos hstill]
      exact hself _
    rw [if_neg hstill]
    by_cases hfull : layer.arena.state.slotCapacity ≤ layer.residents.length
    · rw [if_pos hfull]
      exact hself _
    rw [if_neg hfull]
    rcases @installLocked_spec space env layer (globalId,source) e h hidentity habsent
      (Nat.not_le.mp hfull) hretire with
      ⟨next,error,hnext,hconsistent,hstep,hframe,hresidents⟩ |
      ⟨next,permit,hnext,hstep,hframe,hresidents⟩
    · dsimp only at hnext
      rw [hnext]
      have hkept : ∀ x record, True → (x,record) ∈ layer.residents →
          (x,record) ∈ next.residents := by
        intro x record _ hmem
        rw [hresidents]
        exact hmem
      cases error with
      | noPhysicalSlot layerIndex => cases hconsistent
      | _ =>
        refine ⟨hstep,hframe.layer,hkept,?_⟩
        rintro _ ⟨⟩
        exact hconsistent
    · dsimp only at hnext
      rw [hnext]
      refine ⟨hstep,hframe.layer,fun x record _ hmem => ?_,nofun⟩
      rw [hresidents, Lru.mem_put]
      refine .inr ⟨hmem,?_⟩
      rintro rfl
      exact habsent record hmem
  · rw [hlookup]
    refine ⟨htouched.inStep,?_,fun x record _ hmem => (htouched.residents x record).mpr hmem,nofun⟩
    rw [htouched.arena]

end Locked

/-- A call of the manager, with everything that happens around it. -/
inductive Call
  | demand (env : Environment) (priority : Priority) (layerIndex : ℕ)
      (demands : List DemandExpert) (path : InstallPath)
  | speculate (env : Environment) (priority : Priority) (globalId : ℕ) (source : Source)

def Call.env : Call → Environment
  | demand env _ _ _ _ => env
  | speculate env _ _ _ => env

/-- The recency list of a layer holds exactly the resident owners of its arena, under their ids,
no slot is left installing, and the residents fit. -/
structure Synchronised (numExperts : ℕ) (layer : LayerResidency) : Prop where
  distinct : (layer.residents.map Prod.fst).Nodup
  recorded : ∀ globalId record, (globalId,record) ∈ layer.residents ↔
    record.key = record.residency.key ∧
      globalId = layer.arena.layerIndex*numExperts+record.key.expertId ∧
      ∃ s, s<layer.arena.state.slotCapacity ∧
        layer.arena.state.owner s = .resident record.residency
  settled : ∀ s key slotEpoch ticket,
    layer.arena.state.owner s ≠ .installing key slotEpoch ticket
  fits : layer.residents.length ≤ layer.arena.state.slotCapacity

lemma InStep.synchronised {space : Namespace} {layer : LayerResidency}
    (h : InStep space layer []) : Synchronised space.expertsPerLayer layer := by
  refine ⟨h.distinct,fun globalId record => ?_,fun s key slotEpoch ticket howner => ?_,
    h.residents_le⟩
  · rw [h.recorded]
    refine and_congr_right fun _ => and_congr_right fun _ => exists_congr fun s => ?_
    refine ⟨fun howner => ⟨?_,howner⟩,And.right⟩
    apply h.held.tables.capacity s record.residency.key
    rw [howner]
    rfl
  · obtain ⟨permit,hmem,-⟩ := h.held.installing s key slotEpoch ticket howner
    cases hmem

namespace Manager
variable {m : Manager}

def after (self : Manager) : Call → Manager
  | .demand env priority layerIndex demands path =>
    (self.ensureDemandSet env priority layerIndex demands path).1
  | .speculate env priority globalId source =>
    (self.ensureSpeculativeResident env priority globalId source).1

def run (self : Manager) (calls : List Call) : Manager := calls.foldl after self

/-- A layer records this residency for an expert. -/
def Resident (self : Manager) (layerIndex globalId : ℕ) (residency : ExpertResidency) : Prop :=
  ∃ layer, self.layers[layerIndex]? = some layer ∧
    ∃ record, record.residency = residency ∧ (globalId,record) ∈ layer.residents

/-- Every layer of the manager is in step. -/
def InStep (self : Manager) : Prop :=
  ∀ i layer, self.layers[i]? = some layer →
    layer.arena.layerIndex = i ∧ Residency.InStep self.space layer []

/-- The outcome of a demand call. -/
structure DemandAnswered (m : Manager) (layerIndex : ℕ) (demands : List DemandExpert)
    (answer : Manager × Except TieredResidencyError (List ExpertResidency)) : Prop where
  consistent : ∀ error, answer.2 = .error error → error.inconsistent = false
  returned : ∀ residencies, answer.2 = .ok residencies → List.Forall₂
    (fun demand residency => answer.1.Resident layerIndex demand.globalId residency)
    demands residencies
  kept : ∀ demand ∈ demands, ∀ residency, m.Resident layerIndex demand.globalId residency →
    answer.1.Resident layerIndex demand.globalId residency

/-- The outcome of a speculative call. -/
structure SpeculationAnswered (m : Manager)
    (answer : Manager × Except TieredResidencyError SpeculativeInstall) : Prop where
  consistent : ∀ error, answer.2 = .error error → error.inconsistent = false
  kept : ∀ layerIndex globalId residency, m.Resident layerIndex globalId residency →
    answer.1.Resident layerIndex globalId residency

def setLayer (self : Manager) (layerIndex : ℕ) (layer : LayerResidency) : Manager :=
  { self with layers := self.layers.set layerIndex layer }

lemma layers_setLayer {i : ℕ} {layer : LayerResidency} (hlayer : m.layers[i]? = some layer)
    (next : LayerResidency) (j : ℕ) :
    (m.setLayer i next).layers[j]? = if i = j then some next else m.layers[j]? := by
  change (m.layers.set i next)[j]? = _
  rw [List.getElem?_set, if_pos (List.getElem?_eq_some_iff.mp hlayer).1]

lemma space_setLayer (i : ℕ) (next : LayerResidency) : (m.setLayer i next).space = m.space := by
  unfold space setLayer
  rw [List.length_set]

lemma InStep.setLayer (h : m.InStep) {i : ℕ} {layer next : LayerResidency}
    (hlayer : m.layers[i]? = some layer) (hnext : Residency.InStep m.space next [])
    (hindex : next.arena.layerIndex = layer.arena.layerIndex) : (m.setLayer i next).InStep := by
  intro j other hother
  rw [space_setLayer]
  rw [layers_setLayer hlayer] at hother
  split_ifs at hother with hij
  · obtain rfl := Option.some.inj hother
    exact ⟨hindex.trans ((h i layer hlayer).1.trans hij),hnext⟩
  · exact h j other hother

/-- Records that a layer keeps stay resident. -/
lemma Resident.setLayer {i j globalId : ℕ} {residency : ExpertResidency}
    {layer next : LayerResidency} (h : m.Resident j globalId residency)
    (hlayer : m.layers[i]? = some layer)
    (hkept : ∀ record, (globalId,record) ∈ layer.residents → (globalId,record) ∈ next.residents) :
    (m.setLayer i next).Resident j globalId residency := by
  obtain ⟨other,hother,record,hresidency,hmem⟩ := h
  by_cases hij : i = j
  · subst hij
    obtain rfl := Option.some.inj (hlayer.symm.trans hother)
    refine ⟨next,?_,record,hresidency,hkept record hmem⟩
    rw [layers_setLayer hlayer, if_pos rfl]
  · refine ⟨other,?_,record,hresidency,hmem⟩
    rw [layers_setLayer hlayer, if_neg hij, hother]

/-- An answer that changed nothing and reports an error of the call itself. -/
lemma DemandAnswered.refused (m : Manager) (layerIndex : ℕ) (demands : List DemandExpert)
    {error : TieredResidencyError} (h : error.inconsistent = false) :
    DemandAnswered m layerIndex demands (m,.error error) := by
  refine ⟨?_,nofun,fun _ _ _ hresident => hresident⟩
  rintro _ ⟨⟩
  exact h

lemma SpeculationAnswered.refused (m : Manager) {error : TieredResidencyError}
    (h : error.inconsistent = false) : SpeculationAnswered m (m,.error error) := by
  refine ⟨?_,fun _ _ _ hresident => hresident⟩
  rintro _ ⟨⟩
  exact h

variable {env : Environment}

/-- A demand call keeps the manager in step and answers as it should. -/
theorem InStep.ensureDemandSet (h : m.InStep) (hretire : env.TakesBack) {priority : Priority}
    {layerIndex : ℕ} {demands : List DemandExpert} {path : InstallPath} :
    (m.ensureDemandSet env priority layerIndex demands path).1.InStep ∧
      DemandAnswered m layerIndex demands
        (m.ensureDemandSet env priority layerIndex demands path) := by
  unfold Manager.ensureDemandSet
  split_ifs with hpriority
  · exact ⟨h,.refused m layerIndex demands rfl⟩
  cases hlayer : m.layers[layerIndex]? with
  | none => exact ⟨h,.refused m layerIndex demands rfl⟩
  | some layer =>
    dsimp only
    split_ifs with hcapacity
    · exact ⟨h,.refused m layerIndex demands rfl⟩
    cases hcheck : checkDemands m.space env layerIndex [] demands with
    | error e => exact ⟨h,.refused m layerIndex demands (checkDemands_consistent hcheck)⟩
    | ok _ =>
      obtain ⟨hnodup,hexperts⟩ := checkDemands_ok hcheck
      obtain ⟨hindex,hstep⟩ := h layerIndex layer hlayer
      have hexpert : ∀ demand ∈ demands,
          ∃ e, m.space.identity demand.globalId = .ok ⟨layer.arena.layerIndex,e⟩ := by
        rw [hindex]
        exact fun demand hmem => (hexperts demand hmem).2
      obtain ⟨hserved,hreturned⟩ := @demandLocked_spec m.space env layer path demands hstep hnodup
        hexpert (Nat.not_lt.mp hcapacity) hretire
      dsimp only
      generalize demandLocked m.space env path layer demands = outcome at hserved hreturned
      obtain ⟨next,result⟩ := outcome
      refine ⟨h.setLayer hlayer hserved.inStep hserved.layerIndex,hserved.consistent,
        fun residencies hok => ?_,fun demand hmem residency hresident => ?_⟩
      · refine (hreturned residencies hok).imp fun demand residency hrecord => ⟨next,?_,hrecord⟩
        rw [← Manager.setLayer, layers_setLayer hlayer, if_pos rfl]
      · exact hresident.setLayer hlayer fun record =>
          hserved.kept _ record (List.mem_map_of_mem hmem)

/-- A speculative call keeps the manager in step and evicts nothing. -/
theorem InStep.ensureSpeculativeResident (h : m.InStep) (hretire : env.TakesBack)
    {priority : Priority} {globalId : ℕ} {source : Source} :
    (m.ensureSpeculativeResident env priority globalId source).1.InStep ∧
      SpeculationAnswered m (m.ensureSpeculativeResident env priority globalId source) := by
  have hself : ∀ result, SpeculationAnswered m (m,.ok result) := fun result =>
    ⟨nofun,fun _ _ _ hresident => hresident⟩
  unfold Manager.ensureSpeculativeResident
  by_cases hpriority : priority = .speculative
  · rw [if_neg (not_not.mpr hpriority)]
    cases hsource : validateSource env globalId source with
    | error e =>
      have hconsistent := validateSource_consistent hsource
      cases e with
      | logicalAdmissionStale x generation => exact ⟨h,hself _⟩
      | _ => exact ⟨h,.refused m hconsistent⟩
    | ok _ =>
      cases hidentity : m.space.identity globalId with
      | error e => exact ⟨h,.refused m (identity_consistent hidentity)⟩
      | ok expert =>
        dsimp only
        cases hlayer : m.layers[expert.layerIndex]? with
        | none => exact ⟨h,.refused m rfl⟩
        | some layer =>
          obtain ⟨hindex,hstep⟩ := h _ layer hlayer
          have hexpert : m.space.identity globalId =
              .ok ⟨layer.arena.layerIndex,expert.localExpertId⟩ := by
            rw [hindex, hidentity]
          have hserved := @speculateLocked_spec m.space env layer globalId source _ hstep hexpert
            hretire
          dsimp only
          split_ifs with hlock
          · exact ⟨h,hself _⟩
          · generalize speculateLocked m.space env layer globalId source = outcome at hserved
            obtain ⟨next,result⟩ := outcome
            exact ⟨h.setLayer hlayer hserved.inStep hserved.layerIndex,hserved.consistent,
              fun _ x _ hresident => hresident.setLayer hlayer fun record =>
                hserved.kept x record trivial⟩
  · rw [if_pos hpriority]
    exact ⟨h,.refused m rfl⟩

lemma InStep.after (h : m.InStep) {call : Call} (hretire : call.env.TakesBack) :
    (m.after call).InStep := by
  cases call with
  | demand env priority layerIndex demands path => exact (h.ensureDemandSet hretire).1
  | speculate env priority globalId source => exact (h.ensureSpeculativeResident hretire).1

theorem InStep.run (h : m.InStep) {calls : List Call}
    (hcalls : ∀ call ∈ calls, call.env.TakesBack) : (m.run calls).InStep := by
  induction calls generalizing m with
  | nil => exact h
  | cons call calls ih =>
    obtain ⟨hcall,hrest⟩ := List.forall_mem_cons.mp hcalls
    exact ih (h.after hcall) hrest

section New
variable {geometry : ExpertGeometry} {limits : DeviceLimits}

lemma emptyLayer_inStep {slotCapacity layerIndex : ℕ} {layer : LayerResidency} {space : Namespace}
    (h : emptyLayer geometry limits slotCapacity layerIndex = .ok layer)
    (hvalid : space.validate = .ok ()) (hinside : layerIndex<space.numLayers)
    (hwidth : geometry.numExperts = space.expertsPerLayer) :
    layer.arena.layerIndex = layerIndex ∧ Residency.InStep space layer [] := by
  obtain ⟨layout,hlayout,h⟩ := bind_eq_ok.mp h
  obtain ⟨prepared,hprepared,h⟩ := bind_eq_ok.mp h
  cases h
  have hlayout := (ArenaLayout.tryNew_wellFormed (liftBackend_eq_ok hlayout)).1
  obtain ⟨⟨used,hloaded⟩,-⟩ := validateUploads_loaded hlayout (liftBackend_eq_ok hprepared)
  have hfree : ∀ s, prepared.state.owner s = .free := by
    intro s
    rcases hloaded.owners s with hfree | ⟨upload,hmem,-⟩
    · exact hfree
    · cases hmem
  have hnone : ∀ s residency, prepared.state.owner s ≠ .resident residency := by
    intro s residency howner
    rw [hfree s] at howner
    cases howner
  refine ⟨rfl,⟨hloaded.tables,nofun,nofun,fun s key slotEpoch ticket howner => ?_,
    List.nodup_nil⟩,hvalid,hinside,hwidth,List.nodup_nil,fun globalId record => ?_⟩
  · change prepared.state.owner s = _ at howner
    rw [hfree s] at howner
    cases howner
  · constructor
    · nofun
    · rintro ⟨-,-,s,howner⟩
      exact absurd howner (hnone s _)

lemma emptyLayers {capacities : List ℕ} {n : ℕ} {layers : List LayerResidency}
    (h : (capacities.zipIdx n).mapM (fun plan => emptyLayer geometry limits plan.1 plan.2) =
      .ok layers) :
    layers.length = capacities.length ∧ ∀ i layer, layers[i]? = some layer →
      ∃ slotCapacity, emptyLayer geometry limits slotCapacity (n+i) = .ok layer := by
  induction capacities generalizing n layers with
  | nil =>
    cases h
    exact ⟨rfl,nofun⟩
  | cons slotCapacity capacities ih =>
    rw [List.zipIdx_cons, List.mapM_cons] at h
    obtain ⟨first,hfirst,h⟩ := bind_eq_ok.mp h
    obtain ⟨rest,hrest,h⟩ := bind_eq_ok.mp h
    cases h
    obtain ⟨hlength,hlayers⟩ := ih hrest
    refine ⟨by rw [List.length_cons, hlength, List.length_cons],fun i layer hi => ?_⟩
    cases i with
    | zero =>
      rw [List.getElem?_cons_zero] at hi
      cases hi
      exact ⟨slotCapacity,hfirst⟩
    | succ i =>
      rw [List.getElem?_cons_succ] at hi
      obtain ⟨other,hother⟩ := hlayers i layer hi
      refine ⟨other,?_⟩
      rw [Nat.add_assoc, Nat.add_comm 1 i] at hother
      exact hother

theorem tryNew_inStep {capacities : List ℕ} (h : tryNew geometry limits capacities = .ok m) :
    m.InStep := by
  obtain ⟨_,hvalid,h⟩ := bind_eq_ok.mp h
  obtain ⟨layers,hlayers,h⟩ := bind_eq_ok.mp h
  cases h
  obtain ⟨hlength,hempty⟩ := emptyLayers hlayers
  intro i layer hi
  obtain ⟨slotCapacity,hlayer⟩ := hempty i layer hi
  rw [Nat.zero_add] at hlayer
  have hspace : space ⟨geometry,layers⟩ = ⟨capacities.length,geometry.numExperts⟩ := by
    rw [← hlength]
    rfl
  have hinside : i<capacities.length := by
    rw [← hlength]
    exact (List.getElem?_eq_some_iff.mp hi).1
  rw [hspace]
  exact emptyLayer_inStep hlayer hvalid hinside rfl

end New

/-- After any calls from empty arenas, whatever failed in them, every layer's recency list and
arena agree, and the next call neither reports them apart nor evicts what it must keep. -/
theorem run_synchronised {geometry : ExpertGeometry} {limits : DeviceLimits}
    {capacities : List ℕ} (hnew : tryNew geometry limits capacities = .ok m) {calls : List Call}
    (hcalls : ∀ call ∈ calls, call.env.TakesBack) :
    (∀ layer ∈ (m.run calls).layers, Synchronised (m.run calls).geometry.numExperts layer) ∧
      ∀ env : Environment, env.TakesBack →
        (∀ priority layerIndex demands path, DemandAnswered (m.run calls) layerIndex demands
          ((m.run calls).ensureDemandSet env priority layerIndex demands path)) ∧
        ∀ priority globalId source, SpeculationAnswered (m.run calls)
          ((m.run calls).ensureSpeculativeResident env priority globalId source) := by
  have hrun := (tryNew_inStep hnew).run hcalls
  refine ⟨fun layer hmem => ?_,fun env hretire => ⟨fun priority layerIndex demands path => ?_,
    fun priority globalId source => ?_⟩⟩
  · obtain ⟨i,hi⟩ := List.mem_iff_getElem?.mp hmem
    exact (hrun i layer hi).2.synchronised
  · exact (hrun.ensureDemandSet hretire).2
  · exact (hrun.ensureSpeculativeResident hretire).2

/-- Everything succeeds, except the physical writes of some experts. -/
def smallEnvironment (failing : List ℕ) : Environment where
  sourceCurrent _ := true
  stillCurrent _ := true
  admissionCurrent _ := true
  acquireGate _ := .ok ()
  stageGate _ := .ok ()
  commitGate _ := .ok ()
  retireGate _ := .ok ()
  physicalWrite x := if x ∈ failing then .error (.expertDirectStagingUnavailable 0 0 4) else .ok ()
  uploadState := .ok ()
  copySubmit := .ok ()
  schedule reserved := reserved
  schedule_perm _ := .refl _
  lockFree := true

def smallSource (globalId : ℕ) : Source := ⟨globalId,globalId,1,[1,2,3,4]⟩

/-- The first install fails; expert 1 is installed, and expert 0 takes its place. -/
def smallCalls : List Call :=
  [.demand (smallEnvironment [0]) .demand 0 [.install 0 (smallSource 0)]
      .productionConcurrentDirectStaging,
    .demand (smallEnvironment []) .demand 0 [.install 1 (smallSource 1)]
      .productionConcurrentDirectStaging,
    .speculate (smallEnvironment []) .speculative 0 (smallSource 0),
    .demand (smallEnvironment []) .demand 0 [.install 0 (smallSource 0)]
      .legacyFullSlotVecControl]

theorem run_synchronised_replaced :
    ∃ m, tryNew smallGeometry ⟨64,64⟩ [1] = .ok m ∧
      (m.run smallCalls).layers.map (fun layer => layer.residents.map Prod.fst) = [[0]] ∧
      ∀ layer ∈ (m.run smallCalls).layers,
        Synchronised (m.run smallCalls).geometry.numExperts layer := by
  refine ⟨_,rfl,by decide +kernel,
    (@run_synchronised _ smallGeometry ⟨64,64⟩ [1] rfl smallCalls ?_).1⟩
  intro call hmem x hx
  simp only [smallCalls, List.mem_cons, List.not_mem_nil, or_false] at hmem
  rcases hmem with rfl | rfl | rfl | rfl <;> cases hx

end Manager

end MicroExpertRouter.Residency
