import MicroExpertRouter.GpuCache.Runs

/-! Whole runs: an admission generation is an identity, and the demand set of a live guard stays
admitted. -/
namespace MicroExpertRouter.GpuCache

/-- The admissions and their accounting are unchanged. -/
structure SameAdmissions (cache next : GpuExpertCache) : Prop where
  anchor : next.anchor = cache.anchor
  anchorUsed : next.anchorUsedBytes = cache.anchorUsedBytes
  lru : next.lru = cache.lru
  lruUsed : next.lruUsedBytes = cache.lruUsedBytes
  next_eq : next.nextGeneration = cache.nextGeneration

/-- The ids whose admission an operation asks for, with payloads. -/
def Operation.requested : Operation → List ℕ
  | .promoteHotSync resident => [resident.id]
  | .promoteSync resident => [resident.id]
  | .tryPromoteLruNoEvict resident => [resident.id]
  | .demandAdmitLru resident => [resident.id]
  | .demandAdmitSet expertIds _ => expertIds
  | _ => []

/-- The answers that refuse an admission. -/
def Answer.Refuses : Answer → Prop
  | .hot outcome => outcome = .noCapacity ∨ outcome = .generationExhausted
  | .promoted installed => installed = false
  | .admitted result => ∃ e, result = .error e
  | .demandSet result => ∀ admissions newlyAdmitted, result ≠ .ok (.ready admissions newlyAdmitted)
  | _ => False

section Exhausted
variable {config : Config} {cache : GpuExpertCache} {system : System}

lemma SameAdmissions.refl (cache : GpuExpertCache) : SameAdmissions cache cache :=
  ⟨rfl,rfl,rfl,rfl,rfl⟩

lemma SameAdmissions.clearMarkers (cache : GpuExpertCache) (id : ℕ) :
    SameAdmissions cache (cache.clearMarkers id) :=
  ⟨rfl,rfl,rfl,rfl,rfl⟩

lemma allocateGeneration_exhausted (hexhausted : u64Max ≤ cache.nextGeneration) :
    cache.allocateGeneration = none := by
  rcases allocateGeneration_eq cache with ⟨hallocate,-⟩ | ⟨-,hnext⟩
  · exact hallocate
  · omega

lemma promoteHotSync_exhausted (h : Representation config cache)
    (hexhausted : u64Max ≤ cache.nextGeneration) {resident : GpuResident}
    (habsent : cache.Absent resident.id) :
    ∃ next outcome, cache.promoteHotSync config resident = .ok (next,outcome) ∧
      Answer.Refuses (.hot outcome) ∧ SameAdmissions cache next := by
  have hclear := SameAdmissions.clearMarkers cache resident.id
  unfold GpuExpertCache.promoteHotSync
  dsimp only
  rcases resolveExistingHot_spec h resident.id with ⟨-,hresolve⟩ | ⟨hpresent,-⟩
  swap
  · exact absurd habsent hpresent
  rw [hresolve, ok_bind]
  dsimp only
  rw [allocateGeneration_exhausted hexhausted]
  dsimp only
  split_ifs
  · exact ⟨_,_,rfl,.inl rfl,hclear⟩
  · exact ⟨_,_,rfl,.inl rfl,hclear⟩
  · exact ⟨_,_,rfl,.inl rfl,hclear⟩
  · exact ⟨_,_,rfl,.inr rfl,hclear⟩

lemma promoteSync_exhausted (hexhausted : u64Max ≤ cache.nextGeneration) {resident : GpuResident}
    (habsent : cache.Absent resident.id) :
    ∃ next, cache.promoteSync config resident = .ok (next,false) ∧ SameAdmissions cache next := by
  have hclear := SameAdmissions.clearMarkers cache resident.id
  have hallocate := @allocateGeneration_exhausted (cache.clearMarkers resident.id) hexhausted
  obtain ⟨hanchor,hlru⟩ := GpuExpertCache.absent_iff.mp habsent
  unfold GpuExpertCache.promoteSync
  dsimp only
  rw [hallocate]
  change Lru.peek (cache.clearMarkers resident.id).anchor resident.id = none at hanchor
  change Lru.peek (cache.clearMarkers resident.id).lru resident.id = none at hlru
  rw [hanchor, hlru]
  simp only [Option.isSome_none, Bool.false_eq_true, if_false]
  split_ifs
  · exact ⟨_,rfl,hclear⟩
  · exact ⟨_,rfl,hclear⟩
  · exact ⟨_,rfl,hclear⟩
  · exact ⟨_,rfl,hclear⟩

lemma tryPromoteLruNoEvict_exhausted (hexhausted : u64Max ≤ cache.nextGeneration)
    {resident : GpuResident} (habsent : cache.Absent resident.id) :
    cache.tryPromoteLruNoEvict config resident = .ok (cache,false) := by
  unfold GpuExpertCache.tryPromoteLruNoEvict
  dsimp only
  rw [allocateGeneration_exhausted hexhausted, GpuExpertCache.contains_eq_false.mpr habsent]
  simp only [Bool.false_eq_true, if_false]
  split_ifs
  · rfl
  · rfl
  · rfl

lemma demandAdmitLru_exhausted (hexhausted : u64Max ≤ cache.nextGeneration)
    {resident : GpuResident} (habsent : cache.Absent resident.id) :
    ∃ e, cache.demandAdmitLru config resident = .ok (cache,.error e) := by
  unfold GpuExpertCache.demandAdmitLru
  dsimp only
  rw [allocateGeneration_exhausted hexhausted, GpuExpertCache.contains_eq_false.mpr habsent]
  simp only [Bool.false_eq_true, if_false]
  split_ifs
  · exact ⟨_,rfl⟩
  · exact ⟨_,rfl⟩
  · split
    · exact ⟨_,rfl⟩
    · split_ifs
      · exact ⟨_,rfl⟩
      · exact ⟨_,rfl⟩

lemma demandAdmitSet_exhausted (hexhausted : u64Max ≤ cache.nextGeneration) {expertIds : List ℕ}
    {sources : ℕ → Option GpuResident} {id : ℕ} (hid : id ∈ expertIds)
    (habsent : cache.Absent id) :
    ∃ result, cache.demandAdmitSet config expertIds sources = .ok (cache,result) ∧
      Answer.Refuses (.demandSet result) := by
  unfold GpuExpertCache.demandAdmitSet
  dsimp only
  cases hduplicate : firstDuplicate [] expertIds with
  | some expertId => exact ⟨_,rfl,nofun⟩
  | none =>
    dsimp only
    cases hscan : cache.scanDemand config sources expertIds ⟨[],[],0,0⟩ with
    | error e => exact ⟨_,rfl,nofun⟩
    | ok scan =>
      dsimp only
      by_cases hrequired : scan.payloadRequired = []
      swap
      · rw [if_pos hrequired]
        exact ⟨_,rfl,nofun⟩
      rw [if_neg (not_not.mpr hrequired)]
      by_cases hlarge : config.lruCapacityBytes<scan.selectedLruBytes
      · rw [if_pos hlarge]
        exact ⟨_,rfl,nofun⟩
      rw [if_neg hlarge]
      have hlength := List.length_pos_of_mem
        ((scanDemand_spec hscan).supplies hrequired hid habsent)
      have hnone : checkedAdd u64Max cache.nextGeneration scan.newIds.length = none := by
        unfold checkedAdd
        rw [if_neg (by omega)]
      rw [hnone]
      split
      · exact ⟨_,rfl,nofun⟩
      · dsimp only
        split_ifs
        · exact ⟨_,rfl,nofun⟩
        · exact ⟨_,rfl,nofun⟩

/-- Without a generation, an admission of an absent id is refused and changes no admission. -/
theorem step_exhausted (h : Consistent config system)
    (hexhausted : u64Max ≤ system.cache.nextGeneration) {operation : Operation} {id : ℕ}
    (hid : id ∈ operation.requested) (habsent : system.cache.Absent id) :
    ∃ next answer, system.step config operation = .ok (next,answer) ∧ answer.Refuses ∧
      SameAdmissions system.cache next.cache := by
  cases operation with
  | promoteHotSync resident =>
    cases List.mem_singleton.mp hid
    obtain ⟨next,outcome,hcall,hrefuses,hsame⟩ := @promoteHotSync_exhausted config _ h.rep hexhausted
      resident habsent
    exact ⟨{ system with cache := next },.hot outcome,by rw [System.step, hcall]; rfl,hrefuses,hsame⟩
  | promoteSync resident =>
    cases List.mem_singleton.mp hid
    obtain ⟨next,hcall,hsame⟩ := @promoteSync_exhausted config _ hexhausted resident habsent
    exact ⟨{ system with cache := next },.promoted false,by rw [System.step, hcall]; rfl,rfl,hsame⟩
  | tryPromoteLruNoEvict resident =>
    cases List.mem_singleton.mp hid
    have hcall := @tryPromoteLruNoEvict_exhausted config _ hexhausted resident habsent
    exact ⟨system,.promoted false,by rw [System.step, hcall]; rfl,rfl,.refl _⟩
  | demandAdmitLru resident =>
    cases List.mem_singleton.mp hid
    obtain ⟨e,hcall⟩ := @demandAdmitLru_exhausted config _ hexhausted resident habsent
    exact ⟨system,.admitted (.error e),by rw [System.step, hcall]; rfl,⟨e,rfl⟩,.refl _⟩
  | demandAdmitSet expertIds sources =>
    obtain ⟨result,hcall,hrefuses⟩ := @demandAdmitSet_exhausted config _ hexhausted expertIds sources
      id hid habsent
    exact ⟨system,.demandSet result,by rw [System.step, hcall]; rfl,hrefuses,.refl _⟩
  | get _ => cases hid
  | claimPromotion _ _ => cases hid
  | cancelPromotion _ => cases hid
  | promoteHotExisting _ => cases hid
  | protectDemandSet _ => cases hid
  | dropGuard _ => cases hid

end Exhausted

section History
variable {config : Config} {system last : System} {events : List Event}

lemma Representation.admission_eq {cache : GpuExpertCache} (h : Representation config cache) {id : ℕ}
    {a b : GpuAdmission} (ha : (id,a) ∈ cache.entries) (hb : (id,b) ∈ cache.entries) : a = b :=
  Lru.Distinct.eq h.keys ha hb

lemma Run.next_le (hrun : Run config system events last) (h : Consistent config system) :
    system.cache.nextGeneration ≤ last.cache.nextGeneration := by
  induction hrun with
  | nil => exact le_rfl
  | cons operation hstep _ ih =>
    have htransition := h.transition hstep
    exact htransition.next_le.trans (ih htransition.consistent)

lemma Run.anchor (hrun : Run config system events last) (h : Consistent config system) :
    ∀ entry ∈ system.cache.anchor, entry ∈ last.cache.anchor := by
  induction hrun with
  | nil => exact fun _ hentry => hentry
  | cons operation hstep _ ih =>
    have htransition := h.transition hstep
    intro entry hentry
    exact ih htransition.consistent entry (htransition.anchor entry hentry)

/-- An admission a run reaches was there at its start, or has a new generation. -/
lemma Run.origin (hrun : Run config system events last) (h : Consistent config system) :
    ∀ entry ∈ last.cache.entries, entry ∈ system.cache.entries ∨
      system.cache.nextGeneration ≤ entry.2.generation := by
  induction hrun with
  | nil => exact fun _ hentry => .inl hentry
  | cons operation hstep _ ih =>
    have htransition := h.transition hstep
    intro entry hentry
    rcases ih htransition.consistent entry hentry with hentry | hle
    · rcases htransition.origin entry hentry with hentry | ⟨-,hle⟩
      · exact .inl hentry
      · exact .inr hle
    · exact .inr (htransition.next_le.trans hle)

/-- An id that stays admitted keeps its admission. -/
lemma Run.stays {id : ℕ} {admission : GpuAdmission} (hrun : Run config system events last)
    (h : Consistent config system) (hadmitted : ∀ event ∈ events, ¬ event.after.cache.Absent id)
    (hentry : (id,admission) ∈ system.cache.entries) : (id,admission) ∈ last.cache.entries := by
  induction hrun with
  | nil => exact hentry
  | @cons system next last answer events operation hstep _ ih =>
    have htransition := h.transition hstep
    rw [List.forall_mem_cons] at hadmitted
    refine ih htransition.consistent hadmitted.2 ?_
    by_contra hgone
    apply hadmitted.1
    intro other hother
    rcases htransition.origin _ hother with hother' | ⟨habsent,-⟩
    · rw [h.rep.admission_eq hentry hother'] at hgone
      exact hgone hother
    · exact habsent admission hentry

/-- A cache with room for one small resident. -/
def tinyConfig : Config := .new 10 0 3 (Nat.le_of_ble_eq_true rfl) (Nat.zero_le _)

/-- The tiny cache with one resident. -/
def tinySystem (id generation : ℕ) (rearm : Finset ℕ) : System :=
  ⟨⟨[],0,[(id,⟨smallResident id,generation⟩)],10,generation+1,∅,rearm,fun _ => none,10⟩,[],0⟩

end History

section Protection
variable {config : Config} {system last : System} {events : List Event}

lemma guardCount_pos {id : ℕ} {guard : ℕ × List ℕ} (hguard : guard ∈ system.guards)
    (hid : id ∈ guard.2) : 0<system.guardCount id := by
  rw [System.guardCount, List.countP_pos_iff]
  exact ⟨guard,hguard,decide_eq_true hid⟩

/-- While an id is guarded, it keeps its admission. -/
lemma Run.protected {id : ℕ} {admission : GpuAdmission} (hrun : Run config system events last)
    (h : Consistent config system) (hguarded : ∀ event ∈ events, 0<event.before.guardCount id)
    (hentry : (id,admission) ∈ system.cache.entries) : (id,admission) ∈ last.cache.entries := by
  induction hrun with
  | nil => exact hentry
  | cons operation hstep _ ih =>
    have htransition := h.transition hstep
    rw [List.forall_mem_cons] at hguarded
    exact ih htransition.consistent hguarded.2 (htransition.kept _ hentry hguarded.1)

/-- A guard that is alive at the end of a run and older than it was alive throughout. -/
lemma Run.alive {guard : ℕ × List ℕ} (hrun : Run config system events last)
    (h : Consistent config system) (hguard : guard ∈ last.guards)
    (hissued : guard.1<system.nextGuard) :
    guard ∈ system.guards ∧ ∀ event ∈ events, guard ∈ event.before.guards := by
  induction hrun with
  | nil => exact ⟨hguard,fun _ h => absurd h List.not_mem_nil⟩
  | cons operation hstep _ ih =>
    have htransition := h.transition hstep
    obtain ⟨hnext,hrest⟩ := ih htransition.consistent hguard
      (hissued.trans_le htransition.nextGuard_le)
    have hnow := (htransition.guards guard hnext).resolve_right (Nat.not_le.mpr hissued)
    exact ⟨hnow,List.forall_mem_cons.mpr ⟨hnow,hrest⟩⟩

lemma step_demandAdmitSet {expertIds : List ℕ} {sources : ℕ → Option GpuResident} {next : System}
    {required : List ℕ} (h : Consistent config system)
    (hstep : system.step config (.demandAdmitSet expertIds sources) =
      .ok (next,.demandSet (.ok (.payloadRequired required)))) :
    required = system.cache.missing sources expertIds ∧ required ≠ [] := by
  obtain ⟨cache,result,cleared,hcall,-,-,hrequired⟩ := demandAdmitSet_spec h.rep expertIds sources
  rw [System.step, hcall] at hstep
  cases hstep
  exact hrequired required rfl

/-- Foreground demand sets are protected. The registry counts the live guards, dropping one does
not panic, a guarded admission stays, and a holder that supplies the payloads it was asked for is
not asked again. -/
theorem demand_sets_protected (hrun : Run config .new events system) :
    (∀ id, system.cache.demandProtections id = references (system.guardCount id)) ∧
    (∀ handle reason, system.step config (.dropGuard handle) ≠ .error (.panic reason)) ∧
    (∀ later last id admission, Run config system later last →
      (∀ event ∈ later, 0<event.before.guardCount id) →
      (id,admission) ∈ system.cache.entries → (id,admission) ∈ last.cache.entries) ∧
    (∀ handle expertIds missing next later last sources after required,
      (handle,expertIds) ∈ system.guards →
      system.step config (.demandAdmitSet expertIds fun _ => none) =
        .ok (next,.demandSet (.ok (.payloadRequired missing))) →
      Run config next later last → (handle,expertIds) ∈ last.guards →
      (∀ id ∈ missing, (sources id).isSome = true) →
      last.step config (.demandAdmitSet expertIds sources) ≠
        .ok (after,.demandSet (.ok (.payloadRequired required)))) := by
  have hconsistent := hrun.consistent (.new config)
  refine ⟨hconsistent.counts,fun handle reason hpanic => ?_,
    fun later last id admission hlater hguarded hentry => hlater.protected hconsistent hguarded hentry,
    ?_⟩
  · obtain ⟨next,answer,hok,-⟩ := dropGuard_spec hconsistent handle
    rw [System.step, hok] at hpanic
    cases hpanic
  · intro handle expertIds missing next later last sources after required hguard hfirst hlater hlive
      hcovered hsecond
    have hfirstStep := hconsistent.transition hfirst
    have hnext := hfirstStep.consistent
    have hlast := hlater.consistent hnext
    obtain ⟨hmissing,-⟩ := step_demandAdmitSet hconsistent hfirst
    obtain ⟨hrequired,hnonempty⟩ := step_demandAdmitSet hlast hsecond
    obtain ⟨-,halive⟩ := hlater.alive hnext hlive
      ((hconsistent.issued _ hguard).trans_le hfirstStep.nextGuard_le)
    -- An id without a payload was admitted at the first call, so that the guard kept it.
    obtain ⟨id,hid⟩ := List.exists_mem_of_ne_nil _ hnonempty
    rw [hrequired, GpuExpertCache.missing, List.mem_filter, Bool.and_eq_true, Bool.not_eq_true',
      GpuExpertCache.contains_eq_false] at hid
    obtain ⟨hselected,habsent,hnone⟩ := hid
    have hpresent : ¬ system.cache.Absent id := by
      intro hold
      have hcontains := GpuExpertCache.contains_eq_false.mpr hold
      have hsome := hcovered id (by
        rw [hmissing, GpuExpertCache.missing, List.mem_filter]
        exact ⟨hselected,by simp [hcontains]⟩)
      rw [Option.isNone_iff_eq_none.mp hnone] at hsome
      cases hsome
    apply hpresent
    intro admission hadmission
    have hkept := hfirstStep.kept _ hadmission (guardCount_pos hguard hselected)
    exact habsent admission (hlater.protected hnext
      (fun event hevent => guardCount_pos (halive event hevent) hselected) hkept)

/-- A cache with room for two small residents. -/
def pairConfig : Config := .new 20 0 3 (Nat.le_of_ble_eq_true rfl) (Nat.zero_le _)

theorem demand_sets_protected_pair : ∃ events system, Run pairConfig .new events system ∧
    (0,[1,2]) ∈ system.guards ∧ system.cache.demandProtections 1 = some 1 ∧
    system.step pairConfig (.demandAdmitSet [1,2] fun _ => none) =
      .ok (system,.demandSet (.ok (.payloadRequired [2]))) ∧
    ∀ after required, system.step pairConfig (.demandAdmitSet [1,2] fun id => some (smallResident id)) ≠
      .ok (after,.demandSet (.ok (.payloadRequired required))) := by
  have hrun : Run pairConfig .new _ _ := .cons (.demandAdmitLru (smallResident 1)) rfl
    (.cons (.protectDemandSet [1,2]) rfl (.nil _))
  obtain ⟨hcounts,-,-,htwice⟩ := @demand_sets_protected pairConfig _ _ hrun
  refine ⟨_,_,hrun,List.mem_cons_self,hcounts 1,rfl,fun after required => ?_⟩
  exact htwice 0 [1,2] [2] _ [] _ _ after required List.mem_cons_self rfl (.nil _) List.mem_cons_self
    (fun _ _ => rfl)

end Protection

end MicroExpertRouter.GpuCache
