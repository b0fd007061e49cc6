import MicroExpertRouter.GpuCache.Effects

/-! A foreground demand set: what its validation collects, what its installation admits, and the
references its guard holds. -/
namespace MicroExpertRouter.GpuCache

section Scan
variable {config : Config} {cache : GpuExpertCache} {sources : ℕ → Option GpuResident}

/-- The selected ids that need a payload and have none. -/
def GpuExpertCache.missing (self : GpuExpertCache) (sources : ℕ → Option GpuResident)
    (expertIds : List ℕ) : List ℕ :=
  expertIds.filter fun expertId => !self.contains expertId && (sources expertId).isNone

/-- The selected ids that need a payload and have one. -/
def GpuExpertCache.supplied (self : GpuExpertCache) (sources : ℕ → Option GpuResident)
    (expertIds : List ℕ) : List ℕ :=
  expertIds.filter fun expertId => !self.contains expertId && (sources expertId).isSome

/-- The bytes of the payloads of a list of ids. -/
def sourceBytes (sources : ℕ → Option GpuResident) (expertIds : List ℕ) : ℕ :=
  (expertIds.map fun expertId => ((sources expertId).map GpuResident.byteLen).getD 0).sum

/-- What the validating loop has collected at its end. -/
structure Scanned (cache : GpuExpertCache) (sources : ℕ → Option GpuResident) (expertIds : List ℕ)
    (start scan : DemandScan) : Prop where
  required : scan.payloadRequired = start.payloadRequired++cache.missing sources expertIds
  newIds : scan.newIds = start.newIds++cache.supplied sources expertIds
  newBytes : scan.newBytes = start.newBytes+sourceBytes sources (cache.supplied sources expertIds)
  identified : ∀ id ∈ cache.supplied sources expertIds, ∃ source, sources id = some source ∧
    source.id = id

lemma Scanned.skip {expertId : ℕ} {expertIds : List ℕ} {start next scan : DemandScan}
    (h : Scanned cache sources expertIds next scan) (hcontains : cache.contains expertId = true)
    (hrequired : next.payloadRequired = start.payloadRequired)
    (hnewIds : next.newIds = start.newIds) (hnewBytes : next.newBytes = start.newBytes) :
    Scanned cache sources (expertId::expertIds) start scan := by
  have hmissing : cache.missing sources (expertId::expertIds) = cache.missing sources expertIds := by
    simp [GpuExpertCache.missing, hcontains]
  have hsupplied : cache.supplied sources (expertId::expertIds) =
      cache.supplied sources expertIds := by
    simp [GpuExpertCache.supplied, hcontains]
  refine ⟨?_,?_,?_,?_⟩
  · rw [hmissing, ← hrequired]
    exact h.required
  · rw [hsupplied, ← hnewIds]
    exact h.newIds
  · rw [hsupplied, ← hnewBytes]
    exact h.newBytes
  · rw [hsupplied]
    exact h.identified

/-- An absent id without a source is reported. -/
lemma Scanned.require {expertId : ℕ} {expertIds : List ℕ} {start next scan : DemandScan}
    (h : Scanned cache sources expertIds next scan) (hcontains : cache.contains expertId = false)
    (hsource : sources expertId = none)
    (hrequired : next.payloadRequired = start.payloadRequired++[expertId])
    (hnewIds : next.newIds = start.newIds) (hnewBytes : next.newBytes = start.newBytes) :
    Scanned cache sources (expertId::expertIds) start scan := by
  have hmissing : cache.missing sources (expertId::expertIds) =
      expertId::cache.missing sources expertIds := by
    simp [GpuExpertCache.missing, hcontains, hsource]
  have hsupplied : cache.supplied sources (expertId::expertIds) =
      cache.supplied sources expertIds := by
    simp [GpuExpertCache.supplied, hsource]
  refine ⟨?_,?_,?_,?_⟩
  · rw [hmissing, h.required, hrequired, List.append_assoc]
    rfl
  · rw [hsupplied, ← hnewIds]
    exact h.newIds
  · rw [hsupplied, ← hnewBytes]
    exact h.newBytes
  · rw [hsupplied]
    exact h.identified

/-- An absent id whose source names it is new. -/
lemma Scanned.supply {expertId : ℕ} {expertIds : List ℕ} {start next scan : DemandScan}
    {source : GpuResident} (h : Scanned cache sources expertIds next scan)
    (hcontains : cache.contains expertId = false) (hsource : sources expertId = some source)
    (hid : source.id = expertId) (hrequired : next.payloadRequired = start.payloadRequired)
    (hnewIds : next.newIds = start.newIds++[expertId])
    (hnewBytes : next.newBytes = start.newBytes+source.byteLen) :
    Scanned cache sources (expertId::expertIds) start scan := by
  have hmissing : cache.missing sources (expertId::expertIds) =
      cache.missing sources expertIds := by
    simp [GpuExpertCache.missing, hsource]
  have hsupplied : cache.supplied sources (expertId::expertIds) =
      expertId::cache.supplied sources expertIds := by
    simp [GpuExpertCache.supplied, hcontains, hsource]
  have hbytes : sourceBytes sources (expertId::cache.supplied sources expertIds) =
      source.byteLen+sourceBytes sources (cache.supplied sources expertIds) := by
    simp [sourceBytes, hsource]
  refine ⟨?_,?_,?_,?_⟩
  · rw [hmissing, ← hrequired]
    exact h.required
  · rw [hsupplied, h.newIds, hnewIds, List.append_assoc]
    rfl
  · rw [hsupplied, hbytes, h.newBytes, hnewBytes, Nat.add_assoc]
  · rw [hsupplied]
    exact List.forall_mem_cons.mpr ⟨⟨source,hsource,hid⟩,h.identified⟩

theorem scanDemand_spec {expertIds : List ℕ} {start scan : DemandScan}
    (h : cache.scanDemand config sources expertIds start = .ok scan) :
    Scanned cache sources expertIds start scan := by
  induction expertIds generalizing start with
  | nil =>
    cases h
    exact ⟨(List.append_nil _).symm,(List.append_nil _).symm,rfl,nofun⟩
  | cons expertId expertIds ih =>
    unfold GpuExpertCache.scanDemand at h
    dsimp only at h
    by_cases hanchor : (Lru.peek cache.anchor expertId).isSome = true
    · rw [if_pos hanchor] at h
      have hcontains : cache.contains expertId = true := by
        simp [GpuExpertCache.contains, hanchor]
      have hrest := ih h
      exact hrest.skip hcontains rfl rfl rfl
    rw [if_neg hanchor] at h
    cases hlru : Lru.peek cache.lru expertId with
    | some admission =>
      rw [hlru] at h
      have hcontains : cache.contains expertId = true := by
        simp [GpuExpertCache.contains, hlru]
      dsimp only at h
      split at h
      · cases h
      · have hrest := ih h
        exact hrest.skip hcontains rfl rfl rfl
    | none =>
      rw [hlru] at h
      have hcontains : cache.contains expertId = false := by
        simp [GpuExpertCache.contains, hlru, hanchor]
      dsimp only at h
      cases hsource : sources expertId with
      | none =>
        rw [hsource] at h
        have hrest := ih h
        exact hrest.require hcontains hsource rfl rfl rfl
      | some source =>
        rw [hsource] at h
        dsimp only at h
        by_cases hid : source.id = expertId
        swap
        · rw [if_pos hid] at h
          cases h
        rw [if_neg (not_not.mpr hid)] at h
        split_ifs at h with hzero hlarge
        split at h
        · rename_i selected fresh _ hfresh
          obtain ⟨-,rfl⟩ := checkedAdd_eq_some.mp hfresh
          have hrest := ih h
          exact hrest.supply hcontains hsource hid rfl rfl rfl
        · cases h

/-- A validation that requires no payload supplies every absent id. -/
lemma Scanned.supplies {expertIds : List ℕ} {scan : DemandScan} {id : ℕ}
    (h : Scanned cache sources expertIds ⟨[],[],0,0⟩ scan) (hcomplete : scan.payloadRequired = [])
    (hid : id ∈ expertIds) (habsent : cache.Absent id) : id ∈ scan.newIds := by
  have hcontains := GpuExpertCache.contains_eq_false.mpr habsent
  have hmissing : id ∉ cache.missing sources expertIds := by
    have hrequired := h.required
    rw [hcomplete, List.nil_append] at hrequired
    rw [← hrequired]
    exact List.not_mem_nil
  rw [h.newIds, List.nil_append, GpuExpertCache.supplied, List.mem_filter]
  rw [GpuExpertCache.missing, List.mem_filter] at hmissing
  cases hsource : sources id with
  | none => exact absurd ⟨hid,by simp [hcontains, hsource]⟩ hmissing
  | some source => exact ⟨hid,by simp [hcontains]⟩

end Scan

section Install
variable {config : Config} {cache : GpuExpertCache} {sources : ℕ → Option GpuResident}

/-- The installing loop puts new admissions on top of the LRU Edge and drops the markers of their
ids. -/
structure SetInstalled (config : Config) (firstGeneration : ℕ) (expertIds : List ℕ)
    (cache next : GpuExpertCache) (admitted : List (ℕ × GpuAdmission)) : Prop where
  rep : Representation config next
  anchor : next.anchor = cache.anchor
  lru : next.lru = admitted++cache.lru
  fresh : ∀ entry ∈ admitted, entry.1 ∈ expertIds ∧ firstGeneration ≤ entry.2.generation
  admits : ∀ id ∈ expertIds, ∃ admission, (id,admission) ∈ admitted
  next_eq : next.nextGeneration = cache.nextGeneration
  protections : next.demandProtections = cache.demandProtections
  pending : ∀ id, id ∈ next.promotionPending ↔ id ∈ cache.promotionPending ∧ id ∉ expertIds
  rearm : ∀ id ∈ next.promotionRearm, id ∈ cache.promotionRearm

/-- One more admission before the rest of the loop. -/
lemma SetInstalled.cons {expertId firstGeneration used : ℕ} {expertIds : List ℕ}
    {admission : GpuAdmission} {next : GpuExpertCache} {admitted : List (ℕ × GpuAdmission)}
    (h : SetInstalled config (firstGeneration+1) expertIds
      { cache.clearMarkers expertId with
        lru := (expertId,admission)::cache.lru
        lruUsedBytes := used } next admitted)
    (hgeneration : admission.generation = firstGeneration) :
    SetInstalled config firstGeneration (expertId::expertIds) cache next
      (admitted++[(expertId,admission)]) := by
  refine ⟨h.rep,h.anchor,?_,fun entry hentry => ?_,fun id hid => ?_,h.next_eq,h.protections,
    fun id => ?_,fun id hid => Finset.mem_of_mem_erase (h.rearm id hid)⟩
  · rw [h.lru, List.append_assoc]
    rfl
  · rcases List.mem_append.mp hentry with hentry | hentry
    · obtain ⟨hid,hle⟩ := h.fresh entry hentry
      exact ⟨List.mem_cons_of_mem _ hid,by omega⟩
    · rw [List.mem_singleton] at hentry
      subst hentry
      exact ⟨List.mem_cons_self,hgeneration.ge⟩
  · rcases List.mem_cons.mp hid with rfl | hid
    · exact ⟨admission,List.mem_append_right _ List.mem_cons_self⟩
    · obtain ⟨other,hother⟩ := h.admits id hid
      exact ⟨other,List.mem_append_left _ hother⟩
  · rw [h.pending, List.mem_cons, not_or]
    change id ∈ cache.promotionPending.erase expertId ∧ _ ↔ _
    rw [Finset.mem_erase]
    tauto

theorem installSet_spec {firstGeneration offset : ℕ} {expertIds : List ℕ}
    (hrep : Representation config cache) (hnodup : expertIds.Nodup)
    (habsent : ∀ id ∈ expertIds, cache.Absent id)
    (hsources : ∀ id ∈ expertIds, ∃ source, sources id = some source ∧ source.id = id)
    (hroom : cache.lruUsedBytes+sourceBytes sources expertIds ≤ config.lruCapacityBytes)
    (hbelow : ∀ entry ∈ cache.entries, entry.2.generation<firstGeneration+offset)
    (hnext : firstGeneration+offset+expertIds.length ≤ cache.nextGeneration) :
    ∃ next admitted,
      GpuExpertCache.installSet sources firstGeneration offset expertIds cache = .ok next ∧
      SetInstalled config (firstGeneration+offset) expertIds cache next admitted := by
  induction expertIds generalizing cache offset with
  | nil =>
    refine ⟨cache,[],rfl,hrep,rfl,rfl,nofun,nofun,rfl,rfl,fun id => ?_,fun _ hid => hid⟩
    simp
  | cons expertId expertIds ih =>
    obtain ⟨source,hsource,hid⟩ := hsources expertId List.mem_cons_self
    obtain ⟨hhead,htail⟩ := List.nodup_cons.mp hnodup
    have hbytes : sourceBytes sources (expertId::expertIds) =
        source.byteLen+sourceBytes sources expertIds := by
      simp [sourceBytes, hsource]
    rw [List.length_cons] at hnext
    have hle := hrep.next_le
    have hroomHead : cache.lruUsedBytes+source.byteLen ≤ config.lruCapacityBytes := by omega
    have habsentHead := habsent expertId List.mem_cons_self
    have hrepHead := @Representation.admitLru config (cache.clearMarkers expertId)
      (hrep.clearMarkers expertId) expertId ⟨source,firstGeneration+offset⟩ habsentHead hid hbelow
      (by
        change firstGeneration+offset<cache.nextGeneration
        omega) hroomHead
    obtain ⟨next,admitted,hinstall,hinstalled⟩ := @ih _ (offset+1) hrepHead htail
      (fun id hmem admission hadmission => by
        rcases List.mem_append.mp hadmission with hanchor | hlru
        · exact habsent id (List.mem_cons_of_mem _ hmem) admission (List.mem_append_left _ hanchor)
        · rcases List.mem_cons.mp hlru with heq | hlru
          · obtain ⟨rfl,-⟩ := Prod.mk.inj heq
            exact hhead hmem
          · exact habsent id (List.mem_cons_of_mem _ hmem) admission
              (List.mem_append_right _ hlru))
      (fun id hmem => hsources id (List.mem_cons_of_mem _ hmem))
      (by
        change cache.lruUsedBytes+source.byteLen+_ ≤ _
        omega)
      (fun entry hentry => by
        rcases List.mem_append.mp hentry with hentry | hentry
        · exact (hbelow entry (List.mem_append_left _ hentry)).trans (Nat.lt_succ_self _)
        · rcases List.mem_cons.mp hentry with rfl | hentry
          · exact Nat.lt_succ_self _
          · exact (hbelow entry (List.mem_append_right _ hentry)).trans (Nat.lt_succ_self _))
      (by
        change _ ≤ cache.nextGeneration
        omega)
    refine ⟨next,admitted++[(expertId,⟨source,firstGeneration+offset⟩)],?_,hinstalled.cons rfl⟩
    unfold GpuExpertCache.installSet
    rw [hsource, expect_some, ok_bind, checkedAdd_of_le (by omega), expect_some, ok_bind,
      @installLru_eq config (cache.clearMarkers expertId) expertId
        ⟨source,firstGeneration+offset⟩ .setByteOverflow habsentHead hroomHead, ok_bind]
    exact hinstall

end Install

section Admit
variable {config : Config} {cache : GpuExpertCache} {sources : ℕ → Option GpuResident}
  {expertIds : List ℕ}

lemma firstDuplicate_eq_none {seen expertIds : List ℕ} : firstDuplicate seen expertIds = none ↔
    expertIds.Nodup ∧ ∀ id ∈ expertIds, id ∉ seen := by
  induction expertIds generalizing seen with
  | nil => simp [firstDuplicate]
  | cons expertId expertIds ih =>
    unfold firstDuplicate
    split_ifs with hseen
    · simp [hseen]
    · rw [ih, List.nodup_cons, List.forall_mem_cons]
      simp only [List.mem_cons, not_or]
      constructor
      · rintro ⟨hnodup,hfresh⟩
        exact ⟨⟨fun hmem => (hfresh _ hmem).1 rfl,hnodup⟩,hseen,fun id hid => (hfresh id hid).2⟩
      · rintro ⟨⟨hhead,hnodup⟩,-,hfresh⟩
        refine ⟨hnodup,fun id hid => ⟨?_,hfresh id hid⟩⟩
        rintro rfl
        exact hhead hid

lemma currentAdmission_isSome {id : ℕ} (h : ¬ cache.Absent id) :
    ∃ admission, cache.currentAdmission id = some admission := by
  rw [← Option.isSome_iff_exists, GpuExpertCache.currentAdmission, Option.isSome_or,
    Bool.or_eq_true]
  by_contra hnone
  rw [not_or, Bool.not_eq_true, Bool.not_eq_true, Option.isSome_eq_false_iff,
    Option.isSome_eq_false_iff, Option.isNone_iff_eq_none, Option.isNone_iff_eq_none] at hnone
  exact h (GpuExpertCache.absent_iff.mpr hnone)

/-- The preflight of `demand_admit_set`. -/
structure SetAdmits (config : Config) (cache : GpuExpertCache) (expertIds : List ℕ)
    (sources : ℕ → Option GpuResident) (scan : DemandScan) : Prop where
  distinct : expertIds.Nodup
  scanned : cache.scanDemand config sources expertIds ⟨[],[],0,0⟩ = .ok scan
  complete : scan.payloadRequired = []
  eligible : scan.selectedLruBytes ≤ config.lruCapacityBytes
  represented : cache.lruUsedBytes+scan.newBytes ≤ usizeMax
  room : cache.lruUsedBytes+scan.newBytes ≤
    config.lruCapacityBytes+cache.unprotectedBytes expertIds
  generation : cache.nextGeneration+scan.newIds.length ≤ u64Max

/-- The eviction and the installation of an admitted set. -/
structure SetRun (config : Config) (cache : GpuExpertCache) (expertIds : List ℕ)
    (sources : ℕ → Option GpuResident) (scan : DemandScan) (room installed : GpuExpertCache) :
    Prop where
  evict : evictUntilFits config setEviction expertIds scan.newBytes cache.lru.length cache = .ok room
  install : GpuExpertCache.installSet sources room.nextGeneration 0 scan.newIds
    { room with nextGeneration := cache.nextGeneration+scan.newIds.length } = .ok installed
  effect : Effect config (cache.supplied sources expertIds) cache installed
  anchor : installed.anchor = cache.anchor
  first : room.nextGeneration = cache.nextGeneration
  next : installed.nextGeneration = cache.nextGeneration+scan.newIds.length
  present : ∀ id ∈ expertIds, ¬ installed.Absent id

/-- A set that passes its preflight is admitted. -/
lemma SetAdmits.installs {scan : DemandScan} (h : SetAdmits config cache expertIds sources scan)
    (hrep : Representation config cache) :
    ∃ room installed, SetRun config cache expertIds sources scan room installed := by
  have hscan := scanDemand_spec h.scanned
  have hnewIds : scan.newIds = cache.supplied sources expertIds := hscan.newIds
  have hnewBytes : scan.newBytes = sourceBytes sources scan.newIds := by
    rw [hscan.newBytes, hnewIds]
    exact Nat.zero_add _
  have hsupplied : ∀ id ∈ scan.newIds, cache.Absent id := by
    intro id hid
    rw [hnewIds, GpuExpertCache.supplied, List.mem_filter, Bool.and_eq_true, Bool.not_eq_true',
      GpuExpertCache.contains_eq_false] at hid
    exact hid.2.1
  obtain ⟨room,hevict,hroomRep,hevicted,hfits⟩ :=
    (@evictUntilFits_spec config cache expertIds setEviction scan.newBytes _ setEviction_exact hrep
      le_rfl).1 h.room
  have hroom := (Room.refl scan.newIds expertIds cache).evict hevicted
  have hraised := @Room.raise _ _ _ _ hroom (cache.nextGeneration+scan.newIds.length) (by
    rw [hevicted.next]
    exact Nat.le_add_right _ _)
  have hrepRaised : Representation config
      { room with nextGeneration := cache.nextGeneration+scan.newIds.length } :=
    hroomRep.of_regions rfl (.refl _) rfl rfl (by
      rw [hevicted.next]
      exact Nat.le_add_right _ _) h.generation hroomRep.unmarked
  obtain ⟨installed,admitted,hinstall,hinstalled⟩ :=
    @installSet_spec config { room with nextGeneration := cache.nextGeneration+scan.newIds.length }
      sources room.nextGeneration 0 scan.newIds hrepRaised (by
        rw [hnewIds]
        exact h.distinct.filter _) (fun id hid => hraised.absent (hsupplied id hid)) (by
        rw [hnewIds]
        exact hscan.identified) (by
        rw [← hnewBytes]
        exact hfits) hroomRep.below (by
        rw [hevicted.next]
        exact le_rfl)
  refine ⟨room,installed,hevict,hinstall,?_,?_,hevicted.next,hinstalled.next_eq,
    fun id hid habsent => ?_⟩
  · have hunmarked := @Room.unmark _ _ _ _ hraised installed.promotionPending
      installed.promotionRearm (fun id hid hcleared => (hinstalled.pending id).mpr ⟨hid,hcleared⟩)
      (fun id hid => ((hinstalled.pending id).mp hid).1) hinstalled.rearm
    rw [← hnewIds]
    refine @Room.effect config cache _ installed scan.newIds expertIds [] admitted hunmarked hrep
      hinstalled.rep hinstalled.anchor hinstalled.lru (fun entry hentry => ?_) hinstalled.next_eq
      hinstalled.protections rfl rfl
    obtain ⟨hid,hle⟩ := hinstalled.fresh entry hentry
    rw [hevicted.next] at hle
    exact ⟨hsupplied _ hid,hle⟩
  · rw [hinstalled.anchor]
    exact hraised.anchor
  · -- A selected id is supplied, or was admitted before and is spared by the eviction.
    by_cases hnew : id ∈ scan.newIds
    · obtain ⟨admission,hadmission⟩ := hinstalled.admits id hnew
      refine habsent admission (List.mem_append_right _ ?_)
      rw [hinstalled.lru]
      exact List.mem_append_left _ hadmission
    · have hpresent : ¬ cache.Absent id := fun hold => hnew (hscan.supplies h.complete hid hold)
      apply hpresent
      intro admission hadmission
      rcases List.mem_append.mp hadmission with hanchor | hlru
      · refine habsent admission (List.mem_append_left _ ?_)
        rw [hinstalled.anchor, hraised.anchor]
        exact hanchor
      · refine habsent admission (List.mem_append_right _ ?_)
        rw [hinstalled.lru]
        refine List.mem_append_right _ (hraised.kept _ hlru ?_)
        simp [GpuExpertCache.isProtected, hid]

/-- What a call can do: refuse and change nothing, or admit the whole set. -/
lemma demandAdmitSet_cases (h : Representation config cache) (expertIds : List ℕ)
    (sources : ℕ → Option GpuResident) :
    (∃ result, cache.demandAdmitSet config expertIds sources = .ok (cache,result) ∧
      ((∃ e, result = .error e) ∨ cache.missing sources expertIds ≠ [] ∧
        result = .ok (.payloadRequired (cache.missing sources expertIds)))) ∨
    ∃ scan room installed admissions total, SetAdmits config cache expertIds sources scan ∧
      SetRun config cache expertIds sources scan room installed ∧
      List.Forall₂ (fun id admission => installed.currentAdmission id = some admission) expertIds
        admissions ∧
      cache.demandAdmitSet config expertIds sources =
        .ok ({ installed with logicalAdmittedBytes := total },
          .ok (.ready admissions scan.newIds.length)) := by
  unfold GpuExpertCache.demandAdmitSet
  dsimp only
  cases hduplicate : firstDuplicate [] expertIds with
  | some expertId => exact .inl ⟨_,rfl,.inl ⟨_,rfl⟩⟩
  | none =>
    dsimp only
    cases hscan : cache.scanDemand config sources expertIds ⟨[],[],0,0⟩ with
    | error e => exact .inl ⟨_,rfl,.inl ⟨_,rfl⟩⟩
    | ok scan =>
      dsimp only
      have hmissing : scan.payloadRequired = cache.missing sources expertIds :=
        (scanDemand_spec hscan).required
      by_cases hrequired : scan.payloadRequired = []
      swap
      · rw [if_pos hrequired, ← hmissing]
        exact .inl ⟨_,rfl,.inr ⟨hrequired,rfl⟩⟩
      rw [if_neg (not_not.mpr hrequired)]
      by_cases hlarge : config.lruCapacityBytes<scan.selectedLruBytes
      · rw [if_pos hlarge]
        exact .inl ⟨_,rfl,.inl ⟨_,rfl⟩⟩
      rw [if_neg hlarge]
      cases hsum : checkedAdd usizeMax cache.lruUsedBytes scan.newBytes with
      | none => exact .inl ⟨_,rfl,.inl ⟨_,rfl⟩⟩
      | some requiredBytes =>
        obtain ⟨hrepresented,rfl⟩ := checkedAdd_eq_some.mp hsum
        dsimp only
        by_cases hscarce : cache.unprotectedBytes expertIds <
            cache.lruUsedBytes+scan.newBytes-config.lruCapacityBytes
        · rw [if_pos hscarce]
          exact .inl ⟨_,rfl,.inl ⟨_,rfl⟩⟩
        rw [if_neg hscarce]
        cases hnext : checkedAdd u64Max cache.nextGeneration scan.newIds.length with
        | none => exact .inl ⟨_,rfl,.inl ⟨_,rfl⟩⟩
        | some nextGeneration =>
          obtain ⟨hgeneration,rfl⟩ := checkedAdd_eq_some.mp hnext
          have hadmits : SetAdmits config cache expertIds sources scan :=
            ⟨(firstDuplicate_eq_none.mp hduplicate).1,hscan,hrequired,Nat.not_lt.mp hlarge,
              hrepresented,by omega,hgeneration⟩
          obtain ⟨room,installed,hset⟩ := hadmits.installs h
          obtain ⟨admissions,hadmissions⟩ := @mapM_ok _ _ _
            (fun expertId => expect (installed.currentAdmission expertId) .setNotAdmitted) expertIds
            (fun id hid => by
              obtain ⟨admission,hcurrent⟩ := currentAdmission_isSome (hset.present id hid)
              exact ⟨admission,by rw [hcurrent, expect_some]⟩)
          have hanswered := (mapM_eq_ok.mp hadmissions).imp fun _ _ => expect_eq_ok
          dsimp only
          rw [hset.evict, ok_bind, hset.install, ok_bind, hadmissions, ok_bind]
          by_cases hnew : 0<scan.newIds.length
          · rw [if_pos hnew, refreshUsedBytes_eq hset.effect.rep, ok_bind]
            exact .inr ⟨scan,room,installed,admissions,_,hadmits,hset,hanswered,rfl⟩
          · rw [if_neg hnew, ok_bind]
            exact .inr ⟨scan,room,installed,admissions,_,hadmits,hset,hanswered,rfl⟩

theorem demandAdmitSet_spec (h : Representation config cache) (expertIds : List ℕ)
    (sources : ℕ → Option GpuResident) :
    ∃ next result cleared, cache.demandAdmitSet config expertIds sources = .ok (next,result) ∧
      Effect config cleared cache next ∧
      (cleared = [] ∨ cleared = cache.supplied sources expertIds ∧
        ∃ scan, SetAdmits config cache expertIds sources scan) ∧
      ∀ required, result = .ok (.payloadRequired required) →
        required = cache.missing sources expertIds ∧ required ≠ [] := by
  rcases demandAdmitSet_cases h expertIds sources with ⟨result,hcall,hrefused⟩ |
    ⟨scan,room,installed,admissions,total,hadmits,hset,-,hcall⟩
  · refine ⟨_,_,[],hcall,Effect.refl h,.inl rfl,fun required heq => ?_⟩
    subst heq
    rcases hrefused with ⟨e,he⟩ | ⟨hmissing,hresult⟩
    · cases he
    · cases hresult
      exact ⟨rfl,hmissing⟩
  · exact ⟨_,_,_,hcall,hset.effect.gauge total,.inr ⟨rfl,scan,hadmits⟩,nofun⟩

end Admit

section Protect
variable {cache : GpuExpertCache} {expertIds : List ℕ} {count : ℕ → ℕ}

/-- How a number of references is registered: not at all when there is none. -/
def references (count : ℕ) : Option ℕ := if count = 0 then none else some count

@[simp] lemma references_succ (count : ℕ) : references (count+1) = some (count+1) := rfl

lemma getD_references (count : ℕ) : (references count).getD 0 = count := by
  unfold references
  split_ifs with hzero
  · exact hzero.symm
  · rfl

/-- A guard over distinct ids adds one reference to each. -/
theorem registerProtections_spec (hnodup : expertIds.Nodup)
    (h : ∀ id, cache.demandProtections id = references (count id))
    (hbound : ∀ id ∈ expertIds, count id<usizeMax) :
    ∃ protections, GpuExpertCache.registerProtections expertIds cache =
        .ok { cache with demandProtections := protections } ∧
      ∀ id, protections id = references (count id+if id ∈ expertIds then 1 else 0) := by
  induction expertIds generalizing cache count with
  | nil => exact ⟨cache.demandProtections,rfl,h⟩
  | cons expertId expertIds ih =>
    obtain ⟨hhead,hnodup⟩ := List.nodup_cons.mp hnodup
    have hlt := hbound expertId List.mem_cons_self
    have hupdate : ∀ id, Function.update cache.demandProtections expertId
        (some (count expertId+1)) id = references (Function.update count expertId
          (count expertId+1) id) := by
      intro id
      by_cases hid : id = expertId
      · subst hid
        rw [Function.update_self, Function.update_self, references_succ]
      · rw [Function.update_of_ne hid, Function.update_of_ne hid, h]
    obtain ⟨protections,hregister,hcounts⟩ := @ih { cache with
      demandProtections := Function.update cache.demandProtections expertId
        (some (count expertId+1)) } _ hnodup hupdate (fun id hid => by
        rw [Function.update_of_ne (by
          rintro rfl
          exact hhead hid)]
        exact hbound id (List.mem_cons_of_mem _ hid))
    refine ⟨protections,?_,fun id => ?_⟩
    · unfold GpuExpertCache.registerProtections
      rw [h, getD_references, checkedAdd_of_le hlt, expect_some, ok_bind]
      exact hregister
    · rw [hcounts]
      by_cases hid : id = expertId
      · subst hid
        rw [Function.update_self, if_neg hhead, if_pos List.mem_cons_self]
      · rw [Function.update_of_ne hid]
        simp only [List.mem_cons, hid, false_or]

/-- Dropping it takes them back. -/
theorem releaseProtections_spec (hnodup : expertIds.Nodup)
    (h : ∀ id, cache.demandProtections id =
      references (count id+if id ∈ expertIds then 1 else 0)) :
    ∃ protections, GpuExpertCache.releaseProtections expertIds cache =
        .ok { cache with demandProtections := protections } ∧
      ∀ id, protections id = references (count id) := by
  induction expertIds generalizing cache with
  | nil => exact ⟨cache.demandProtections,rfl,h⟩
  | cons expertId expertIds ih =>
    obtain ⟨hhead,hnodup⟩ := List.nodup_cons.mp hnodup
    have hregistered : cache.demandProtections expertId = some (count expertId+1) := by
      rw [h, if_pos List.mem_cons_self, references_succ]
    obtain ⟨protections,hrelease,hcounts⟩ := @ih { cache with
      demandProtections := Function.update cache.demandProtections expertId
        (references (count expertId)) } hnodup (fun id => by
        change Function.update cache.demandProtections expertId _ id = _
        by_cases hid : id = expertId
        · subst hid
          rw [Function.update_self, if_neg hhead, Nat.add_zero]
        · rw [Function.update_of_ne hid, h]
          simp only [List.mem_cons, hid, false_or])
    refine ⟨protections,?_,hcounts⟩
    unfold GpuExpertCache.releaseProtections
    rw [hregistered, expect_some, ok_bind, checkedSub_of_le (Nat.succ_pos _), expect_some, ok_bind]
    exact hrelease

end Protect

end MicroExpertRouter.GpuCache
