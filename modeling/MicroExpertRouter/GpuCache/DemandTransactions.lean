import MicroExpertRouter.GpuCache.Admissions

/-! A foreground demand set is one transaction: it is refused without a trace, or it evicts as few
of the oldest entries as it needs and admits its new experts in request order. -/
namespace MicroExpertRouter.GpuCache

namespace GpuExpertCache

/-- The entries of the LRU Edge that may go, oldest first. -/
def candidates (self : GpuExpertCache) (additionallyProtected : List ℕ) :
    List (ℕ × GpuAdmission) :=
  self.lru.reverse.filter fun entry => !self.isProtected additionallyProtected entry.1

/-- The LRU Edge once some entries are gone. -/
def survivors (self : GpuExpertCache) (victims : List (ℕ × GpuAdmission)) :
    List (ℕ × GpuAdmission) :=
  self.lru.filter fun entry => decide (entry.1 ∉ victims.map Prod.fst)

@[simp] lemma survivors_nil (self : GpuExpertCache) : self.survivors [] = self.lru := by
  simp [survivors]

lemma survivors_cons {self next : GpuExpertCache} {id : ℕ} (victim : GpuAdmission)
    (victims : List (ℕ × GpuAdmission)) (hlru : next.lru = Lru.pop self.lru id) :
    self.survivors ((id,victim)::victims) = next.survivors victims := by
  unfold survivors
  rw [hlru, Lru.pop, List.filter_filter]
  congr 1
  funext entry
  simp only [List.map_cons, List.mem_cons, not_or, Bool.decide_and, Bool.and_comm]

lemma mem_survivors {self : GpuExpertCache} {victims : List (ℕ × GpuAdmission)}
    {entry : ℕ × GpuAdmission} : entry ∈ self.survivors victims ↔
      entry ∈ self.lru ∧ entry.1 ∉ victims.map Prod.fst := by
  rw [survivors, List.mem_filter, decide_eq_true_iff]

lemma isProtected_of_candidate {self : GpuExpertCache} {additionallyProtected : List ℕ} {id : ℕ}
    (h : id ∈ (self.candidates additionallyProtected).map Prod.fst) :
    self.isProtected additionallyProtected id = false := by
  obtain ⟨entry,hentry,rfl⟩ := List.mem_map.mp h
  have htest := (List.mem_filter.mp hentry).2
  rwa [Bool.not_eq_true'] at htest

end GpuExpertCache

section Evict
variable {config : Config} {cache : GpuExpertCache} {additionallyProtected : List ℕ}

/-- The oldest unprotected entry is the first candidate, and the other candidates stay. -/
lemma candidates_pop (h : Representation config cache) {id : ℕ}
    (holdest : cache.oldestUnprotected additionallyProtected = some id) :
    ∃ victim, (id,victim) ∈ cache.lru ∧ ∀ next : GpuExpertCache, next.lru = Lru.pop cache.lru id →
      next.demandProtections = cache.demandProtections →
      cache.candidates additionallyProtected =
        (id,victim)::next.candidates additionallyProtected := by
  obtain ⟨⟨key,victim⟩,hfind,rfl⟩ := Option.map_eq_some_iff.mp holdest
  have hmem := List.mem_reverse.mp (List.mem_of_find?_eq_some hfind)
  rw [← List.head?_filter, List.head?_eq_some_iff] at hfind
  obtain ⟨others,hothers⟩ := hfind
  have hcandidates : cache.candidates additionallyProtected = (key,victim)::others := hothers
  have hnodup : ((cache.candidates additionallyProtected).map Prod.fst).Nodup := by
    refine List.Nodup.sublist (List.filter_sublist.map _) ?_
    rw [List.map_reverse]
    exact List.nodup_reverse.mpr h.lruDistinct
  rw [hcandidates, List.map_cons, List.nodup_cons] at hnodup
  refine ⟨victim,hmem,fun next hlru hprotections => ?_⟩
  have hrest : next.candidates additionallyProtected =
      (cache.candidates additionallyProtected).filter fun entry => decide (entry.1 ≠ key) := by
    unfold GpuExpertCache.candidates GpuExpertCache.isProtected
    rw [hlru, hprotections, Lru.pop, ← List.filter_reverse, List.filter_filter, List.filter_filter]
    congr 1
    funext entry
    rw [Bool.and_comm]
  rw [hrest, hcandidates, List.filter_cons_of_neg (by simp), List.filter_eq_self.mpr]
  intro entry hentry
  rw [decide_eq_true_iff]
  rintro heq
  exact hnodup.1 (List.mem_map.mpr ⟨entry,hentry,heq⟩)

/-- The loop evicts the shortest prefix of the candidates that makes room. -/
theorem evictUntilFits_prefix {eviction : Eviction} {bytes turns : ℕ} (hexact : eviction.Exact)
    (h : Representation config cache) {room : GpuExpertCache}
    (hrun : evictUntilFits config eviction additionallyProtected bytes turns cache = .ok room) :
    ∃ count, room.lru =
        cache.survivors ((cache.candidates additionallyProtected).take count) ∧
      cache.lruUsedBytes+bytes ≤ config.lruCapacityBytes+
        regionBytes ((cache.candidates additionallyProtected).take count) ∧
      ∀ fewer<count, config.lruCapacityBytes+
        regionBytes ((cache.candidates additionallyProtected).take fewer) <
          cache.lruUsedBytes+bytes := by
  have hcapacity : config.lruCapacityBytes ≤ usizeMax := by
    have hbounded := config.bounded
    omega
  induction turns generalizing cache with
  | zero =>
    unfold evictUntilFits at hrun
    split_ifs at hrun with hfits
    · cases hrun
      exact ⟨0,by simp,(fits_iff hcapacity).mp hfits,fun _ h => absurd h (Nat.not_lt_zero _)⟩
    · cases holdest : cache.oldestUnprotected additionallyProtected with
      | none =>
        rw [holdest] at hrun
        cases hrun
      | some id =>
        rw [holdest] at hrun
        cases hrun
  | succ turns ih =>
    unfold evictUntilFits at hrun
    by_cases hfits : fits config.lruCapacityBytes cache.lruUsedBytes bytes = true
    · rw [if_pos hfits] at hrun
      cases hrun
      exact ⟨0,by simp,(fits_iff hcapacity).mp hfits,fun _ h => absurd h (Nat.not_lt_zero _)⟩
    rw [if_neg hfits] at hrun
    rw [fits_iff hcapacity] at hfits
    cases holdest : cache.oldestUnprotected additionallyProtected with
    | none =>
      rw [holdest] at hrun
      cases hrun
    | some id =>
      rw [holdest] at hrun
      dsimp only at hrun
      obtain ⟨victim,hmem,hothers⟩ := candidates_pop h holdest
      obtain ⟨hle,hnext⟩ := @Representation.remove config cache h id victim hmem _ _
        (Finset.Subset.refl _) (Finset.Subset.refl _)
      rw [(Lru.peek_eq_some h.lruDistinct).mpr hmem, expect_some, ok_bind, hexact _ _ hle,
        ok_bind] at hrun
      have hcandidates := hothers { cache with
        lru := Lru.pop cache.lru id
        lruUsedBytes := cache.lruUsedBytes-victim.byteLen
        promotionRearm := insert id cache.promotionRearm } rfl rfl
      obtain ⟨count,hlru,hroom,hminimal⟩ := ih hnext hrun
      refine ⟨count+1,?_,?_,fun fewer hfewer => ?_⟩
      · rw [hcandidates, List.take_succ_cons, hlru]
        exact (GpuExpertCache.survivors_cons victim _ rfl).symm
      · rw [hcandidates, List.take_succ_cons, regionBytes_cons]
        change cache.lruUsedBytes-victim.byteLen+bytes ≤ _ at hroom
        change _ ≤ _+(victim.byteLen+_)
        omega
      · cases fewer with
        | zero => exact Nat.not_le.mp hfits
        | succ fewer =>
          rw [hcandidates, List.take_succ_cons, regionBytes_cons]
          have hshort := hminimal fewer (Nat.lt_of_succ_lt_succ hfewer)
          change _<cache.lruUsedBytes-victim.byteLen+bytes at hshort
          change _+(victim.byteLen+_)<_
          omega

end Evict

section Install
variable {cache next : GpuExpertCache} {sources : ℕ → Option GpuResident}

/-- The installing loop puts the new experts on top in request order, with consecutive
generations. -/
lemma installSet_admits {firstGeneration offset : ℕ} {expertIds : List ℕ} (hnodup : expertIds.Nodup)
    (habsent : ∀ id ∈ expertIds, ∀ admission, (id,admission) ∉ cache.lru)
    (hrun : GpuExpertCache.installSet sources firstGeneration offset expertIds cache = .ok next) :
    ∃ admitted : List (ℕ × GpuAdmission), admitted.map Prod.fst = expertIds ∧
      next.lru = admitted.reverse++cache.lru ∧ ∀ i entry, admitted[i]? = some entry →
        sources entry.1 = some entry.2.resident ∧
        entry.2.generation = firstGeneration+offset+i := by
  induction expertIds generalizing cache offset with
  | nil =>
    cases hrun
    exact ⟨[],rfl,rfl,fun i entry h => by simp at h⟩
  | cons expertId expertIds ih =>
    obtain ⟨hhead,htail⟩ := List.nodup_cons.mp hnodup
    unfold GpuExpertCache.installSet at hrun
    obtain ⟨source,hsource,hrun⟩ := bind_eq_ok.mp hrun
    obtain ⟨generation,hgeneration,hrun⟩ := bind_eq_ok.mp hrun
    obtain ⟨-,rfl⟩ := checkedAdd_eq_some.mp (expect_eq_ok hgeneration)
    obtain ⟨installed,hinstalled,hrun⟩ := bind_eq_ok.mp hrun
    unfold GpuExpertCache.installLru at hinstalled
    obtain ⟨used,-,hinstalled⟩ := bind_eq_ok.mp hinstalled
    have hlru : installed.lru = (expertId,⟨source,firstGeneration+offset⟩)::cache.lru := by
      rw [← Lru.put_of_absent (habsent expertId List.mem_cons_self)]
      exact (congrArg GpuExpertCache.lru (Except.ok.inj hinstalled)).symm
    obtain ⟨admitted,hids,hnext,hentries⟩ := ih htail (fun id hid admission hadmission => by
      rw [hlru] at hadmission
      rcases List.mem_cons.mp hadmission with heq | hadmission
      · obtain ⟨rfl,-⟩ := Prod.mk.inj heq
        exact hhead hid
      · exact habsent id (List.mem_cons_of_mem _ hid) admission hadmission) hrun
    refine ⟨(expertId,⟨source,firstGeneration+offset⟩)::admitted,?_,?_,fun i entry hentry => ?_⟩
    · rw [List.map_cons, hids]
    · rw [hnext, hlru, List.reverse_cons, List.append_assoc]
      rfl
    · cases i with
      | zero =>
        cases hentry
        exact ⟨expect_eq_ok hsource,rfl⟩
      | succ i =>
        obtain ⟨hpayload,hconsecutive⟩ := hentries i entry hentry
        exact ⟨hpayload,by omega⟩

end Install

section Transaction
variable {config : Config} {cache next : GpuExpertCache} {expertIds : List ℕ}
  {sources : ℕ → Option GpuResident}

/-- What an admitted set has done to the cache. -/
structure Transaction (config : Config) (cache : GpuExpertCache) (expertIds : List ℕ)
    (sources : ℕ → Option GpuResident) (next : GpuExpertCache) (admissions : List GpuAdmission)
    (newlyAdmitted : ℕ) : Prop where
  rep : Representation config next
  answered : List.Forall₂ (fun id admission => next.currentAdmission id = some admission) expertIds
    admissions
  kept : ∀ id ∈ expertIds, ∀ admission, cache.currentAdmission id = some admission →
    next.currentAdmission id = some admission
  anchor : next.anchor = cache.anchor
  recency : ∃ count admitted,
    next.lru = List.reverse admitted++
      cache.survivors ((cache.candidates expertIds).take count) ∧
    (cache.lruUsedBytes+sourceBytes sources (cache.supplied sources expertIds) ≤
      config.lruCapacityBytes+regionBytes ((cache.candidates expertIds).take count)) ∧
    (∀ fewer<count, config.lruCapacityBytes+regionBytes ((cache.candidates expertIds).take fewer) <
      cache.lruUsedBytes+sourceBytes sources (cache.supplied sources expertIds)) ∧
    admitted.map Prod.fst = cache.supplied sources expertIds ∧
    ∀ i entry, admitted[i]? = some entry → sources entry.1 = some entry.2.resident ∧
      entry.2.generation = cache.nextGeneration+i
  generations : next.nextGeneration = cache.nextGeneration+newlyAdmitted
  newly : newlyAdmitted = (cache.supplied sources expertIds).length
  protections : next.demandProtections = cache.demandProtections

lemma currentAdmission_eq_some (h : Representation config cache) {id : ℕ}
    {admission : GpuAdmission} :
    cache.currentAdmission id = some admission ↔ (id,admission) ∈ cache.entries := by
  rw [GpuExpertCache.entries, List.mem_append, ← Lru.peek_eq_some h.anchorDistinct,
    ← Lru.peek_eq_some h.lruDistinct, GpuExpertCache.currentAdmission]
  cases hanchor : Lru.peek cache.anchor id with
  | none => simp
  | some resident =>
    simp only [Option.some_or, Option.some.injEq, iff_self_or]
    intro hlru
    exact (h.apart (Lru.peek_mem hanchor) (Lru.peek_mem hlru)).elim

/-- A selected entry is no candidate, so that it survives. -/
lemma survives_of_selected {entry : ℕ × GpuAdmission} (hentry : entry ∈ cache.lru)
    (hselected : entry.1 ∈ expertIds) (count : ℕ) :
    entry ∈ cache.survivors ((cache.candidates expertIds).take count) := by
  refine GpuExpertCache.mem_survivors.mpr ⟨hentry,fun hmem => ?_⟩
  have hcandidate : entry.1 ∈ (cache.candidates expertIds).map Prod.fst :=
    (List.take_sublist _ _).map Prod.fst |>.subset hmem
  have hunprotected := GpuExpertCache.isProtected_of_candidate hcandidate
  simp [GpuExpertCache.isProtected, hselected] at hunprotected

/-- An admitted set is a transaction. -/
lemma SetAdmits.transaction {scan : DemandScan} {room installed : GpuExpertCache}
    {admissions : List GpuAdmission} {total : ℕ}
    (h : SetAdmits config cache expertIds sources scan) (hrep : Representation config cache)
    (hset : SetRun config cache expertIds sources scan room installed)
    (hanswered : List.Forall₂ (fun id admission => installed.currentAdmission id = some admission)
      expertIds admissions) :
    Transaction config cache expertIds sources { installed with logicalAdmittedBytes := total }
      admissions scan.newIds.length := by
  have hscan := scanDemand_spec h.scanned
  have hnewIds : scan.newIds = cache.supplied sources expertIds := hscan.newIds
  have hnewBytes : scan.newBytes = sourceBytes sources (cache.supplied sources expertIds) := by
    rw [hscan.newBytes]
    exact Nat.zero_add _
  have habsent : ∀ id ∈ scan.newIds, cache.Absent id := by
    intro id hid
    rw [hnewIds, GpuExpertCache.supplied, List.mem_filter, Bool.and_eq_true, Bool.not_eq_true',
      GpuExpertCache.contains_eq_false] at hid
    exact hid.2.1
  obtain ⟨count,hlru,hroom,hminimal⟩ := evictUntilFits_prefix setEviction_exact hrep hset.evict
  obtain ⟨admitted,hids,hinstalled,hentries⟩ := installSet_admits (by
    rw [hnewIds]
    exact h.distinct.filter _) (fun id hid admission hmem => by
    rw [hlru] at hmem
    exact habsent id hid admission (List.mem_append_right _ (GpuExpertCache.mem_survivors.mp hmem).1))
    hset.install
  rw [hlru] at hinstalled
  rw [hnewBytes] at hroom hminimal
  refine ⟨(hset.effect.gauge total).rep,hanswered,fun id hid admission hadmission => ?_,hset.anchor,
    ⟨count,admitted,hinstalled,hroom,hminimal,hids.trans hnewIds,fun i entry hentry => ?_⟩,hset.next,
    congrArg List.length hnewIds,hset.effect.protections⟩
  · rw [currentAdmission_eq_some (hset.effect.gauge total).rep]
    rcases List.mem_append.mp ((currentAdmission_eq_some hrep).mp hadmission) with hmem | hmem
    · exact List.mem_append_left _ (hset.effect.anchor _ hmem)
    · refine List.mem_append_right _ ?_
      change (id,admission) ∈ installed.lru
      rw [hinstalled]
      exact List.mem_append_right _ (survives_of_selected hmem hid count)
  · obtain ⟨hpayload,hgeneration⟩ := hentries i entry hentry
    rw [hset.first, Nat.add_zero] at hgeneration
    exact ⟨hpayload,hgeneration⟩

/-- A full cache of two small residents; the first one is the older. -/
def pairCache : GpuExpertCache :=
  ⟨[],0,[(2,⟨smallResident 2,2⟩),(1,⟨smallResident 1,1⟩)],20,3,∅,∅,fun _ => none,20⟩

lemma pairCache_representation : Representation pairConfig pairCache := by
  refine ⟨?_,?_,rfl,rfl,Nat.zero_le _,?_,?_,?_,?_,nofun⟩
  all_goals decide

end Transaction

end MicroExpertRouter.GpuCache
