import MicroExpertRouter.GpuCache.Operations

/-! The representation of the logical GPU-admission cache: ids and generations are unique, the
byte counters are exact and within budget, and the Anchor Core is unmarked. Each primitive of the
operations keeps it, and says what became of the admissions. -/
namespace MicroExpertRouter.GpuCache

lemma ok_bind {ε α β : Type} (a : α) (f : α → Except ε β) : (Except.ok a >>= f) = f a := rfl

lemma expect_some {α : Type} (a : α) (panic : Panic) : expect (some a) panic = .ok a := rfl

lemma expect_eq_ok {α : Type} {value : Option α} {panic : Panic} {a : α}
    (h : expect value panic = .ok a) : value = some a := by
  cases value with
  | none => cases h
  | some b =>
    cases h
    rfl

lemma fits_iff {capacity used bytes : ℕ} (h : capacity ≤ usizeMax) :
    fits capacity used bytes = true ↔ used+bytes ≤ capacity := by
  unfold fits checkedAdd
  split_ifs with hsum
  · exact decide_eq_true_iff
  · simp only [false_iff]
    omega

/-- The bytes charged to a region. -/
def regionBytes (region : List (ℕ × GpuAdmission)) : ℕ :=
  (region.map fun entry => entry.2.byteLen).sum

@[simp] lemma regionBytes_cons (entry : ℕ × GpuAdmission) (region : List (ℕ × GpuAdmission)) :
    regionBytes (entry::region) = entry.2.byteLen+regionBytes region := by
  simp [regionBytes]

lemma regionBytes_perm {a b : List (ℕ × GpuAdmission)} (h : a.Perm b) :
    regionBytes a = regionBytes b :=
  (h.map _).sum_eq

namespace GpuExpertCache

/-- The admissions of both regions. -/
def entries (self : GpuExpertCache) : List (ℕ × GpuAdmission) := self.anchor++self.lru

/-- An id without an admission. -/
def Absent (self : GpuExpertCache) (id : ℕ) : Prop := ∀ admission, (id,admission) ∉ self.entries

end GpuExpertCache

/-- The representation invariant of the cache. -/
structure Representation (config : Config) (cache : GpuExpertCache) : Prop where
  keys : (cache.entries.map Prod.fst).Nodup
  keyed : ∀ entry ∈ cache.entries, entry.2.resident.id = entry.1
  anchorBytes : cache.anchorUsedBytes = regionBytes cache.anchor
  lruBytes : cache.lruUsedBytes = regionBytes cache.lru
  anchorFits : cache.anchorUsedBytes ≤ config.anchorCapacityBytes
  lruFits : cache.lruUsedBytes ≤ config.lruCapacityBytes
  generations : (cache.entries.map fun entry => entry.2.generation).Nodup
  below : ∀ entry ∈ cache.entries, entry.2.generation<cache.nextGeneration
  next_le : cache.nextGeneration ≤ u64Max
  unmarked : ∀ entry ∈ cache.anchor, entry.1 ∉ cache.promotionPending ∧
    entry.1 ∉ cache.promotionRearm

namespace Representation
variable {config : Config} {cache : GpuExpertCache}

lemma empty (config : Config) : Representation config .empty := by
  refine ⟨List.nodup_nil,nofun,rfl,rfl,Nat.zero_le _,Nat.zero_le _,List.nodup_nil,nofun,?_,nofun⟩
  decide

lemma anchorDistinct (h : Representation config cache) : Lru.Distinct cache.anchor := by
  have hkeys := h.keys
  rw [GpuExpertCache.entries, List.map_append] at hkeys
  exact hkeys.of_append_left

lemma lruDistinct (h : Representation config cache) : Lru.Distinct cache.lru := by
  have hkeys := h.keys
  rw [GpuExpertCache.entries, List.map_append] at hkeys
  exact hkeys.of_append_right

lemma apart (h : Representation config cache) {id : ℕ} {a b : GpuAdmission}
    (ha : (id,a) ∈ cache.anchor) (hb : (id,b) ∈ cache.lru) : False := by
  have hkeys := h.keys
  rw [GpuExpertCache.entries, List.map_append] at hkeys
  exact (List.nodup_append.mp hkeys).2.2 id (List.mem_map.mpr ⟨_,ha,rfl⟩) id
    (List.mem_map.mpr ⟨_,hb,rfl⟩) rfl

/-- The markers, the gauge and the protections take no part, as long as the Anchor Core stays
unmarked; a generation may be skipped. -/
lemma of_regions (h : Representation config cache) {next : GpuExpertCache}
    (hanchor : next.anchor = cache.anchor) (hlru : next.lru.Perm cache.lru)
    (hanchorUsed : next.anchorUsedBytes = cache.anchorUsedBytes)
    (hlruUsed : next.lruUsedBytes = cache.lruUsedBytes)
    (hnext : cache.nextGeneration ≤ next.nextGeneration) (hbound : next.nextGeneration ≤ u64Max)
    (hunmarked : ∀ entry ∈ cache.anchor, entry.1 ∉ next.promotionPending ∧
      entry.1 ∉ next.promotionRearm) : Representation config next := by
  have hentries : next.entries.Perm cache.entries := by
    unfold GpuExpertCache.entries
    rw [hanchor]
    exact hlru.append_left _
  refine ⟨(hentries.map _).nodup_iff.mpr h.keys,fun entry hmem => h.keyed entry ?_,?_,?_,?_,?_,
    (hentries.map _).nodup_iff.mpr h.generations,fun entry hmem => ?_,hbound,?_⟩
  · exact hentries.mem_iff.mp hmem
  · rw [hanchorUsed, hanchor, h.anchorBytes]
  · rw [hlruUsed, regionBytes_perm hlru, h.lruBytes]
  · rw [hanchorUsed]
    exact h.anchorFits
  · rw [hlruUsed]
    exact h.lruFits
  · exact (h.below entry (hentries.mem_iff.mp hmem)).trans_le hnext
  · rw [hanchor]
    exact hunmarked

lemma clearMarkers (h : Representation config cache) (id : ℕ) :
    Representation config (cache.clearMarkers id) := by
  refine h.of_regions rfl (.refl _) rfl rfl le_rfl h.next_le fun entry hmem => ?_
  obtain ⟨hpending,hrearm⟩ := h.unmarked entry hmem
  exact ⟨fun hmem => hpending (Finset.mem_of_mem_erase hmem),
    fun hmem => hrearm (Finset.mem_of_mem_erase hmem)⟩

/-- Taking an entry out of the LRU Edge; its id may be re-armed. -/
lemma remove (h : Representation config cache) {id : ℕ} {victim : GpuAdmission}
    (hmem : (id,victim) ∈ cache.lru) {pending rearm : Finset ℕ}
    (hpending : pending ⊆ cache.promotionPending)
    (hrearm : rearm ⊆ insert id cache.promotionRearm) :
    victim.byteLen ≤ cache.lruUsedBytes ∧ Representation config { cache with
      lru := Lru.pop cache.lru id
      lruUsedBytes := cache.lruUsedBytes-victim.byteLen
      promotionPending := pending
      promotionRearm := rearm } := by
  have hperm := h.lruDistinct.perm_pop hmem
  have hbytes : cache.lruUsedBytes = victim.byteLen+regionBytes (Lru.pop cache.lru id) := by
    rw [h.lruBytes, regionBytes_perm hperm, regionBytes_cons]
  have hsublist : (cache.anchor++Lru.pop cache.lru id).Sublist cache.entries :=
    (List.Sublist.refl _).append List.filter_sublist
  refine ⟨by omega,(hsublist.map _).nodup h.keys,fun entry hentry =>
    h.keyed entry (hsublist.subset hentry),h.anchorBytes,?_,h.anchorFits,?_,
    (hsublist.map _).nodup h.generations,fun entry hentry =>
    h.below entry (hsublist.subset hentry),h.next_le,fun entry hentry => ?_⟩
  · dsimp only
    omega
  · exact (Nat.sub_le _ _).trans h.lruFits
  · obtain ⟨hunpending,hunarmed⟩ := h.unmarked entry hentry
    refine ⟨fun hmarked => hunpending (hpending hmarked),fun hmarked => ?_⟩
    rcases Finset.mem_insert.mp (hrearm hmarked) with heq | hmarked
    · subst heq
      exact h.apart hentry hmem
    · exact hunarmed hmarked

/-- Adding a new admission to the LRU Edge. -/
lemma admitLru (h : Representation config cache) {id : ℕ} {admission : GpuAdmission}
    (habsent : cache.Absent id) (hid : admission.resident.id = id)
    (hfresh : ∀ entry ∈ cache.entries, entry.2.generation<admission.generation)
    (hnext : admission.generation<cache.nextGeneration)
    (hroom : cache.lruUsedBytes+admission.byteLen ≤ config.lruCapacityBytes) :
    Representation config { cache with
      lru := (id,admission)::cache.lru
      lruUsedBytes := cache.lruUsedBytes+admission.byteLen } := by
  have hperm : (cache.anchor++(id,admission)::cache.lru).Perm ((id,admission)::cache.entries) :=
    List.perm_middle
  refine ⟨?_,fun entry hmem => ?_,h.anchorBytes,?_,h.anchorFits,hroom,?_,fun entry hmem => ?_,
    h.next_le,h.unmarked⟩
  · refine (hperm.map _).nodup_iff.mpr (List.nodup_cons.mpr ⟨fun hmem => ?_,h.keys⟩)
    obtain ⟨⟨_,other⟩,hother,rfl⟩ := List.mem_map.mp hmem
    exact habsent other hother
  · rcases List.mem_cons.mp (hperm.mem_iff.mp hmem) with rfl | hmem
    · exact hid
    · exact h.keyed entry hmem
  · dsimp only
    rw [regionBytes_cons, h.lruBytes, Nat.add_comm]
  · refine (hperm.map _).nodup_iff.mpr (List.nodup_cons.mpr ⟨fun hmem => ?_,h.generations⟩)
    obtain ⟨other,hother,heq⟩ := List.mem_map.mp hmem
    exact (hfresh other hother).ne heq
  · rcases List.mem_cons.mp (hperm.mem_iff.mp hmem) with rfl | hmem
    · exact hnext
    · exact h.below entry hmem

/-- Adding a new, unmarked admission to the Anchor Core. -/
lemma admitAnchor (h : Representation config cache) {id : ℕ} {admission : GpuAdmission}
    (habsent : cache.Absent id) (hid : admission.resident.id = id)
    (hfresh : ∀ entry ∈ cache.entries, entry.2.generation ≠ admission.generation)
    (hnext : admission.generation<cache.nextGeneration)
    (hroom : cache.anchorUsedBytes+admission.byteLen ≤ config.anchorCapacityBytes)
    (hunmarked : id ∉ cache.promotionPending ∧ id ∉ cache.promotionRearm) :
    Representation config { cache with
      anchor := (id,admission)::cache.anchor
      anchorUsedBytes := cache.anchorUsedBytes+admission.byteLen } := by
  have hkeys : id ∉ cache.entries.map Prod.fst := by
    intro hmem
    obtain ⟨⟨_,other⟩,hother,rfl⟩ := List.mem_map.mp hmem
    exact habsent other hother
  have hgeneration : admission.generation ∉ cache.entries.map fun entry => entry.2.generation := by
    intro hmem
    obtain ⟨other,hother,heq⟩ := List.mem_map.mp hmem
    exact hfresh other hother heq
  refine ⟨List.nodup_cons.mpr ⟨hkeys,h.keys⟩,List.forall_mem_cons.mpr ⟨hid,h.keyed⟩,?_,h.lruBytes,
    hroom,h.lruFits,List.nodup_cons.mpr ⟨hgeneration,h.generations⟩,
    List.forall_mem_cons.mpr ⟨hnext,h.below⟩,h.next_le,
    List.forall_mem_cons.mpr ⟨hunmarked,h.unmarked⟩⟩
  dsimp only
  rw [regionBytes_cons, h.anchorBytes, Nat.add_comm]

end Representation

/-- The admissions an eviction loop leaves: all the protected ones are among them. -/
structure Evicted (additionallyProtected : List ℕ) (cache room : GpuExpertCache) : Prop where
  anchor : room.anchor = cache.anchor
  anchorUsed : room.anchorUsedBytes = cache.anchorUsedBytes
  next : room.nextGeneration = cache.nextGeneration
  pending : room.promotionPending = cache.promotionPending
  protections : room.demandProtections = cache.demandProtections
  sublist : room.lru.Sublist cache.lru
  kept : ∀ entry ∈ cache.lru, cache.isProtected additionallyProtected entry.1 = true →
    entry ∈ room.lru
  rearm : ∀ id ∈ room.promotionRearm, id ∈ cache.promotionRearm ∨
    (∃ victim, (id,victim) ∈ cache.lru) ∧ ∀ other, (id,other) ∉ room.lru

/-- The loop subtracts what it takes out. -/
def Eviction.Exact (eviction : Eviction) : Prop :=
  ∀ used bytes, bytes ≤ used → eviction.subtract used bytes = .ok (used-bytes)

lemma checkedSubtract_of_le {panic : Panic} {used bytes : ℕ} (h : bytes ≤ used) :
    checkedSubtract panic used bytes = .ok (used-bytes) := by
  unfold checkedSubtract
  rw [checkedSub_of_le h]
  rfl

lemma hotEviction_exact : hotEviction.Exact := fun _ _ => checkedSubtract_of_le

lemma setEviction_exact : setEviction.Exact := fun _ _ => checkedSubtract_of_le

lemma promotionEviction_exact : promotionEviction.Exact := fun _ _ _ => rfl

lemma demandEviction_exact : demandEviction.Exact := fun _ _ _ => rfl

section Eviction
variable {config : Config} {cache : GpuExpertCache} {additionallyProtected : List ℕ}

/-- Without an unprotected entry nothing can be evicted. -/
lemma unprotectedBytes_of_none (h : cache.oldestUnprotected additionallyProtected = none) :
    cache.unprotectedBytes additionallyProtected = 0 := by
  unfold GpuExpertCache.unprotectedBytes
  rw [List.filter_eq_nil_iff.mpr]
  · rfl
  · intro entry hmem hunprotected
    obtain ⟨x,hx⟩ := @Lru.oldest_isSome _ _ cache.lru entry.1 entry.2
      (fun expertId => !cache.isProtected additionallyProtected expertId) hmem hunprotected
    unfold GpuExpertCache.oldestUnprotected at h
    rw [h] at hx
    cases hx

/-- Evicting an unprotected entry takes its bytes out of the unprotected ones. -/
lemma unprotectedBytes_pop (h : Representation config cache) {id : ℕ} {victim : GpuAdmission}
    (hmem : (id,victim) ∈ cache.lru) (hid : cache.isProtected additionallyProtected id = false)
    {next : GpuExpertCache} (hlru : next.lru = Lru.pop cache.lru id)
    (hprotections : next.demandProtections = cache.demandProtections) :
    next.unprotectedBytes additionallyProtected+victim.byteLen =
      cache.unprotectedBytes additionallyProtected := by
  have hperm := (h.lruDistinct.perm_pop hmem).filter fun entry =>
    !cache.isProtected additionallyProtected entry.1
  rw [List.filter_cons_of_pos (by simpa using hid)] at hperm
  change regionBytes _+_ = regionBytes (cache.lru.filter _)
  unfold GpuExpertCache.isProtected at hperm ⊢
  rw [regionBytes_perm hperm, regionBytes_cons, hlru, hprotections, Nat.add_comm]

lemma Evicted.refl (cache : GpuExpertCache) : Evicted additionallyProtected cache cache :=
  ⟨rfl,rfl,rfl,rfl,rfl,.refl _,fun _ hmem _ => hmem,fun _ hmem => .inl hmem⟩

/-- One more eviction before the rest of the loop. -/
lemma Evicted.step {room : GpuExpertCache} {id used : ℕ} {victim : GpuAdmission}
    (hmem : (id,victim) ∈ cache.lru) (hid : cache.isProtected additionallyProtected id = false)
    (h : Evicted additionallyProtected { cache with
      lru := Lru.pop cache.lru id
      lruUsedBytes := used
      promotionRearm := insert id cache.promotionRearm } room) :
    Evicted additionallyProtected cache room := by
  refine ⟨h.anchor,h.anchorUsed,h.next,h.pending,h.protections,h.sublist.trans List.filter_sublist,
    fun entry hentry hprotected => h.kept entry ?_ hprotected,fun x hx => ?_⟩
  · refine (Lru.mem_pop (x := entry.1) (w := entry.2)).mpr ⟨hentry,?_⟩
    rintro heq
    rw [heq, hid] at hprotected
    cases hprotected
  · rcases h.rearm x hx with hx | ⟨⟨other,hother⟩,hgone⟩
    · rcases Finset.mem_insert.mp hx with rfl | hx
      · refine .inr ⟨⟨victim,hmem⟩,fun other hother => ?_⟩
        exact (Lru.mem_pop.mp (h.sublist.subset hother)).2 rfl
      · exact .inl hx
    · exact .inr ⟨⟨other,(Lru.mem_pop.mp hother).1⟩,hgone⟩

/-- The eviction loop ends with room when the unprotected bytes suffice, and panics when they do
not. -/
theorem evictUntilFits_spec {eviction : Eviction} {bytes turns : ℕ} (hexact : eviction.Exact)
    (h : Representation config cache) (hturns : cache.lru.length ≤ turns) :
    (cache.lruUsedBytes+bytes ≤ config.lruCapacityBytes+
        cache.unprotectedBytes additionallyProtected →
      ∃ room, evictUntilFits config eviction additionallyProtected bytes turns cache = .ok room ∧
        Representation config room ∧ Evicted additionallyProtected cache room ∧
        room.lruUsedBytes+bytes ≤ config.lruCapacityBytes) ∧
    (config.lruCapacityBytes+cache.unprotectedBytes additionallyProtected <
        cache.lruUsedBytes+bytes →
      evictUntilFits config eviction additionallyProtected bytes turns cache =
        .error eviction.victimMissing) := by
  have hcapacity : config.lruCapacityBytes ≤ usizeMax := by
    have hbounded := config.bounded
    omega
  induction turns generalizing cache with
  | zero =>
    have hnil := List.length_eq_zero_iff.mp (Nat.le_zero.mp hturns)
    have hnone : cache.oldestUnprotected additionallyProtected = none := by
      unfold GpuExpertCache.oldestUnprotected Lru.oldest
      rw [hnil]
      rfl
    have hzero := unprotectedBytes_of_none hnone
    unfold evictUntilFits
    constructor
    · intro henough
      have hfits := (fits_iff hcapacity).mpr (by omega :
        cache.lruUsedBytes+bytes ≤ config.lruCapacityBytes)
      rw [if_pos hfits]
      exact ⟨cache,rfl,h,.refl cache,(fits_iff hcapacity).mp hfits⟩
    · intro hscarce
      have hfits : ¬ fits config.lruCapacityBytes cache.lruUsedBytes bytes = true := by
        rw [fits_iff hcapacity]
        omega
      rw [if_neg hfits, hnone]
  | succ turns ih =>
    unfold evictUntilFits
    by_cases hfits : fits config.lruCapacityBytes cache.lruUsedBytes bytes = true
    · rw [if_pos hfits]
      have hroom := (fits_iff hcapacity).mp hfits
      exact ⟨fun _ => ⟨cache,rfl,h,.refl cache,hroom⟩,fun hscarce => by omega⟩
    rw [if_neg hfits]
    rw [fits_iff hcapacity] at hfits
    cases holdest : cache.oldestUnprotected additionallyProtected with
    | none =>
      have hzero := unprotectedBytes_of_none holdest
      exact ⟨fun henough => by omega,fun _ => rfl⟩
    | some id =>
      obtain ⟨hunprotected,victim,hmem⟩ := Lru.oldest_eq_some holdest
      rw [Bool.not_eq_true'] at hunprotected
      obtain ⟨hle,hnext⟩ := @Representation.remove config cache h id victim hmem _ _
        (Finset.Subset.refl _) (Finset.Subset.refl _)
      have hpop := @unprotectedBytes_pop config cache additionallyProtected h id victim hmem
        hunprotected { cache with
          lru := Lru.pop cache.lru id
          lruUsedBytes := cache.lruUsedBytes-victim.byteLen
          promotionRearm := insert id cache.promotionRearm } rfl rfl
      have hlength := Lru.length_pop h.lruDistinct hmem
      dsimp only
      rw [(Lru.peek_eq_some h.lruDistinct).mpr hmem, expect_some, ok_bind, hexact _ _ hle, ok_bind]
      obtain ⟨henough',hscarce'⟩ := ih hnext (by dsimp only; omega)
      constructor
      · intro henough
        obtain ⟨room,hroom,hrep,hevicted,hfit⟩ := henough' (by dsimp only; omega)
        exact ⟨room,hroom,hrep,hevicted.step hmem hunprotected,hfit⟩
      · intro hscarce
        refine hscarce' ?_
        dsimp only
        omega

end Eviction

end MicroExpertRouter.GpuCache
