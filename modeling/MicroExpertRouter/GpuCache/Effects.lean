import MicroExpertRouter.GpuCache.Representation

/-! What the operations of the logical GPU-admission cache do to its admissions and markers. Every
operation keeps the representation; old admissions stay what they are or are evicted unprotected,
and new ones belong to absent ids and have new generations. -/
namespace MicroExpertRouter.GpuCache

/-- One operation: its effect on the admissions, and on the markers of the ids it does not
clear. -/
structure Effect (config : Config) (cleared : List ℕ) (cache next : GpuExpertCache) : Prop where
  rep : Representation config next
  anchor : ∀ entry ∈ cache.anchor, entry ∈ next.anchor
  origin : ∀ entry ∈ next.entries, entry ∈ cache.entries ∨
    cache.Absent entry.1 ∧ cache.nextGeneration ≤ entry.2.generation
  kept : ∀ entry ∈ cache.entries, cache.isProtected [] entry.1 = true → entry ∈ next.entries
  next_le : cache.nextGeneration ≤ next.nextGeneration
  protections : next.demandProtections = cache.demandProtections
  pendingKept : ∀ id ∈ cache.promotionPending, id ∉ cleared → id ∈ next.promotionPending
  pendingOld : ∀ id ∈ next.promotionPending, id ∈ cache.promotionPending
  rearmOld : ∀ id ∈ next.promotionRearm, id ∈ cache.promotionRearm ∨
    (∃ victim, (id,victim) ∈ cache.lru) ∧ next.Absent id

/-- Room made for an admission: nothing is new yet. -/
structure Room (cleared additionallyProtected : List ℕ) (cache room : GpuExpertCache) : Prop where
  anchor : room.anchor = cache.anchor
  sublist : room.lru.Sublist cache.lru
  kept : ∀ entry ∈ cache.lru, cache.isProtected additionallyProtected entry.1 = true →
    entry ∈ room.lru
  next_le : cache.nextGeneration ≤ room.nextGeneration
  protections : room.demandProtections = cache.demandProtections
  pendingKept : ∀ id ∈ cache.promotionPending, id ∉ cleared → id ∈ room.promotionPending
  pendingOld : ∀ id ∈ room.promotionPending, id ∈ cache.promotionPending
  rearmOld : ∀ id ∈ room.promotionRearm, id ∈ cache.promotionRearm ∨
    (∃ victim, (id,victim) ∈ cache.lru) ∧ ∀ other, (id,other) ∉ room.lru

namespace Room
variable {cache room : GpuExpertCache} {cleared additionallyProtected : List ℕ}

lemma refl (cleared additionallyProtected : List ℕ) (cache : GpuExpertCache) :
    Room cleared additionallyProtected cache cache :=
  ⟨rfl,.refl _,fun _ hmem _ => hmem,le_rfl,rfl,fun _ hmem _ => hmem,fun _ hmem => hmem,
    fun _ hmem => .inl hmem⟩

/-- Markers are dropped, but only the pending ones of cleared ids. -/
lemma unmark (h : Room cleared additionallyProtected cache room) {pending rearm : Finset ℕ}
    (hkept : ∀ id ∈ room.promotionPending, id ∉ cleared → id ∈ pending)
    (hpending : pending ⊆ room.promotionPending) (hrearm : rearm ⊆ room.promotionRearm) :
    Room cleared additionallyProtected cache
      { room with promotionPending := pending, promotionRearm := rearm } :=
  ⟨h.anchor,h.sublist,h.kept,h.next_le,h.protections,fun x hx hcleared =>
    hkept x (h.pendingKept x hx hcleared) hcleared,fun x hx => h.pendingOld x (hpending hx),
    fun x hx => h.rearmOld x (hrearm hx)⟩

lemma clear (h : Room cleared additionallyProtected cache room) {id : ℕ} (hid : id ∈ cleared) :
    Room cleared additionallyProtected cache (room.clearMarkers id) := by
  refine h.unmark (fun x hx hcleared => ?_) (Finset.erase_subset _ _) (Finset.erase_subset _ _)
  refine Finset.mem_erase.mpr ⟨?_,hx⟩
  rintro rfl
  exact hcleared hid

lemma raise (h : Room cleared additionallyProtected cache room) {next : ℕ}
    (hnext : room.nextGeneration ≤ next) :
    Room cleared additionallyProtected cache { room with nextGeneration := next } :=
  ⟨h.anchor,h.sublist,h.kept,h.next_le.trans hnext,h.protections,h.pendingKept,h.pendingOld,
    h.rearmOld⟩

lemma isProtected (h : Room cleared additionallyProtected cache room) (extra : List ℕ) (id : ℕ) :
    room.isProtected extra id = cache.isProtected extra id := by
  unfold GpuExpertCache.isProtected
  rw [h.protections]

lemma evict (h : Room cleared additionallyProtected cache room) {next : GpuExpertCache}
    (hevicted : Evicted additionallyProtected room next) :
    Room cleared additionallyProtected cache next := by
  refine ⟨hevicted.anchor.trans h.anchor,hevicted.sublist.trans h.sublist,
    fun entry hmem hprotected => ?_,h.next_le.trans hevicted.next.ge,
    hevicted.protections.trans h.protections,fun x hx hcleared => ?_,fun x hx => ?_,fun x hx => ?_⟩
  · apply hevicted.kept entry (h.kept entry hmem hprotected)
    rw [h.isProtected]
    exact hprotected
  · rw [hevicted.pending]
    exact h.pendingKept x hx hcleared
  · rw [hevicted.pending] at hx
    exact h.pendingOld x hx
  · rcases hevicted.rearm x hx with hx | ⟨⟨victim,hvictim⟩,hgone⟩
    · refine (h.rearmOld x hx).imp id ?_
      rintro ⟨hvictim,hgone⟩
      exact ⟨hvictim,fun other hother => hgone other (hevicted.sublist.subset hother)⟩
    · exact .inr ⟨⟨victim,h.sublist.subset hvictim⟩,hgone⟩

lemma entries_subset (h : Room cleared additionallyProtected cache room) :
    ∀ entry ∈ room.entries, entry ∈ cache.entries := by
  intro entry hentry
  rw [GpuExpertCache.entries, h.anchor] at hentry
  exact ((List.Sublist.refl _).append h.sublist).subset hentry

lemma absent (h : Room cleared additionallyProtected cache room) {id : ℕ}
    (habsent : cache.Absent id) : room.Absent id := fun other hother =>
  habsent other (h.entries_subset _ hother)

end Room

section Effect
variable {config : Config} {cache room next : GpuExpertCache}
  {cleared additionallyProtected : List ℕ}

/-- Room with new admissions on top is an effect. -/
lemma Room.effect {anchored admitted : List (ℕ × GpuAdmission)}
    (h : Room cleared additionallyProtected cache room) (hrep : Representation config cache)
    (hnext : Representation config next)
    (hanchor : next.anchor = anchored++room.anchor) (hlru : next.lru = admitted++room.lru)
    (hfresh : ∀ entry ∈ anchored++admitted,
      cache.Absent entry.1 ∧ cache.nextGeneration ≤ entry.2.generation)
    (hgeneration : next.nextGeneration = room.nextGeneration)
    (hprotections : next.demandProtections = room.demandProtections)
    (hpending : next.promotionPending = room.promotionPending)
    (hrearm : next.promotionRearm = room.promotionRearm) : Effect config cleared cache next := by
  have hentries : ∀ entry, entry ∈ next.entries ↔
      entry ∈ anchored++admitted ∨ entry ∈ cache.anchor ∨ entry ∈ room.lru := by
    intro entry
    rw [GpuExpertCache.entries, hanchor, hlru, h.anchor]
    simp only [List.mem_append]
    tauto
  refine ⟨hnext,fun entry hmem => ?_,fun entry hmem => ?_,fun entry hmem hprotected => ?_,?_,?_,
    fun x hx hcleared => ?_,fun x hx => ?_,fun x hx => ?_⟩
  · rw [hanchor, h.anchor]
    exact List.mem_append_right _ hmem
  · rcases (hentries entry).mp hmem with hmem | hmem | hmem
    · exact .inr (hfresh entry hmem)
    · exact .inl (List.mem_append_left _ hmem)
    · exact .inl (List.mem_append_right _ (h.sublist.subset hmem))
  · rw [hentries]
    rcases List.mem_append.mp hmem with hmem | hmem
    · exact .inr (.inl hmem)
    · refine .inr (.inr (h.kept entry hmem ?_))
      unfold GpuExpertCache.isProtected at hprotected ⊢
      rw [Bool.or_eq_true] at hprotected ⊢
      exact hprotected.imp (fun hnil => by simp at hnil) id
  · rw [hgeneration]
    exact h.next_le
  · rw [hprotections, h.protections]
  · rw [hpending]
    exact h.pendingKept x hx hcleared
  · rw [hpending] at hx
    exact h.pendingOld x hx
  · rw [hrearm] at hx
    refine (h.rearmOld x hx).imp id ?_
    rintro ⟨⟨victim,hvictim⟩,hgone⟩
    refine ⟨⟨victim,hvictim⟩,fun other hother => ?_⟩
    rcases (hentries _).mp hother with hother | hother | hother
    · exact (hfresh _ hother).1 victim (List.mem_append_right _ hvictim)
    · exact hrep.apart hother hvictim
    · exact hgone other hother

lemma Effect.refl (h : Representation config cache) : Effect config [] cache cache :=
  (Room.refl [] [] cache).effect h h (List.nil_append _).symm (List.nil_append _).symm nofun rfl rfl
    rfl rfl

lemma Effect.clear (h : Representation config cache) (id : ℕ) :
    Effect config [id] cache (cache.clearMarkers id) :=
  ((Room.refl [id] [] cache).clear List.mem_cons_self).effect h (h.clearMarkers id)
    (List.nil_append _).symm (List.nil_append _).symm nofun rfl rfl rfl rfl

/-- Lookups reorder the LRU Edge. -/
lemma Effect.touch (h : Effect config cleared cache next) (expertId : ℕ) :
    Effect config cleared cache { next with lru := Lru.touch next.lru expertId } := by
  have hperm := h.rep.lruDistinct.perm_touch expertId
  have hentries : ∀ entry, entry ∈ next.anchor++Lru.touch next.lru expertId ↔ entry ∈ next.entries :=
    fun entry => (hperm.append_left _).mem_iff
  refine ⟨h.rep.of_regions rfl hperm rfl rfl le_rfl h.rep.next_le h.rep.unmarked,h.anchor,
    fun entry hmem => h.origin entry ((hentries entry).mp hmem),
    fun entry hmem hprotected => (hentries entry).mpr (h.kept entry hmem hprotected),
    h.next_le,h.protections,h.pendingKept,h.pendingOld,fun x hx => ?_⟩
  refine (h.rearmOld x hx).imp id ?_
  rintro ⟨hvictim,habsent⟩
  exact ⟨hvictim,fun other hother => habsent other ((hentries _).mp hother)⟩

/-- The gauge takes no part. -/
lemma Effect.gauge (h : Effect config cleared cache next) (total : ℕ) :
    Effect config cleared cache { next with logicalAdmittedBytes := total } :=
  ⟨h.rep.of_regions rfl (.refl _) rfl rfl le_rfl h.rep.next_le h.rep.unmarked,h.anchor,h.origin,
    h.kept,h.next_le,h.protections,h.pendingKept,h.pendingOld,h.rearmOld⟩

end Effect

section Primitives
variable {config : Config} {cache : GpuExpertCache}

lemma GpuExpertCache.absent_iff {id : ℕ} : cache.Absent id ↔
    Lru.peek cache.anchor id = none ∧ Lru.peek cache.lru id = none := by
  unfold GpuExpertCache.Absent GpuExpertCache.entries
  rw [Lru.peek_eq_none, Lru.peek_eq_none]
  simp only [List.mem_append, not_or]
  exact forall_and

lemma GpuExpertCache.contains_eq_false {id : ℕ} : cache.contains id = false ↔ cache.Absent id := by
  rw [GpuExpertCache.absent_iff]
  unfold GpuExpertCache.contains
  rw [Bool.or_eq_false_iff, Option.isSome_eq_false_iff, Option.isSome_eq_false_iff,
    Option.isNone_iff_eq_none, Option.isNone_iff_eq_none]

lemma allocateGeneration_eq (cache : GpuExpertCache) :
    cache.allocateGeneration = none ∧ u64Max ≤ cache.nextGeneration ∨
      cache.allocateGeneration = some ({ cache with nextGeneration := cache.nextGeneration+1 },
        cache.nextGeneration) ∧ cache.nextGeneration<u64Max := by
  unfold GpuExpertCache.allocateGeneration checkedAdd
  split_ifs with hnext
  · exact .inr ⟨rfl,by omega⟩
  · exact .inl ⟨rfl,by omega⟩

lemma refreshUsedBytes_eq (h : Representation config cache) : cache.refreshUsedBytes = .ok
    { cache with logicalAdmittedBytes := cache.anchorUsedBytes+cache.lruUsedBytes } := by
  have hbounded := config.bounded
  have hanchor := h.anchorFits
  have hlru := h.lruFits
  unfold GpuExpertCache.refreshUsedBytes
  rw [checkedAdd_of_le (by omega)]
  rfl

lemma installLru_eq {id : ℕ} {admission : GpuAdmission}
    {overflow : Panic} (habsent : cache.Absent id)
    (hroom : cache.lruUsedBytes+admission.byteLen ≤ config.lruCapacityBytes) :
    cache.installLru overflow id admission = .ok { cache with
      lru := (id,admission)::cache.lru
      lruUsedBytes := cache.lruUsedBytes+admission.byteLen } := by
  have hbounded := config.bounded
  have habsent : ∀ v, (id,v) ∉ cache.lru := fun v hv => habsent v (List.mem_append_right _ hv)
  unfold GpuExpertCache.installLru
  rw [checkedAdd_of_le (by omega), Lru.put_of_absent habsent]
  rfl

lemma installAnchor_eq {id : ℕ} {admission : GpuAdmission}
    (habsent : ∀ v, (id,v) ∉ cache.anchor)
    (hroom : cache.anchorUsedBytes+admission.byteLen ≤ config.anchorCapacityBytes) :
    cache.installAnchor id admission = .ok { cache with
      anchor := (id,admission)::cache.anchor
      anchorUsedBytes := cache.anchorUsedBytes+admission.byteLen } := by
  have hbounded := config.bounded
  unfold GpuExpertCache.installAnchor
  rw [checkedAdd_of_le (by omega), Lru.put_of_absent habsent]
  rfl

lemma anchorHasRoom_iff {bytes : ℕ} : cache.anchorHasRoom config bytes = true ↔
    cache.anchorUsedBytes+bytes ≤ config.anchorCapacityBytes := by
  have hbounded := config.bounded
  unfold GpuExpertCache.anchorHasRoom
  rw [Bool.and_eq_true, decide_eq_true_iff, fits_iff (by omega)]
  omega

end Primitives

section Promote
variable {config : Config} {cache : GpuExpertCache} {id : ℕ}

/-- An admission graduates from the LRU Edge to the Anchor Core. -/
lemma Effect.graduate (h : Representation config cache) {admission : GpuAdmission}
    (hmem : (id,admission) ∈ cache.lru)
    (hroom : cache.anchorUsedBytes+admission.byteLen ≤ config.anchorCapacityBytes) :
    Effect config [id] cache (GpuExpertCache.clearMarkers { cache with
      anchor := (id,admission)::cache.anchor
      anchorUsedBytes := cache.anchorUsedBytes+admission.byteLen
      lru := Lru.pop cache.lru id
      lruUsedBytes := cache.lruUsedBytes-admission.byteLen } id) := by
  have hperm := h.lruDistinct.perm_pop hmem
  have hentries : ((id,admission)::cache.anchor++Lru.pop cache.lru id).Perm cache.entries := by
    refine List.perm_middle.symm.trans ?_
    exact hperm.symm.append_left _
  have hrest := (@Representation.remove config cache h id admission hmem
    (cache.promotionPending.erase id) (cache.promotionRearm.erase id) (Finset.erase_subset _ _)
    ((Finset.erase_subset _ _).trans (Finset.subset_insert _ _))).2
  have habsent : ∀ other, (id,other) ∉ cache.anchor++Lru.pop cache.lru id := by
    intro other hother
    rcases List.mem_append.mp hother with hother | hother
    · exact h.apart hother hmem
    · exact (Lru.mem_pop.mp hother).2 rfl
  have hgenerations : ∀ entry ∈ cache.anchor++Lru.pop cache.lru id,
      entry.2.generation ≠ admission.generation := by
    have hnodup := (hentries.map fun entry => entry.2.generation).nodup_iff.mpr h.generations
    intro entry hentry heq
    exact (List.nodup_cons.mp hnodup).1 (List.mem_map.mpr ⟨entry,hentry,heq⟩)
  have hkeyed := h.keyed _ (List.mem_append_right _ hmem)
  have hbelow := h.below _ (List.mem_append_right _ hmem)
  refine ⟨hrest.admitAnchor habsent hkeyed hgenerations hbelow hroom
    ⟨Finset.notMem_erase _ _,Finset.notMem_erase _ _⟩,fun entry hentry =>
    List.mem_cons_of_mem _ hentry,fun entry hentry => .inl (hentries.mem_iff.mp hentry),
    fun entry hentry _ => hentries.mem_iff.mpr hentry,le_rfl,rfl,fun x hx hcleared => ?_,
    fun x hx => Finset.mem_of_mem_erase hx,fun x hx => .inl (Finset.mem_of_mem_erase hx)⟩
  refine Finset.mem_erase.mpr ⟨?_,hx⟩
  rintro rfl
  exact hcleared List.mem_cons_self

lemma resolveExistingHot_spec (h : Representation config cache) (id : ℕ) :
    cache.Absent id ∧ cache.resolveExistingHot config id = .ok (cache,none) ∨
    ¬ cache.Absent id ∧ ∃ next outcome,
      cache.resolveExistingHot config id = .ok (next,some outcome) ∧ outcome ≠ .payloadRequired ∧
      Effect config [id] cache next := by
  unfold GpuExpertCache.resolveExistingHot
  rw [GpuExpertCache.absent_iff]
  cases hanchor : Lru.peek cache.anchor id with
  | some admission =>
    refine .inr ⟨nofun,_,_,if_pos rfl,nofun,.clear h id⟩
  | none =>
    rw [if_neg (by simp)]
    cases hlru : Lru.peek cache.lru id with
    | none => exact .inl ⟨⟨rfl,rfl⟩,rfl⟩
    | some admission =>
      refine .inr ⟨nofun,?_⟩
      have hmem := Lru.peek_mem hlru
      rw [Option.map_some]
      dsimp only
      by_cases hfull : cache.anchorHasRoom config admission.byteLen = false
      · rw [if_pos hfull]
        exact ⟨_,_,rfl,nofun,.clear h id⟩
      · rw [if_neg hfull]
        rw [Bool.not_eq_false, anchorHasRoom_iff] at hfull
        have hle := (@Representation.remove config cache h id admission hmem _ _
          (Finset.Subset.refl _) (Finset.subset_insert _ _)).1
        have hinstall := @installAnchor_eq config { cache with
          lru := Lru.pop cache.lru id
          lruUsedBytes := cache.lruUsedBytes-admission.byteLen } id admission
          (Lru.peek_eq_none.mp hanchor) hfull
        rw [expect_some, ok_bind, checkedSubtract_of_le hle, ok_bind, hinstall, ok_bind]
        exact ⟨_,_,rfl,nofun,.graduate h hmem hfull⟩

theorem promoteHotExisting_spec (h : Representation config cache) (id : ℕ) :
    ∃ next outcome, cache.promoteHotExisting config id = .ok (next,outcome) ∧
      (outcome = .payloadRequired ∧ next = cache ∨
        outcome ≠ .payloadRequired ∧ Effect config [id] cache next) := by
  unfold GpuExpertCache.promoteHotExisting
  rcases resolveExistingHot_spec h id with
    ⟨habsent,hresolve⟩ | ⟨hpresent,next,outcome,hresolve,hne,heffect⟩
  · rw [hresolve]
    exact ⟨cache,_,rfl,.inl ⟨rfl,rfl⟩⟩
  · rw [hresolve]
    exact ⟨next,outcome,rfl,.inr ⟨hne,heffect⟩⟩

/-- A new admission into the Anchor Core. -/
lemma Room.admitAnchor {room : GpuExpertCache} {resident : GpuResident} {generation : ℕ}
    {cleared : List ℕ} (h : Room cleared [] cache room) (hcache : Representation config cache)
    (hroom : Representation config room) (habsent : cache.Absent resident.id)
    (hlru : room.lru = cache.lru) (hgeneration : generation = cache.nextGeneration)
    (hnext : generation<room.nextGeneration)
    (hunmarked : resident.id ∉ room.promotionPending ∧ resident.id ∉ room.promotionRearm)
    (hfits : room.anchorUsedBytes+resident.byteLen ≤ config.anchorCapacityBytes) :
    ∃ next, (room.installAnchor resident.id ⟨resident,generation⟩ >>= fun installed =>
        installed.refreshUsedBytes) = .ok next ∧ Effect config cleared cache next := by
  have hentries : room.entries = cache.entries := by
    rw [GpuExpertCache.entries, h.anchor, hlru]
    rfl
  have habsent' := h.absent habsent
  have hanchor : ∀ v, (resident.id,v) ∉ room.anchor := fun v hv =>
    habsent' v (List.mem_append_left _ hv)
  have hrep := @Representation.admitAnchor config room hroom resident.id ⟨resident,generation⟩
    habsent' rfl (fun entry hentry => by
      rw [hentries] at hentry
      rw [hgeneration]
      exact (hcache.below entry hentry).ne) hnext hfits hunmarked
  rw [@installAnchor_eq config room resident.id ⟨resident,generation⟩ hanchor hfits, ok_bind,
    refreshUsedBytes_eq hrep]
  refine ⟨_,rfl,Effect.gauge ?_ _⟩
  refine @Room.effect config cache room _ cleared [] [(resident.id,⟨resident,generation⟩)] [] h hcache
    hrep rfl rfl (fun entry hentry => ?_) rfl rfl rfl rfl
  rw [List.append_nil, List.mem_singleton] at hentry
  subst hentry
  exact ⟨habsent,hgeneration.ge⟩

/-- A new admission into the LRU Edge, once there is room. -/
lemma Room.admitLru {room : GpuExpertCache} {resident : GpuResident} {generation : ℕ}
    {cleared additionallyProtected : List ℕ} {overflow : Panic}
    (h : Room cleared additionallyProtected cache room) (hcache : Representation config cache)
    (hroom : Representation config room) (habsent : cache.Absent resident.id)
    (hgeneration : generation = cache.nextGeneration) (hnext : generation<room.nextGeneration)
    (hfits : room.lruUsedBytes+resident.byteLen ≤ config.lruCapacityBytes) :
    ∃ next, (room.installLru overflow resident.id ⟨resident,generation⟩ >>= fun installed =>
        installed.refreshUsedBytes) = .ok next ∧ Effect config cleared cache next := by
  have habsent' := h.absent habsent
  have hrep := @Representation.admitLru config room hroom resident.id ⟨resident,generation⟩
    habsent' rfl (fun entry hentry => by
      rw [hgeneration]
      exact hcache.below entry (h.entries_subset entry hentry)) hnext hfits
  rw [@installLru_eq config room resident.id ⟨resident,generation⟩ overflow habsent' hfits, ok_bind,
    refreshUsedBytes_eq hrep]
  refine ⟨_,rfl,Effect.gauge ?_ _⟩
  refine @Room.effect config cache room _ cleared additionallyProtected []
    [(resident.id,⟨resident,generation⟩)] h hcache hrep rfl rfl (fun entry hentry => ?_) rfl rfl rfl
    rfl
  rw [List.nil_append, List.mem_singleton] at hentry
  subst hentry
  exact ⟨habsent,hgeneration.ge⟩

end Promote

/-- A promotion whose saturated preflight passes although the unprotected entries do not make
room: the sum it asks for is beyond `usize`. -/
structure Overcommits (config : Config) (cache : GpuExpertCache) (resident : GpuResident) : Prop where
  absent : cache.Absent resident.id
  positive : 0<resident.byteLen
  anchorFull : config.anchorCapacityBytes<cache.anchorUsedBytes+resident.byteLen
  eligible : resident.byteLen ≤ config.lruCapacityBytes
  generation : cache.nextGeneration<u64Max
  overflows : usizeMax<cache.lruUsedBytes+resident.byteLen
  admitted : usizeMax ≤ config.lruCapacityBytes+cache.unprotectedBytes []
  scarce : config.lruCapacityBytes+cache.unprotectedBytes []<cache.lruUsedBytes+resident.byteLen

section Sync
variable {config : Config} {cache : GpuExpertCache} {resident : GpuResident}

lemma promotionBlocked_eq_false {bytes : ℕ} : cache.promotionBlocked config bytes = false ↔
    min (cache.lruUsedBytes+bytes) usizeMax ≤ config.lruCapacityBytes+cache.unprotectedBytes [] := by
  unfold GpuExpertCache.promotionBlocked saturatingAdd
  rw [decide_eq_false_iff_not]
  omega

/-- Raising the generation of an allocation. -/
lemma Representation.allocate (h : Representation config cache) (hnext : cache.nextGeneration<u64Max) :
    Representation config { cache with nextGeneration := cache.nextGeneration+1 } :=
  h.of_regions rfl (.refl _) rfl rfl (Nat.le_succ _) hnext h.unmarked

/-- A promotion that passes its preflight and does not overcommit finds room. -/
lemma room_of_pass (hsafe : ¬ Overcommits config cache resident)
    (habsent : cache.Absent resident.id) (hzero : resident.byteLen ≠ 0)
    (hanchor : cache.anchorHasRoom config resident.byteLen = false)
    (hlarge : ¬ (cache.anchorHasRoom config resident.byteLen = false ∧
      config.lruCapacityBytes<resident.byteLen))
    (hblocked : ¬ (cache.anchorHasRoom config resident.byteLen = false ∧
      cache.promotionBlocked config resident.byteLen = true))
    (hnext : cache.nextGeneration<u64Max) :
    cache.lruUsedBytes+resident.byteLen ≤ config.lruCapacityBytes+cache.unprotectedBytes [] := by
  have hpass : cache.promotionBlocked config resident.byteLen = false := by
    rw [← Bool.not_eq_true]
    exact fun hblock => hblocked ⟨hanchor,hblock⟩
  have hlarge : resident.byteLen ≤ config.lruCapacityBytes := by
    rw [not_and] at hlarge
    exact Nat.not_lt.mp (hlarge hanchor)
  rw [← Bool.not_eq_true, anchorHasRoom_iff] at hanchor
  rw [promotionBlocked_eq_false] at hpass
  by_contra hsum
  exact hsafe ⟨habsent,Nat.pos_of_ne_zero hzero,by omega,hlarge,hnext,by omega,by omega,by omega⟩

/-- An overcommitting promotion passes its preflight. -/
lemma Overcommits.passes (h : Overcommits config cache resident) :
    ¬ (cache.anchorHasRoom config resident.byteLen = false ∧
      cache.promotionBlocked config resident.byteLen = true) := by
  rintro ⟨-,hblocked⟩
  have hadmitted := h.admitted
  have hoverflows := h.overflows
  have hpass : cache.promotionBlocked config resident.byteLen = false := by
    rw [promotionBlocked_eq_false]
    omega
  rw [hpass] at hblocked
  cases hblocked

theorem promoteHotSync_spec (h : Representation config cache) (resident : GpuResident) :
    (Overcommits config cache resident →
      cache.promoteHotSync config resident = .error .hotVictimMissing) ∧
    (¬ Overcommits config cache resident → ∃ next outcome,
      cache.promoteHotSync config resident = .ok (next,outcome) ∧
        Effect config [resident.id] cache next) := by
  unfold GpuExpertCache.promoteHotSync
  dsimp only
  rcases resolveExistingHot_spec h resident.id with
    ⟨habsent,hresolve⟩ | ⟨hpresent,next,outcome,hresolve,-,heffect⟩
  swap
  · rw [hresolve, ok_bind]
    exact ⟨fun hover => absurd hover.absent hpresent,fun _ => ⟨next,outcome,rfl,heffect⟩⟩
  rw [hresolve, ok_bind]
  dsimp only
  by_cases hzero : resident.byteLen = 0
  · rw [if_pos hzero]
    exact ⟨fun hover => absurd hzero hover.positive.ne',fun _ => ⟨_,_,rfl,.clear h _⟩⟩
  rw [if_neg hzero]
  by_cases hlarge : cache.anchorHasRoom config resident.byteLen = false ∧
      config.lruCapacityBytes<resident.byteLen
  · rw [if_pos hlarge]
    exact ⟨fun hover => absurd hover.eligible (Nat.not_le.mpr hlarge.2),
      fun _ => ⟨_,_,rfl,.clear h _⟩⟩
  rw [if_neg hlarge]
  by_cases hblocked : cache.anchorHasRoom config resident.byteLen = false ∧
      cache.promotionBlocked config resident.byteLen = true
  · rw [if_pos hblocked]
    exact ⟨fun hover => absurd hblocked hover.passes,fun _ => ⟨_,_,rfl,.clear h _⟩⟩
  rw [if_neg hblocked]
  rcases allocateGeneration_eq cache with ⟨hallocate,hexhausted⟩ | ⟨hallocate,hnext⟩
  · rw [hallocate]
    exact ⟨fun hover => absurd hover.generation (Nat.not_lt.mpr hexhausted),
      fun _ => ⟨_,_,rfl,.clear h _⟩⟩
  rw [hallocate]
  dsimp only
  have hroom := ((Room.refl [resident.id] [] cache).raise (Nat.le_succ _)).clear
    (List.mem_cons_self (a := resident.id))
  have hrep := (h.allocate hnext).clearMarkers resident.id
  by_cases hanchor : cache.anchorHasRoom config resident.byteLen = true
  · rw [if_pos hanchor]
    rw [anchorHasRoom_iff] at hanchor
    refine ⟨fun hover => absurd hover.anchorFull (Nat.not_lt.mpr hanchor),fun _ => ?_⟩
    obtain ⟨next,hinstall,heffect⟩ := hroom.admitAnchor h hrep habsent rfl rfl (Nat.lt_succ_self _)
      ⟨Finset.notMem_erase _ _,Finset.notMem_erase _ _⟩ hanchor
    rw [← bind_assoc, hinstall]
    exact ⟨next,_,rfl,heffect⟩
  · rw [if_neg hanchor]
    obtain ⟨henough,hscarce⟩ := @evictUntilFits_spec config _ [] hotEviction resident.byteLen _
      hotEviction_exact hrep le_rfl
    constructor
    · intro hover
      rw [hscarce hover.scarce]
      rfl
    · intro hsafe
      rw [Bool.not_eq_true] at hanchor
      have hsum := room_of_pass hsafe habsent hzero hanchor hlarge hblocked hnext
      obtain ⟨room,hevict,hroomRep,hevicted,hfits⟩ := henough hsum
      have hgeneration : cache.nextGeneration<room.nextGeneration := by
        rw [hevicted.next]
        exact Nat.lt_succ_self _
      obtain ⟨next,hinstall,heffect⟩ := @Room.admitLru config cache room resident _ _ _
        .lruByteOverflow (hroom.evict hevicted) h hroomRep habsent rfl hgeneration hfits
      rw [hevict, ok_bind, ← bind_assoc, hinstall]
      exact ⟨next,_,rfl,heffect⟩

/-- The markers an operation has cleared do not matter to a promotion. -/
lemma overcommits_clearMarkers {id : ℕ} :
    Overcommits config (cache.clearMarkers id) resident ↔ Overcommits config cache resident :=
  ⟨fun h => ⟨h.absent,h.positive,h.anchorFull,h.eligible,h.generation,h.overflows,h.admitted,
    h.scarce⟩,fun h => ⟨h.absent,h.positive,h.anchorFull,h.eligible,h.generation,h.overflows,
    h.admitted,h.scarce⟩⟩

lemma replaceLru_eq {id : ℕ} {admission : GpuAdmission} (habsent : cache.Absent id) :
    cache.replaceLru id admission = cache.installLru .lruByteOverflow id admission := by
  unfold GpuExpertCache.replaceLru
  rw [(GpuExpertCache.absent_iff.mp habsent).2]

theorem promoteSync_spec (h : Representation config cache) (resident : GpuResident) :
    (Overcommits config cache resident →
      cache.promoteSync config resident = .error .promotionVictimMissing) ∧
    (¬ Overcommits config cache resident → ∃ next promoted,
      cache.promoteSync config resident = .ok (next,promoted) ∧
        Effect config [resident.id] cache next) := by
  have hclear := Effect.clear h resident.id
  rw [← @overcommits_clearMarkers config cache resident resident.id]
  unfold GpuExpertCache.promoteSync
  dsimp only
  have hcleared := hclear.rep
  have hstart := (Room.refl [resident.id] [] cache).clear (List.mem_cons_self (a := resident.id))
  have hbelow : (cache.clearMarkers resident.id).nextGeneration = cache.nextGeneration := rfl
  have hentries : (cache.clearMarkers resident.id).entries = cache.entries := rfl
  have hlru : (cache.clearMarkers resident.id).lru = cache.lru := rfl
  have hunmarked : resident.id ∉ (cache.clearMarkers resident.id).promotionPending ∧
      resident.id ∉ (cache.clearMarkers resident.id).promotionRearm :=
    ⟨Finset.notMem_erase _ _,Finset.notMem_erase _ _⟩
  generalize cache.clearMarkers resident.id = start
    at hclear hcleared hstart hbelow hentries hlru hunmarked
  by_cases hzero : resident.byteLen = 0
  · rw [if_pos hzero]
    exact ⟨fun hover => absurd hzero hover.positive.ne',fun _ => ⟨_,_,rfl,hclear⟩⟩
  rw [if_neg hzero]
  by_cases hanchored : (Lru.peek start.anchor resident.id).isSome = true
  · rw [if_pos hanchored]
    refine ⟨fun hover => ?_,fun _ => ⟨_,_,rfl,hclear⟩⟩
    rw [(GpuExpertCache.absent_iff.mp hover.absent).1] at hanchored
    cases hanchored
  rw [if_neg hanchored]
  by_cases hpresent : (Lru.peek start.lru resident.id).isSome = true
  · rw [if_pos hpresent]
    refine ⟨fun hover => ?_,fun _ => ⟨_,_,rfl,hclear.touch resident.id⟩⟩
    rw [(GpuExpertCache.absent_iff.mp hover.absent).2] at hpresent
    cases hpresent
  rw [if_neg hpresent]
  have habsent : start.Absent resident.id := by
    rw [Option.not_isSome_iff_eq_none] at hanchored hpresent
    exact GpuExpertCache.absent_iff.mpr ⟨hanchored,hpresent⟩
  have habsent' : cache.Absent resident.id := by
    unfold GpuExpertCache.Absent at habsent ⊢
    rw [← hentries]
    exact habsent
  by_cases hlarge : start.anchorHasRoom config resident.byteLen = false ∧
      config.lruCapacityBytes<resident.byteLen
  · rw [if_pos hlarge]
    exact ⟨fun hover => absurd hover.eligible (Nat.not_le.mpr hlarge.2),
      fun _ => ⟨_,_,rfl,hclear⟩⟩
  rw [if_neg hlarge]
  by_cases hblocked : start.anchorHasRoom config resident.byteLen = false ∧
      start.promotionBlocked config resident.byteLen = true
  · rw [if_pos hblocked]
    exact ⟨fun hover => absurd hblocked hover.passes,fun _ => ⟨_,_,rfl,hclear⟩⟩
  rw [if_neg hblocked]
  rcases allocateGeneration_eq start with ⟨hallocate,hexhausted⟩ | ⟨hallocate,hnext⟩
  · rw [hallocate]
    exact ⟨fun hover => absurd hover.generation (Nat.not_lt.mpr hexhausted),
      fun _ => ⟨_,_,rfl,hclear⟩⟩
  rw [hallocate]
  dsimp only
  have hroom := hstart.raise (Nat.le_succ start.nextGeneration)
  have hrep := hcleared.allocate hnext
  by_cases hanchor : start.anchorHasRoom config resident.byteLen = true
  · rw [if_pos hanchor]
    rw [anchorHasRoom_iff] at hanchor
    refine ⟨fun hover => absurd hover.anchorFull (Nat.not_lt.mpr hanchor),fun _ => ?_⟩
    obtain ⟨next,hinstall,heffect⟩ := hroom.admitAnchor h hrep habsent' hlru hbelow
      (Nat.lt_succ_self _) hunmarked hanchor
    rw [← bind_assoc, hinstall]
    exact ⟨next,_,rfl,heffect⟩
  · rw [if_neg hanchor]
    obtain ⟨henough,hscarce⟩ := @evictUntilFits_spec config _ [] promotionEviction resident.byteLen _
      promotionEviction_exact hrep le_rfl
    constructor
    · intro hover
      rw [hscarce hover.scarce]
      rfl
    · intro hsafe
      rw [Bool.not_eq_true] at hanchor
      have hsum := room_of_pass hsafe habsent hzero hanchor hlarge hblocked hnext
      obtain ⟨room,hevict,hroomRep,hevicted,hfits⟩ := henough hsum
      have hgeneration : start.nextGeneration<room.nextGeneration := by
        rw [hevicted.next]
        exact Nat.lt_succ_self _
      have hfinal := hroom.evict hevicted
      obtain ⟨next,hinstall,heffect⟩ := @Room.admitLru config cache room resident _ _ _
        .lruByteOverflow hfinal h hroomRep habsent' hbelow hgeneration hfits
      rw [hevict, ok_bind, replaceLru_eq (hfinal.absent habsent'), ← bind_assoc, hinstall]
      exact ⟨next,_,rfl,heffect⟩

end Sync

section Admit
variable {config : Config} {cache : GpuExpertCache}

theorem get_spec (h : Representation config cache) (id : ℕ) :
    Effect config [] cache (cache.get id).1 := by
  unfold GpuExpertCache.get
  split
  · exact .refl h
  · split
    · exact (Effect.refl h).touch id
    · exact .refl h

/-- The non-evicting promotion that finds its id admitted, or admits it. -/
def NoEvictSettles (config : Config) (cache : GpuExpertCache) (resident : GpuResident) : Prop :=
  0<resident.byteLen ∧ (¬ cache.Absent resident.id ∨
    cache.lruUsedBytes+resident.byteLen ≤ config.lruCapacityBytes ∧ cache.nextGeneration<u64Max)

theorem tryPromoteLruNoEvict_spec (h : Representation config cache) (resident : GpuResident) :
    ∃ next promoted cleared, cache.tryPromoteLruNoEvict config resident = .ok (next,promoted) ∧
      Effect config cleared cache next ∧
      (cleared = [] ∨ cleared = [resident.id] ∧ NoEvictSettles config cache resident) := by
  have hunchanged := Effect.refl h
  unfold GpuExpertCache.tryPromoteLruNoEvict
  dsimp only
  by_cases hzero : resident.byteLen = 0
  · rw [if_pos hzero]
    exact ⟨_,_,[],rfl,hunchanged,.inl rfl⟩
  rw [if_neg hzero]
  have hpositive := Nat.pos_of_ne_zero hzero
  by_cases hcontains : cache.contains resident.id = true
  · rw [if_pos hcontains]
    refine ⟨_,_,[resident.id],rfl,.clear h _,.inr ⟨rfl,hpositive,.inl fun habsent => ?_⟩⟩
    rw [GpuExpertCache.contains_eq_false.mpr habsent] at hcontains
    cases hcontains
  rw [if_neg hcontains]
  rw [Bool.not_eq_true, GpuExpertCache.contains_eq_false] at hcontains
  by_cases hfull : fits config.lruCapacityBytes cache.lruUsedBytes resident.byteLen = false
  · rw [if_pos hfull]
    exact ⟨_,_,[],rfl,hunchanged,.inl rfl⟩
  rw [if_neg hfull]
  have hbounded := config.bounded
  rw [Bool.not_eq_false, fits_iff (by omega)] at hfull
  rcases allocateGeneration_eq cache with ⟨hallocate,hexhausted⟩ | ⟨hallocate,hnext⟩
  · rw [hallocate]
    exact ⟨_,_,[],rfl,hunchanged,.inl rfl⟩
  rw [hallocate]
  have hroom := ((Room.refl [resident.id] [] cache).raise (Nat.le_succ _)).clear
    (List.mem_cons_self (a := resident.id))
  have hrep := (h.allocate hnext).clearMarkers resident.id
  obtain ⟨next,hinstall,heffect⟩ := @Room.admitLru config cache _ resident _ _ _ .lruByteOverflow
    hroom h hrep hcontains rfl (Nat.lt_succ_self _) hfull
  dsimp only
  rw [← bind_assoc, hinstall]
  exact ⟨next,_,[resident.id],rfl,heffect,.inr ⟨rfl,hpositive,.inr ⟨hfull,hnext⟩⟩⟩

/-- The preflight of `demand_admit_lru` for an absent id. -/
structure DemandAdmits (config : Config) (cache : GpuExpertCache) (resident : GpuResident) :
    Prop where
  absent : cache.Absent resident.id
  positive : 0<resident.byteLen
  eligible : resident.byteLen ≤ config.lruCapacityBytes
  represented : cache.lruUsedBytes+resident.byteLen ≤ usizeMax
  room : cache.lruUsedBytes+resident.byteLen ≤ config.lruCapacityBytes+cache.unprotectedBytes []
  generation : cache.nextGeneration<u64Max

theorem demandAdmitLru_spec (h : Representation config cache) (resident : GpuResident) :
    ∃ next result cleared, cache.demandAdmitLru config resident = .ok (next,result) ∧
      Effect config cleared cache next ∧
      (cleared = [] ∨ cleared = [resident.id] ∧ DemandAdmits config cache resident) := by
  have hunchanged := Effect.refl h
  unfold GpuExpertCache.demandAdmitLru
  dsimp only
  by_cases hzero : resident.byteLen = 0
  · rw [if_pos hzero]
    exact ⟨_,_,[],rfl,hunchanged,.inl rfl⟩
  rw [if_neg hzero]
  by_cases hcontains : cache.contains resident.id = true
  · rw [if_pos hcontains]
    exact ⟨_,_,[],rfl,hunchanged,.inl rfl⟩
  rw [if_neg hcontains]
  rw [Bool.not_eq_true, GpuExpertCache.contains_eq_false] at hcontains
  by_cases hlarge : config.lruCapacityBytes<resident.byteLen
  · rw [if_pos hlarge]
    exact ⟨_,_,[],rfl,hunchanged,.inl rfl⟩
  rw [if_neg hlarge]
  cases hrequired : checkedAdd usizeMax cache.lruUsedBytes resident.byteLen with
  | none => exact ⟨_,_,[],rfl,hunchanged,.inl rfl⟩
  | some requiredBytes =>
    obtain ⟨hrepresented,rfl⟩ := checkedAdd_eq_some.mp hrequired
    dsimp only
    by_cases hscarce : cache.unprotectedBytes [] <
        cache.lruUsedBytes+resident.byteLen-config.lruCapacityBytes
    · rw [if_pos hscarce]
      exact ⟨_,_,[],rfl,hunchanged,.inl rfl⟩
    rw [if_neg hscarce]
    have hsum : cache.lruUsedBytes+resident.byteLen ≤
        config.lruCapacityBytes+cache.unprotectedBytes [] := by omega
    rcases allocateGeneration_eq cache with ⟨hallocate,hexhausted⟩ | ⟨hallocate,hnext⟩
    · rw [hallocate]
      exact ⟨_,_,[],rfl,hunchanged,.inl rfl⟩
    rw [hallocate]
    dsimp only
    have hstart := (Room.refl [resident.id] [] cache).raise (Nat.le_succ cache.nextGeneration)
    have hrep := h.allocate hnext
    obtain ⟨room,hevict,hroomRep,hevicted,hfits⟩ :=
      (@evictUntilFits_spec config _ [] demandEviction resident.byteLen _ demandEviction_exact hrep
        le_rfl).1 hsum
    have hgeneration : cache.nextGeneration<room.nextGeneration := by
      rw [hevicted.next]
      exact Nat.lt_succ_self _
    have hroom := (hstart.evict hevicted).clear (List.mem_cons_self (a := resident.id))
    obtain ⟨next,hinstall,heffect⟩ := @Room.admitLru config cache _ resident _ _ _
      .demandByteOverflow hroom h (hroomRep.clearMarkers _) hcontains rfl hgeneration hfits
    rw [hevict, ok_bind, ← bind_assoc, hinstall]
    exact ⟨next,_,[resident.id],rfl,heffect,.inr ⟨rfl,hcontains,Nat.pos_of_ne_zero hzero,
      Nat.not_lt.mp hlarge,hrepresented,hsum,hnext⟩⟩

end Admit

end MicroExpertRouter.GpuCache
