import MicroExpertRouter.GpuCache.Admissions

/-! Promotion claims over whole runs: which claims are outstanding, and what a claim may be granted
on. The markers follow the outstanding claims as long as no foreground admission drops the marker
of one. -/
namespace MicroExpertRouter.GpuCache

/-- The outstanding claims after one more event. A claim ends with a promotion of its id that had
its payload or needed none, or with its cancellation. -/
def settle (outstanding : Finset ℕ) (event : Event) : Finset ℕ :=
  match event.operation, event.answer with
  | .claimPromotion id _, .claim true => insert id outstanding
  | .promoteHotExisting id, .hot outcome =>
    if outcome = .payloadRequired then outstanding else outstanding.erase id
  | .promoteHotSync resident, _ => outstanding.erase resident.id
  | .promoteSync resident, _ => outstanding.erase resident.id
  | .cancelPromotion id, _ => outstanding.erase id
  | _, _ => outstanding

def outstanding (events : List Event) : Finset ℕ := events.foldl settle ∅

/-- The ids an event evicts from the LRU Edge. -/
def evictedBy (event : Event) : Finset ℕ :=
  ((event.before.cache.lru.map Prod.fst).filter fun id => !event.after.cache.contains id).toFinset

/-- The ids evicted or cancelled since their last grant, after one more event. -/
def release (released : Finset ℕ) (event : Event) : Finset ℕ :=
  evictedBy event ∪ match event.operation, event.answer with
    | .claimPromotion id _, .claim true => released.erase id
    | .cancelPromotion id, _ =>
      if id ∈ event.before.cache.promotionPending then insert id released else released
    | _, _ => released

def released (events : List Event) : Finset ℕ := events.foldl release ∅

/-- The foreground admissions that drop the marker of a pending claim. -/
def Operation.Displaces (config : Config) (cache : GpuExpertCache) : Operation → Prop
  | .tryPromoteLruNoEvict resident =>
    resident.id ∈ cache.promotionPending ∧ NoEvictSettles config cache resident
  | .demandAdmitLru resident =>
    resident.id ∈ cache.promotionPending ∧ DemandAdmits config cache resident
  | .demandAdmitSet expertIds sources =>
    (∃ scan, SetAdmits config cache expertIds sources scan) ∧
      ∃ id ∈ cache.supplied sources expertIds, id ∈ cache.promotionPending
  | _ => False

section Markers
variable {config : Config} {system next last : System} {answer : Answer} {events : List Event}

/-- What one operation does to the two marker sets. -/
structure Marks (config : Config) (event : Event) : Prop where
  pending : ∀ claims, (∀ id ∈ claims, id ∈ event.before.cache.promotionPending) →
    ¬ event.operation.Displaces config event.before.cache →
    ∀ id ∈ settle claims event, id ∈ event.after.cache.promotionPending
  rearm : ∀ free, (∀ id ∈ event.before.cache.promotionRearm, id ∈ free) →
    ∀ id ∈ event.after.cache.promotionRearm, id ∈ release free event

lemma mem_evictedBy {event : Event} {id : ℕ} {victim : GpuAdmission}
    (hvictim : (id,victim) ∈ event.before.cache.lru) (habsent : event.after.cache.Absent id) :
    id ∈ evictedBy event := by
  rw [evictedBy, List.mem_toFinset, List.mem_filter]
  exact ⟨List.mem_map.mpr ⟨_,hvictim,rfl⟩,by
    rw [GpuExpertCache.contains_eq_false.mpr habsent]
    rfl⟩

lemma mem_release {event : Event} {free kept : Finset ℕ} {id : ℕ}
    (hrelease : release free event = evictedBy event ∪ kept) (hid : id ∈ kept) :
    id ∈ release free event := by
  rw [hrelease]
  exact Finset.mem_union_right _ hid

/-- The re-armed ids after an operation on the admissions. -/
lemma Effect.rearm {cleared : List ℕ} {event : Event}
    (h : Effect config cleared event.before.cache event.after.cache)
    (hrelease : ∀ free, release free event = evictedBy event ∪ free) {free : Finset ℕ}
    (hfree : ∀ id ∈ event.before.cache.promotionRearm, id ∈ free) :
    ∀ id ∈ event.after.cache.promotionRearm, id ∈ release free event := by
  intro id hid
  rw [hrelease, Finset.mem_union]
  rcases h.rearmOld id hid with hid | ⟨⟨victim,hvictim⟩,habsent⟩
  · exact .inr (hfree id hid)
  · exact .inl (mem_evictedBy hvictim habsent)

/-- An operation that settles no claim, and clears no pending one unless it displaces it. -/
lemma Effect.unsettled {cleared : List ℕ} {event : Event}
    (h : Effect config cleared event.before.cache event.after.cache)
    (hcleared : ¬ event.operation.Displaces config event.before.cache →
      ∀ id ∈ cleared, id ∉ event.before.cache.promotionPending)
    (hsettle : ∀ claims, settle claims event = claims)
    (hrelease : ∀ free, release free event = evictedBy event ∪ free) : Marks config event := by
  refine ⟨fun claims hclaims hmeets id hid => ?_,fun free hfree => h.rearm hrelease hfree⟩
  rw [hsettle] at hid
  exact h.pendingKept id (hclaims id hid) fun hmem => hcleared hmeets id hmem (hclaims id hid)

/-- An operation that settles the claim of the one id it clears. -/
lemma Effect.settled {settledId : ℕ} {event : Event}
    (h : Effect config [settledId] event.before.cache event.after.cache)
    (hsettle : ∀ claims, settle claims event = claims.erase settledId)
    (hrelease : ∀ free, release free event = evictedBy event ∪ free) : Marks config event := by
  refine ⟨fun claims hclaims _ id hid => ?_,fun free hfree => h.rearm hrelease hfree⟩
  rw [hsettle, Finset.mem_erase] at hid
  exact h.pendingKept id (hclaims id hid.2) fun hmem => hid.1 (List.mem_singleton.mp hmem)

/-- A granted claim marks its id and consumes its re-arming; a refused one marks nothing. -/
lemma claimPromotion_spec (cache : GpuExpertCache) (config : Config) (id ramHits : ℕ) :
    (cache.claimPromotion config id ramHits).2 = true ∧ id ∉ cache.promotionPending ∧
      (ramHits = config.promoteAfterHits ∨ id ∈ cache.promotionRearm) ∧
      (cache.claimPromotion config id ramHits).1.promotionPending =
        insert id cache.promotionPending ∧
      (cache.claimPromotion config id ramHits).1.promotionRearm = cache.promotionRearm.erase id ∨
    (cache.claimPromotion config id ramHits).2 = false ∧
      (cache.claimPromotion config id ramHits).1.promotionPending = cache.promotionPending ∧
      (cache.claimPromotion config id ramHits).1.promotionRearm ⊆ cache.promotionRearm := by
  unfold GpuExpertCache.claimPromotion
  dsimp only
  split_ifs with hshould hblocked hneither
  · exact .inr ⟨rfl,rfl,Finset.Subset.refl _⟩
  · exact .inr ⟨rfl,rfl,Finset.Subset.refl _⟩
  · exact .inr ⟨rfl,rfl,Finset.erase_subset _ _⟩
  · rw [not_or] at hblocked
    refine .inl ⟨rfl,hblocked.2,?_,rfl,rfl⟩
    rw [decide_eq_false_iff_not, decide_eq_false_iff_not] at hneither
    tauto

lemma claimPromotion_marks (system : System) (id ramHits : ℕ) :
    Marks config ⟨system,.claimPromotion id ramHits,
      .claim (system.cache.claimPromotion config id ramHits).2,
      { system with cache := (system.cache.claimPromotion config id ramHits).1 }⟩ := by
  rcases claimPromotion_spec system.cache config id ramHits with
    ⟨hgranted,-,-,hpending,hrearm⟩ | ⟨hrefused,hpending,hrearm⟩
  · rw [hgranted]
    refine ⟨fun claims hclaims _ x hx => ?_,fun free hfree x hx => ?_⟩
    · dsimp only
      rw [hpending]
      exact (Finset.mem_insert.mp hx).elim (fun heq => Finset.mem_insert.mpr (.inl heq))
        fun hx => Finset.mem_insert_of_mem (hclaims x hx)
    · dsimp only at hx
      rw [hrearm, Finset.mem_erase] at hx
      exact mem_release rfl (Finset.mem_erase.mpr ⟨hx.1,hfree x hx.2⟩)
  · rw [hrefused]
    refine ⟨fun claims hclaims _ x hx => ?_,fun free hfree x hx => ?_⟩
    · dsimp only
      rw [hpending]
      exact hclaims x hx
    · exact mem_release rfl (hfree x (hrearm hx))

lemma cancelPromotion_marks (system : System) (id : ℕ) :
    Marks config ⟨system,.cancelPromotion id,.unit,
      { system with cache := system.cache.cancelPromotion id }⟩ := by
  by_cases hpending : id ∈ system.cache.promotionPending
  · have hcancel : system.cache.cancelPromotion id = { system.cache with
        promotionPending := system.cache.promotionPending.erase id
        promotionRearm := insert id system.cache.promotionRearm } := if_pos hpending
    rw [hcancel]
    refine ⟨fun claims hclaims _ x hx => ?_,fun free hfree x hx => ?_⟩
    · obtain ⟨hne,hx⟩ := Finset.mem_erase.mp hx
      exact Finset.mem_erase.mpr ⟨hne,hclaims x hx⟩
    · refine mem_release rfl ?_
      dsimp only
      rw [if_pos hpending]
      exact (Finset.mem_insert.mp hx).elim (fun heq => Finset.mem_insert.mpr (.inl heq))
        fun hx => Finset.mem_insert_of_mem (hfree x hx)
  · have hcancel : system.cache.cancelPromotion id = system.cache := if_neg hpending
    rw [hcancel]
    refine ⟨fun claims hclaims _ x hx => hclaims x (Finset.mem_of_mem_erase hx),
      fun free hfree x hx => ?_⟩
    refine mem_release rfl ?_
    dsimp only
    rw [if_neg hpending]
    exact hfree x hx

/-- An operation on the guards. -/
lemma SameMarkers.marks {event : Event} (h : SameMarkers event.before.cache event.after.cache)
    (hsettle : ∀ claims, settle claims event = claims)
    (hrelease : ∀ free, release free event = evictedBy event ∪ free) : Marks config event := by
  refine ⟨fun claims hclaims _ x hx => ?_,fun free hfree x hx => ?_⟩
  · rw [hsettle] at hx
    rw [h.1]
    exact hclaims x hx
  · rw [h.2] at hx
    exact mem_release (hrelease free) (hfree x hx)

/-- Every operation keeps the markers in step with the claims. -/
theorem step_marks (h : Consistent config system) {operation : Operation}
    (hstep : system.step config operation = .ok (next,answer)) :
    Marks config ⟨system,operation,answer,next⟩ := by
  cases operation with
  | get id =>
    cases hstep
    exact (get_spec h.rep id).unsettled nofun (fun _ => rfl) (fun _ => rfl)
  | claimPromotion id ramHits =>
    cases hstep
    exact claimPromotion_marks system id ramHits
  | cancelPromotion id =>
    cases hstep
    exact cancelPromotion_marks system id
  | promoteHotExisting id =>
    obtain ⟨cache,outcome,hcall,hresult⟩ := promoteHotExisting_spec h.rep id
    rw [System.step, hcall] at hstep
    cases hstep
    rcases hresult with ⟨rfl,rfl⟩ | ⟨hne,heffect⟩
    · exact SameMarkers.marks ⟨rfl,rfl⟩ (fun _ => rfl) (fun _ => rfl)
    · exact heffect.settled (fun _ => if_neg hne) (fun _ => rfl)
  | promoteHotSync resident =>
    by_cases hover : Overcommits config system.cache resident
    · rw [System.step, (promoteHotSync_spec h.rep resident).1 hover] at hstep
      cases hstep
    · obtain ⟨cache,outcome,hcall,heffect⟩ := (promoteHotSync_spec h.rep resident).2 hover
      rw [System.step, hcall] at hstep
      cases hstep
      exact heffect.settled (fun _ => rfl) (fun _ => rfl)
  | promoteSync resident =>
    by_cases hover : Overcommits config system.cache resident
    · rw [System.step, (promoteSync_spec h.rep resident).1 hover] at hstep
      cases hstep
    · obtain ⟨cache,promoted,hcall,heffect⟩ := (promoteSync_spec h.rep resident).2 hover
      rw [System.step, hcall] at hstep
      cases hstep
      exact heffect.settled (fun _ => rfl) (fun _ => rfl)
  | tryPromoteLruNoEvict resident =>
    obtain ⟨cache,promoted,cleared,hcall,heffect,hcleared⟩ :=
      tryPromoteLruNoEvict_spec h.rep resident
    rw [System.step, hcall] at hstep
    cases hstep
    refine heffect.unsettled (fun hmeets id hid hpending => ?_) (fun _ => rfl) (fun _ => rfl)
    rcases hcleared with rfl | ⟨rfl,hsettles⟩
    · cases hid
    · cases List.mem_singleton.mp hid
      exact hmeets ⟨hpending,hsettles⟩
  | demandAdmitLru resident =>
    obtain ⟨cache,result,cleared,hcall,heffect,hcleared⟩ := demandAdmitLru_spec h.rep resident
    rw [System.step, hcall] at hstep
    cases hstep
    refine heffect.unsettled (fun hmeets id hid hpending => ?_) (fun _ => rfl) (fun _ => rfl)
    rcases hcleared with rfl | ⟨rfl,hadmits⟩
    · cases hid
    · cases List.mem_singleton.mp hid
      exact hmeets ⟨hpending,hadmits⟩
  | demandAdmitSet expertIds sources =>
    obtain ⟨cache,result,cleared,hcall,heffect,hcleared,-⟩ :=
      demandAdmitSet_spec h.rep expertIds sources
    rw [System.step, hcall] at hstep
    cases hstep
    refine heffect.unsettled (fun hmeets id hid hpending => ?_) (fun _ => rfl) (fun _ => rfl)
    rcases hcleared with rfl | ⟨rfl,hadmits⟩
    · cases hid
    · exact hmeets ⟨hadmits,id,hid,hpending⟩
  | protectDemandSet expertIds =>
    rcases protectDemandSet_spec h expertIds with habort | ⟨other,_,hcall,-,hsame⟩
    · rw [System.step, habort] at hstep
      cases hstep
    · rw [System.step, hcall] at hstep
      cases hstep
      exact hsame.marks (fun _ => rfl) (fun _ => rfl)
  | dropGuard handle =>
    obtain ⟨other,_,hcall,-,hsame⟩ := dropGuard_spec h handle
    rw [System.step, hcall] at hstep
    cases hstep
    exact hsame.marks (fun _ => rfl) (fun _ => rfl)

end Markers

section Claims
variable {config : Config} {system last : System} {events : List Event}

/-- Without displacement every outstanding claim is marked. -/
lemma Run.pending (hrun : Run config system events last) (h : Consistent config system)
    (hmeets : ∀ event ∈ events, ¬ event.operation.Displaces config event.before.cache)
    {claims : Finset ℕ} (hclaims : ∀ id ∈ claims, id ∈ system.cache.promotionPending) :
    ∀ id ∈ events.foldl settle claims, id ∈ last.cache.promotionPending := by
  induction hrun generalizing claims with
  | nil => exact hclaims
  | cons operation hstep _ ih =>
    rw [List.forall_mem_cons] at hmeets
    rw [List.foldl_cons]
    exact ih (h.transition hstep).consistent hmeets.2
      ((step_marks h hstep).pending claims hclaims hmeets.1)

/-- Every re-armed id was evicted or cancelled since its last grant. -/
lemma Run.rearm (hrun : Run config system events last) (h : Consistent config system)
    {free : Finset ℕ} (hfree : ∀ id ∈ system.cache.promotionRearm, id ∈ free) :
    ∀ id ∈ last.cache.promotionRearm, id ∈ events.foldl release free := by
  induction hrun generalizing free with
  | nil => exact hfree
  | cons operation hstep _ ih =>
    rw [List.foldl_cons]
    exact ih (h.transition hstep).consistent ((step_marks h hstep).rearm free hfree)

/-- In a run that displaces no pending claim, a claim is granted only when none is outstanding. In
every run it is granted only at the threshold, or to an id evicted or cancelled since. -/
theorem claim_granted (hrun : Run config .new events system) {next : System} {id ramHits : ℕ}
    (hgranted : system.step config (.claimPromotion id ramHits) = .ok (next,.claim true)) :
    ((∀ event ∈ events, ¬ event.operation.Displaces config event.before.cache) →
      id ∉ outstanding events) ∧
    (ramHits = config.promoteAfterHits ∨ id ∈ released events) := by
  have hconsistent := Consistent.new config
  have hnone : ∀ id ∈ (∅ : Finset ℕ), id ∈ System.new.cache.promotionPending := fun _ hid => hid
  have hclaim : (system.cache.claimPromotion config id ramHits).2 = true := by
    unfold System.step System.store at hgranted
    cases hclaim : (system.cache.claimPromotion config id ramHits).2 with
    | true => rfl
    | false =>
      dsimp only at hgranted
      rw [hclaim] at hgranted
      cases hgranted
  rcases claimPromotion_spec system.cache config id ramHits with
    ⟨-,hunclaimed,hreason,-⟩ | ⟨hrefused,-⟩
  · refine ⟨fun hmeets houtstanding => ?_,hreason.imp_right fun hrearm => ?_⟩
    · exact hunclaimed (hrun.pending hconsistent hmeets hnone id houtstanding)
    · exact hrun.rearm hconsistent hnone id hrearm
  · rw [hrefused] at hclaim
    cases hclaim

/-- A claim for expert 1, its foreground admission and its eviction by expert 2. -/
def displacedEvents : List Event :=
  let claimed : System := ⟨{ GpuExpertCache.empty with promotionPending := {1} },[],0⟩
  [⟨.new,.claimPromotion 1 3,.claim true,claimed⟩,
    ⟨claimed,.demandAdmitLru (smallResident 1),.admitted (.ok true),tinySystem 1 1 ∅⟩,
    ⟨tinySystem 1 1 ∅,.demandAdmitLru (smallResident 2),.admitted (.ok true),tinySystem 2 2 {1}⟩]

/-- The foreground admission drops the marker of the claim, so that the eviction re-arms the id and
a second claim is granted while the first is outstanding. -/
theorem second_claim_granted : Run tinyConfig .new displacedEvents (tinySystem 2 2 {1}) ∧
    1 ∈ outstanding displacedEvents ∧ ∃ next,
      (tinySystem 2 2 {1}).step tinyConfig (.claimPromotion 1 4) = .ok (next,.claim true) := by
  refine ⟨.cons _ rfl (.cons _ rfl (.cons _ rfl (.nil _))),?_,_,rfl⟩
  decide

theorem claim_granted_rearmed : ∃ events next,
    Run tinyConfig .new events (tinySystem 2 2 {1}) ∧
    (tinySystem 2 2 {1}).step tinyConfig (.claimPromotion 1 4) = .ok (next,.claim true) ∧
    1 ∉ outstanding events ∧ (4 = tinyConfig.promoteAfterHits ∨ 1 ∈ released events) := by
  have hgrant : System.new.step tinyConfig (.demandAdmitLru (smallResident 1)) =
    .ok (tinySystem 1 1 ∅,.admitted (.ok true)) := rfl
  have hevict : (tinySystem 1 1 ∅).step tinyConfig (.demandAdmitLru (smallResident 2)) =
    .ok (tinySystem 2 2 {1},.admitted (.ok true)) := rfl
  have hrun := Run.cons _ hgrant (.cons _ hevict (.nil _))
  have hclaim := @claim_granted tinyConfig _ _ hrun _ 1 4 rfl
  refine ⟨_,_,hrun,rfl,hclaim.1 fun event hevent => ?_,hclaim.2⟩
  simp only [List.mem_cons, List.not_mem_nil, or_false] at hevent
  rcases hevent with rfl | rfl
  · exact fun hdisplaces => absurd hdisplaces.1 (by decide)
  · exact fun hdisplaces => absurd hdisplaces.1 (by decide)

end Claims

end MicroExpertRouter.GpuCache
