import MicroExpertRouter.GpuCache.DemandSet

/-! Runs of the logical GPU-admission cache. Any number of parties call it and hold guards over
their demand sets; every operation is one critical section, so that a run is a list of operations
in some order. -/
namespace MicroExpertRouter.GpuCache

/-- The cache and the live guards, each under a handle of its own. -/
structure System where
  cache : GpuExpertCache
  guards : List (ℕ × List ℕ)
  nextGuard : ℕ

inductive Operation
  | get (id : ℕ)
  | claimPromotion (id ramHits : ℕ)
  | cancelPromotion (id : ℕ)
  | promoteHotExisting (id : ℕ)
  | promoteHotSync (resident : GpuResident)
  | promoteSync (resident : GpuResident)
  | tryPromoteLruNoEvict (resident : GpuResident)
  | demandAdmitLru (resident : GpuResident)
  | demandAdmitSet (expertIds : List ℕ) (sources : ℕ → Option GpuResident)
  | protectDemandSet (expertIds : List ℕ)
  | dropGuard (handle : ℕ)

inductive Answer
  | lookup (result : GpuLookup)
  | claim (granted : Bool)
  | hot (outcome : GpuHotPromotionOutcome)
  | promoted (installed : Bool)
  | admitted (result : Except GpuDemandAdmissionError Bool)
  | demandSet (result : Except GpuDemandAdmissionError GpuDemandSetAdmission)
  | protection (result : Except GpuDemandAdmissionError ℕ)
  | unit

/-- What ends a run: a panic, or the abort of a clone that would overflow the count of an `Arc`. -/
inductive Halt
  | panic (reason : Panic)
  | abort
  deriving DecidableEq, Repr

namespace System

/-- A new cache without guards. -/
def new : System := ⟨.empty,[],0⟩

/-- Store what an operation leaves of the cache. -/
def store {α : Type} (self : System) (answer : α → Answer) :
    Except Panic (GpuExpertCache × α) → Except Halt (System × Answer)
  | .ok (cache,result) => .ok ({ self with cache },answer result)
  | .error reason => .error (.panic reason)

/-- `protect_demand_set`. The guard keeps the cache alive, and cloning its `Arc` aborts beyond
`isize::MAX` references. -/
def protectDemandSet (self : System) (expertIds : List ℕ) : Except Halt (System × Answer) :=
  match firstDuplicate [] expertIds with
  | some expertId => .ok (self,.protection (.error (.duplicateDemandExpert expertId)))
  | none =>
    match GpuExpertCache.registerProtections expertIds self.cache with
    | .error reason => .error (.panic reason)
    | .ok cache =>
      if isizeMax<self.guards.length+1 then .error .abort
      else .ok (⟨cache,(self.nextGuard,expertIds)::self.guards,self.nextGuard+1⟩,
        .protection (.ok self.nextGuard))

/-- The `Drop` of a live guard. -/
def dropGuard (self : System) (handle : ℕ) : Except Halt (System × Answer) :=
  match Lru.peek self.guards handle with
  | none => .ok (self,.unit)
  | some expertIds =>
    match GpuExpertCache.releaseProtections expertIds self.cache with
    | .error reason => .error (.panic reason)
    | .ok cache => .ok ({ self with cache, guards := Lru.pop self.guards handle },.unit)

def step (config : Config) (self : System) : Operation → Except Halt (System × Answer)
  | .get id => self.store .lookup (.ok (self.cache.get id))
  | .claimPromotion id ramHits => self.store .claim (.ok (self.cache.claimPromotion config id ramHits))
  | .cancelPromotion id => .ok ({ self with cache := self.cache.cancelPromotion id },.unit)
  | .promoteHotExisting id => self.store .hot (self.cache.promoteHotExisting config id)
  | .promoteHotSync resident => self.store .hot (self.cache.promoteHotSync config resident)
  | .promoteSync resident => self.store .promoted (self.cache.promoteSync config resident)
  | .tryPromoteLruNoEvict resident =>
    self.store .promoted (self.cache.tryPromoteLruNoEvict config resident)
  | .demandAdmitLru resident => self.store .admitted (self.cache.demandAdmitLru config resident)
  | .demandAdmitSet expertIds sources =>
    self.store .demandSet (self.cache.demandAdmitSet config expertIds sources)
  | .protectDemandSet expertIds => self.protectDemandSet expertIds
  | .dropGuard handle => self.dropGuard handle

/-- The live guards that contain an id. -/
def guardCount (self : System) (id : ℕ) : ℕ := self.guards.countP fun guard => id ∈ guard.2

end System

/-- The promotions that overcommit. -/
def Operation.Overcommits (config : Config) (cache : GpuExpertCache) : Operation → Prop
  | .promoteHotSync resident => GpuCache.Overcommits config cache resident
  | .promoteSync resident => GpuCache.Overcommits config cache resident
  | _ => False

/-- One operation of a run. -/
structure Event where
  before : System
  operation : Operation
  answer : Answer
  after : System

inductive Run (config : Config) : System → List Event → System → Prop
  | nil (system : System) : Run config system [] system
  | cons {system next last : System} {answer : Answer} {events : List Event}
    (operation : Operation) (step : system.step config operation = .ok (next,answer))
    (rest : Run config next events last) :
    Run config system (⟨system,operation,answer,next⟩::events) last

/-- What holds between operations. -/
structure Consistent (config : Config) (system : System) : Prop where
  rep : Representation config system.cache
  counts : ∀ id, system.cache.demandProtections id = references (system.guardCount id)
  handles : Lru.Distinct system.guards
  issued : ∀ guard ∈ system.guards, guard.1<system.nextGuard
  distinct : ∀ guard ∈ system.guards, guard.2.Nodup
  few : system.guards.length ≤ isizeMax

/-- What an operation does to admissions and guards. -/
structure Transition (config : Config) (system next : System) : Prop where
  consistent : Consistent config next
  anchor : ∀ entry ∈ system.cache.anchor, entry ∈ next.cache.anchor
  origin : ∀ entry ∈ next.cache.entries, entry ∈ system.cache.entries ∨
    system.cache.Absent entry.1 ∧ system.cache.nextGeneration ≤ entry.2.generation
  kept : ∀ entry ∈ system.cache.entries, 0<system.guardCount entry.1 →
    entry ∈ next.cache.entries
  next_le : system.cache.nextGeneration ≤ next.cache.nextGeneration
  guards : ∀ guard ∈ next.guards, guard ∈ system.guards ∨ system.nextGuard ≤ guard.1
  nextGuard_le : system.nextGuard ≤ next.nextGuard

section Step
variable {config : Config} {system next : System} {answer : Answer}

lemma Consistent.new (config : Config) : Consistent config .new :=
  ⟨.empty config,fun _ => rfl,List.nodup_nil,nofun,nofun,Nat.zero_le _⟩

lemma Consistent.isProtected (h : Consistent config system) {id : ℕ}
    (hcount : 0<system.guardCount id) : system.cache.isProtected [] id = true := by
  unfold GpuExpertCache.isProtected
  rw [h.counts id, references, if_neg hcount.ne']
  simpa using hcount

/-- An operation on the cache alone. -/
lemma Consistent.effect (h : Consistent config system) {cleared : List ℕ} {cache : GpuExpertCache}
    (heffect : Effect config cleared system.cache cache) :
    Transition config system { system with cache } :=
  ⟨⟨heffect.rep,fun id => by rw [heffect.protections]; exact h.counts id,h.handles,h.issued,
    h.distinct,h.few⟩,heffect.anchor,heffect.origin,fun entry hentry hcount =>
    heffect.kept entry hentry (h.isProtected hcount),heffect.next_le,fun _ hguard => .inl hguard,
    le_rfl⟩

/-- An operation on the markers. -/
lemma Consistent.mark (h : Consistent config system) {cache : GpuExpertCache}
    (hrep : Representation config cache) (hanchor : cache.anchor = system.cache.anchor)
    (hlru : cache.lru = system.cache.lru)
    (hnext : cache.nextGeneration = system.cache.nextGeneration)
    (hprotections : cache.demandProtections = system.cache.demandProtections) :
    Transition config system { system with cache } := by
  have hentries : cache.entries = system.cache.entries := by
    rw [GpuExpertCache.entries, hanchor, hlru]
    rfl
  refine ⟨⟨hrep,fun id => ?_,h.handles,h.issued,h.distinct,h.few⟩,fun entry hentry => ?_,
    fun entry hentry => ?_,fun entry hentry _ => ?_,hnext.ge,fun _ hguard => .inl hguard,le_rfl⟩
  · rw [hprotections]
    exact h.counts id
  · rw [hanchor]
    exact hentry
  · rw [hentries] at hentry
    exact .inl hentry
  · rw [hentries]
    exact hentry

lemma claimPromotion_mark (h : Consistent config system) (id ramHits : ℕ) :
    Transition config system
      { system with cache := (system.cache.claimPromotion config id ramHits).1 } := by
  unfold GpuExpertCache.claimPromotion
  dsimp only
  have hunarmed : ∀ x, x ∉ system.cache.promotionRearm → x ∉ system.cache.promotionRearm.erase id :=
    fun x hx hmem => hx (Finset.mem_of_mem_erase hmem)
  split_ifs with hshould hpending hneither
  · exact h.mark h.rep rfl rfl rfl rfl
  · exact h.mark h.rep rfl rfl rfl rfl
  · refine h.mark (h.rep.of_regions rfl (.refl _) rfl rfl le_rfl h.rep.next_le ?_) rfl rfl rfl rfl
    intro entry hentry
    obtain ⟨hunpending,hrearm⟩ := h.rep.unmarked entry hentry
    exact ⟨hunpending,hunarmed _ hrearm⟩
  · refine h.mark (h.rep.of_regions rfl (.refl _) rfl rfl le_rfl h.rep.next_le ?_) rfl rfl rfl rfl
    intro entry hentry
    obtain ⟨hunpending,hrearm⟩ := h.rep.unmarked entry hentry
    refine ⟨fun hmem => ?_,hunarmed _ hrearm⟩
    -- The claimed id is not in the Anchor Core.
    rcases Finset.mem_insert.mp hmem with heq | hmem
    · apply hpending
      rw [Option.isSome_iff_exists]
      exact .inl ⟨entry.2,(Lru.peek_eq_some h.rep.anchorDistinct).mpr (heq ▸ hentry)⟩
    · exact hunpending hmem

lemma cancelPromotion_mark (h : Consistent config system) (id : ℕ) :
    Transition config system { system with cache := system.cache.cancelPromotion id } := by
  unfold GpuExpertCache.cancelPromotion
  split_ifs with hpending
  · refine h.mark (h.rep.of_regions rfl (.refl _) rfl rfl le_rfl h.rep.next_le ?_) rfl rfl rfl rfl
    intro entry hentry
    obtain ⟨hunpending,hunarmed⟩ := h.rep.unmarked entry hentry
    refine ⟨fun hmem => hunpending (Finset.mem_of_mem_erase hmem),fun hmem => ?_⟩
    rcases Finset.mem_insert.mp hmem with heq | hmem
    · rw [heq] at hunpending
      exact hunpending hpending
    · exact hunarmed hmem
  · exact h.mark h.rep rfl rfl rfl rfl

lemma guardCount_le (system : System) (id : ℕ) : system.guardCount id ≤ system.guards.length :=
  List.countP_le_length

/-- An operation on the guards leaves the markers alone. -/
def SameMarkers (cache next : GpuExpertCache) : Prop :=
  next.promotionPending = cache.promotionPending ∧ next.promotionRearm = cache.promotionRearm

lemma protectDemandSet_spec (h : Consistent config system) (expertIds : List ℕ) :
    system.protectDemandSet expertIds = .error .abort ∨
    ∃ next answer, system.protectDemandSet expertIds = .ok (next,answer) ∧
      Transition config system next ∧ SameMarkers system.cache next.cache := by
  unfold System.protectDemandSet
  cases hduplicate : firstDuplicate [] expertIds with
  | some expertId => exact .inr ⟨_,_,rfl,h.mark h.rep rfl rfl rfl rfl,rfl,rfl⟩
  | none =>
    have hnodup := (firstDuplicate_eq_none.mp hduplicate).1
    have hsmall : isizeMax<usizeMax := by decide
    obtain ⟨protections,hregister,hcounts⟩ := registerProtections_spec hnodup h.counts
      (fun id _ => (((guardCount_le system id).trans h.few).trans_lt hsmall))
    rw [hregister]
    dsimp only
    by_cases hmany : isizeMax<system.guards.length+1
    · rw [if_pos hmany]
      exact .inl rfl
    · rw [if_neg hmany]
      refine .inr ⟨_,_,rfl,⟨⟨?_,fun id => ?_,?_,?_,?_,Nat.not_lt.mp hmany⟩,fun _ hentry => hentry,
        fun _ hentry => .inl hentry,fun _ hentry _ => hentry,le_rfl,fun guard hguard => ?_,
        Nat.le_succ _⟩,rfl,rfl⟩
      · exact h.rep.of_regions rfl (.refl _) rfl rfl le_rfl h.rep.next_le h.rep.unmarked
      · change protections id = _
        rw [System.guardCount, List.countP_cons, hcounts]
        simp only [decide_eq_true_eq]
        rfl
      · refine List.nodup_cons.mpr ⟨fun hmem => ?_,h.handles⟩
        obtain ⟨guard,hguard,heq⟩ := List.mem_map.mp hmem
        exact (h.issued guard hguard).ne heq
      · exact List.forall_mem_cons.mpr ⟨Nat.lt_succ_self _,fun guard hguard =>
          (h.issued guard hguard).trans (Nat.lt_succ_self _)⟩
      · exact List.forall_mem_cons.mpr ⟨hnodup,h.distinct⟩
      · rcases List.mem_cons.mp hguard with rfl | hguard
        · exact .inr le_rfl
        · exact .inl hguard

lemma dropGuard_spec (h : Consistent config system) (handle : ℕ) :
    ∃ next answer, system.dropGuard handle = .ok (next,answer) ∧
      Transition config system next ∧ SameMarkers system.cache next.cache := by
  unfold System.dropGuard
  cases hpeek : Lru.peek system.guards handle with
  | none => exact ⟨_,_,rfl,h.mark h.rep rfl rfl rfl rfl,rfl,rfl⟩
  | some expertIds =>
    have hmem := Lru.peek_mem hpeek
    have hperm := h.handles.perm_pop hmem
    have hcount : ∀ id, system.cache.demandProtections id = references
        ((Lru.pop system.guards handle).countP (fun guard => id ∈ guard.2)+
          if id ∈ expertIds then 1 else 0) := by
      intro id
      rw [h.counts, System.guardCount, hperm.countP_eq, List.countP_cons]
      simp only [decide_eq_true_eq]
    have hnodup : expertIds.Nodup := h.distinct _ hmem
    obtain ⟨protections,hrelease,hcounts⟩ := releaseProtections_spec hnodup hcount
    dsimp only
    rw [hrelease]
    have hsubset : ∀ guard ∈ Lru.pop system.guards handle, guard ∈ system.guards :=
      fun guard hguard => List.mem_of_mem_filter hguard
    refine ⟨_,_,rfl,⟨⟨?_,hcounts,h.handles.pop handle,fun guard hguard =>
      h.issued guard (hsubset guard hguard),fun guard hguard =>
      h.distinct guard (hsubset guard hguard),(List.length_filter_le _ _).trans h.few⟩,
      fun _ hentry => hentry,fun _ hentry => .inl hentry,fun _ hentry _ => hentry,le_rfl,
      fun guard hguard => .inl (hsubset guard hguard),le_rfl⟩,rfl,rfl⟩
    exact h.rep.of_regions rfl (.refl _) rfl rfl le_rfl h.rep.next_le h.rep.unmarked

/-- A step panics when it overcommits. Otherwise it aborts or is a transition. -/
theorem step_spec (h : Consistent config system) (operation : Operation) :
    (operation.Overcommits config system.cache →
      ∃ reason, system.step config operation = .error (.panic reason)) ∧
    (¬ operation.Overcommits config system.cache → system.step config operation = .error .abort ∨
      ∃ next answer, system.step config operation = .ok (next,answer) ∧
        Transition config system next) := by
  cases operation with
  | get id => exact ⟨nofun,fun _ => .inr ⟨_,_,rfl,h.effect (get_spec h.rep id)⟩⟩
  | claimPromotion id ramHits =>
    exact ⟨nofun,fun _ => .inr ⟨_,_,rfl,claimPromotion_mark h id ramHits⟩⟩
  | cancelPromotion id => exact ⟨nofun,fun _ => .inr ⟨_,_,rfl,cancelPromotion_mark h id⟩⟩
  | promoteHotExisting id =>
    refine ⟨nofun,fun _ => .inr ?_⟩
    obtain ⟨cache,outcome,hcall,hresult⟩ := promoteHotExisting_spec h.rep id
    refine ⟨{ system with cache },.hot outcome,by rw [System.step, hcall]; rfl,?_⟩
    rcases hresult with ⟨-,rfl⟩ | ⟨-,heffect⟩
    · exact h.mark h.rep rfl rfl rfl rfl
    · exact h.effect heffect
  | promoteHotSync resident =>
    obtain ⟨hover,hsafe⟩ := promoteHotSync_spec h.rep resident
    refine ⟨fun hovercommits => ⟨_,by rw [System.step, hover hovercommits]; rfl⟩,fun hmeets =>
      .inr ?_⟩
    obtain ⟨cache,outcome,hcall,heffect⟩ := hsafe hmeets
    exact ⟨_,.hot outcome,by rw [System.step, hcall]; rfl,h.effect heffect⟩
  | promoteSync resident =>
    obtain ⟨hover,hsafe⟩ := promoteSync_spec h.rep resident
    refine ⟨fun hovercommits => ⟨_,by rw [System.step, hover hovercommits]; rfl⟩,fun hmeets =>
      .inr ?_⟩
    obtain ⟨cache,promoted,hcall,heffect⟩ := hsafe hmeets
    exact ⟨_,.promoted promoted,by rw [System.step, hcall]; rfl,h.effect heffect⟩
  | tryPromoteLruNoEvict resident =>
    obtain ⟨cache,promoted,cleared,hcall,heffect,-⟩ := tryPromoteLruNoEvict_spec h.rep resident
    exact ⟨nofun,fun _ => .inr ⟨_,.promoted promoted,by rw [System.step, hcall]; rfl,
      h.effect heffect⟩⟩
  | demandAdmitLru resident =>
    obtain ⟨cache,result,cleared,hcall,heffect,-⟩ := demandAdmitLru_spec h.rep resident
    exact ⟨nofun,fun _ => .inr ⟨_,.admitted result,by rw [System.step, hcall]; rfl,
      h.effect heffect⟩⟩
  | demandAdmitSet expertIds sources =>
    obtain ⟨cache,result,cleared,hcall,heffect,-⟩ := demandAdmitSet_spec h.rep expertIds sources
    exact ⟨nofun,fun _ => .inr ⟨_,.demandSet result,by rw [System.step, hcall]; rfl,
      h.effect heffect⟩⟩
  | protectDemandSet expertIds =>
    refine ⟨nofun,fun _ => (protectDemandSet_spec h expertIds).imp id ?_⟩
    rintro ⟨next,answer,hcall,htransition,-⟩
    exact ⟨next,answer,hcall,htransition⟩
  | dropGuard handle =>
    obtain ⟨next,answer,hcall,htransition,-⟩ := dropGuard_spec h handle
    exact ⟨nofun,fun _ => .inr ⟨next,answer,hcall,htransition⟩⟩

lemma Consistent.transition (h : Consistent config system) {operation : Operation}
    (hstep : system.step config operation = .ok (next,answer)) : Transition config system next := by
  obtain ⟨hover,hmeets⟩ := step_spec h operation
  by_cases hovercommits : operation.Overcommits config system.cache
  · obtain ⟨reason,hpanic⟩ := hover hovercommits
    rw [hpanic] at hstep
    cases hstep
  · rcases hmeets hovercommits with habort | ⟨other,_,hother,htransition⟩
    · rw [habort] at hstep
      cases hstep
    · rw [hother] at hstep
      cases hstep
      exact htransition

end Step

section Run
variable {config : Config} {system last : System} {events : List Event}

lemma Run.consistent (hrun : Run config system events last) (h : Consistent config system) :
    Consistent config last := by
  induction hrun with
  | nil => exact h
  | cons operation hstep _ ih => exact ih (h.transition hstep).consistent

/-- Splitting a run after one of its events. -/
lemma Run.split {event : Event} (hrun : Run config system events last) (hevent : event ∈ events) :
    ∃ earlier later, Run config system earlier event.after ∧ Run config event.after later last := by
  induction hrun with
  | nil => cases hevent
  | cons operation hstep hrest ih =>
    rcases List.mem_cons.mp hevent with rfl | hevent
    · exact ⟨_,_,.cons operation hstep (.nil _),hrest⟩
    · obtain ⟨earlier,later,hearlier,hlater⟩ := ih hevent
      exact ⟨_,later,.cons operation hstep hearlier,hlater⟩

/-- In every state a run reaches, the representation holds and exactly the overcommitting
promotions panic. -/
theorem reachable_representation (hrun : Run config .new events system) :
    Representation config system.cache ∧ ∀ operation,
      (∃ reason, system.step config operation = .error (.panic reason)) ↔
        operation.Overcommits config system.cache := by
  have hconsistent := hrun.consistent (.new config)
  refine ⟨hconsistent.rep,fun operation => ?_⟩
  obtain ⟨hover,hmeets⟩ := step_spec hconsistent operation
  refine ⟨fun hpanic => ?_,hover⟩
  obtain ⟨reason,hpanic⟩ := hpanic
  by_contra hsafe
  rcases hmeets hsafe with habort | ⟨next,answer,hok,-⟩
  · rw [habort] at hpanic
    cases hpanic
  · rw [hok] at hpanic
    cases hpanic

/-- A cache of `usize::MAX` bytes, all of them LRU Edge. -/
def hugeConfig : Config := .new usizeMax 0 3 le_rfl (Nat.zero_le _)

/-- A logical-only resident may charge any number of bytes. -/
def hugeResident : GpuResident := ⟨1,usizeMax-5,Nat.sub_le _ _⟩

def smallResident (id : ℕ) : GpuResident := ⟨id,10,by decide⟩

/-- Beside a protected resident of almost all bytes, the saturated preflight lets a promotion
pass that finds no victim. -/
theorem overcommitted_promotion_panics : ∃ events system, Run hugeConfig .new events system ∧
    system.step hugeConfig (.promoteHotSync (smallResident 2)) =
      .error (.panic .hotVictimMissing) :=
  ⟨_,_,.cons (.demandAdmitLru hugeResident) rfl
    (.cons (.protectDemandSet [1]) rfl (.nil _)),rfl⟩

theorem reachable_representation_admitted : ∃ events system, Run hugeConfig .new events system ∧
    Representation hugeConfig system.cache ∧ system.cache.lruUsedBytes = usizeMax-5 ∧
    ∀ operation, (∃ reason, system.step hugeConfig operation = .error (.panic reason)) ↔
      operation.Overcommits hugeConfig system.cache := by
  have hrun : Run hugeConfig .new _ _ :=
    .cons (.demandAdmitLru hugeResident) rfl (.nil _)
  have hreachable := @reachable_representation hugeConfig _ _ hrun
  exact ⟨_,_,hrun,hreachable.1,rfl,hreachable.2⟩

end Run

end MicroExpertRouter.GpuCache
