import MicroExpertRouter.Routing.Moves

/-! No dispatch runs stale weights: entries keep the payload of the admission they name, a dispatch
follows a check, and a call that finds itself stale leaves no entry behind. -/
namespace MicroExpertRouter.Routing
open GpuCache (Config Consistent)
open PhysicalRegistry (PhysicalExpertKey PhysicalInstallPermit Entry Keyed)
variable {δ : Type} {config : Config} {system next : Backend δ}

namespace Backend

/-- An admission of this key has been made, with this payload. -/
def Genuine (self : Backend δ) (key : PhysicalExpertKey) (data : δ) : Prop :=
  key.generation<self.logical.cache.nextGeneration ∧ self.payloads key = data

end Backend

structure CallSound (system : Backend δ) (call : Call δ) : Prop where
  genuine : ∀ admission, call.admission? = some admission →
    system.Genuine admission.key admission.data
  permit : ∀ admission permit, call.admission? = some admission → call.permit? = some permit →
    permit.key = admission.key
  entry : ∀ admission entry, call.admission? = some admission → call.entry? = some entry →
    entry.physicalKey = admission.key ∧ entry.payload.data = admission.data

/-- The call that uploaded an entry still holds its own entry of that key. -/
def Owned (system : Backend δ) (slot : ℕ × Entry (Upload δ)) : Prop :=
  ∃ call admission, system.calls[slot.2.payload.call]? = some call ∧ call.entry?.isSome = true ∧
    call.admission? = some admission ∧ admission.key = slot.2.physicalKey

structure Sound (config : Config) (system : Backend δ) : Prop where
  logical : Consistent config system.logical
  keyed : Keyed system.physical.entries
  genuine : ∀ slot ∈ system.physical.entries,
    system.Genuine slot.2.physicalKey slot.2.payload.data
  owned : ∀ slot ∈ system.physical.entries, Owned system slot
  calls : ∀ (c : ℕ) (call : Call δ), system.calls[c]? = some call → CallSound system call

lemma sound_new (config : Config) (capacity : ℕ) (payloads : PhysicalExpertKey → δ) :
    Sound config (.new capacity payloads) where
  logical := .new config
  keyed := ⟨.nil,List.forall_mem_nil _⟩
  genuine := List.forall_mem_nil _
  owned := List.forall_mem_nil _
  calls := fun c call hcall => by cases hcall

section Admissions

lemma CallSound.mono {call : Call δ} (h : CallSound system call)
    (hgenuine : ∀ key data, system.Genuine key data → next.Genuine key data) : CallSound next call :=
  ⟨fun admission hadmission => hgenuine _ _ (h.genuine admission hadmission),h.permit,h.entry⟩

lemma CallSound.of_admission {call : Call δ}
    (hgenuine : ∀ admission, call.admission? = some admission →
      system.Genuine admission.key admission.data)
    (hpermit : call.permit? = none) (hentry : call.entry? = none) : CallSound system call := by
  refine ⟨hgenuine,fun _ permit _ heq => ?_,fun _ entry _ heq => ?_⟩
  · rw [hpermit] at heq
    cases heq
  · rw [hentry] at heq
    cases heq

lemma CallSound.of_entry {admission : Admission δ} {entry : Entry (Upload δ)}
    (hgenuine : system.Genuine admission.key admission.data)
    (hkey : entry.physicalKey = admission.key) (hdata : entry.payload.data = admission.data) :
    CallSound system (.recheck admission entry) := by
  refine ⟨fun other heq => ?_,fun _ permit _ heq => ?_,fun other found heq heq' => ?_⟩
  · cases heq
    exact hgenuine
  · cases heq
  · cases heq
    cases heq'
    exact ⟨hkey,hdata⟩

/-- The logical cache admits under new generations only. -/
lemma Sound.logical_step (h : Sound config system) {operation : GpuCache.Operation}
    {contents : ℕ → δ} (hstep : system.step config (.logical operation contents) = some next) :
    Sound config next := by
  rw [Backend.step] at hstep
  split at hstep
  · cases hstep
  · rename_i logical answer hlogical
    have htransition := h.logical.transition hlogical
    cases hstep
    have hgenuine : ∀ key data, system.Genuine key data → Backend.Genuine { system with
        logical := logical
        payloads := fun key =>
          if Backend.admitted system.logical.cache logical.cache key then contents key.expertId
          else system.payloads key } key data := by
      intro key data hkey
      refine ⟨hkey.1.trans_le htransition.next_le,?_⟩
      have hold : Backend.admitted system.logical.cache logical.cache key = false := by
        rw [Bool.eq_false_iff]
        intro hadmitted
        obtain ⟨entry,-,hentry⟩ := List.any_eq_true.mp hadmitted
        exact absurd (of_decide_eq_true hentry).2.2 hkey.1.not_ge
      change (if _ then _ else _) = data
      rw [hold]
      exact hkey.2
    exact {
      logical := htransition.consistent
      keyed := h.keyed
      genuine := fun slot hslot => hgenuine _ _ (h.genuine slot hslot)
      owned := h.owned
      calls := fun c call hcall => (h.calls c call hcall).mono hgenuine }

lemma Sound.begin_step (h : Sound config system) {expertId : ℕ}
    (hstep : system.step config (.begin expertId) = some next) : Sound config next := by
  cases hstep
  refine { h with owned := fun slot hslot => ?_, calls := fun c call hcall => ?_ }
  · obtain ⟨call,admission,hcall,hentry⟩ := h.owned slot hslot
    refine ⟨call,admission,?_,hentry⟩
    obtain ⟨hlt,-⟩ := List.getElem?_eq_some_iff.mp hcall
    exact (List.getElem?_append_left hlt).trans hcall
  · have hcall : (system.calls++[Call.read expertId])[c]? = some call := hcall
    rw [List.getElem?_append] at hcall
    split_ifs at hcall with hlt
    · exact (h.calls c call hcall).mono fun _ _ hgenuine => hgenuine
    · have hcall := List.mem_singleton.mp (List.mem_of_getElem? hcall)
      subst hcall
      refine .of_admission (fun _ heq => ?_) rfl rfl
      cases heq

/-- What `current_admission` reads has been admitted. -/
lemma Sound.genuine_current (h : Sound config system) {expertId : ℕ} {admission : GpuCache.GpuAdmission}
    (hcurrent : system.logical.cache.currentAdmission expertId = some admission) :
    system.Genuine ⟨expertId,admission.generation⟩
      (system.admission ⟨expertId,admission.generation⟩).data := by
  refine ⟨?_,rfl⟩
  have hentry : (expertId,admission) ∈ system.logical.cache.entries := by
    unfold GpuCache.GpuExpertCache.currentAdmission at hcurrent
    rw [Option.or_eq_some_iff] at hcurrent
    rcases hcurrent with hanchor | ⟨-,hlru⟩
    · exact List.mem_append_left _ (Lru.peek_mem hanchor)
    · exact List.mem_append_right _ (Lru.peek_mem hlru)
  exact h.logical.rep.below _ hentry

end Admissions

section Calls
variable {c : ℕ} {call call' : Call δ} {physical : PhysicalRegistry.System (Upload δ)}

lemma CallSound.of_move (h : Sound config system) (hcall : CallSound system call)
    (hmove : Move system c physical call call') : CallSound system call' := by
  cases hmove with
  | read hphysical hcurrent =>
    refine .of_admission (fun admission heq => ?_) rfl rfl
    cases heq
    exact h.genuine_current hcurrent
  | advance hsub hadmission hpermit hentry hpassed =>
    have hsame : ∀ admission, call'.admission? = some admission →
        call.admission? = some admission := by
      intro admission heq
      rcases hadmission with hsame | ⟨hnone,-⟩
      · exact hsame ▸ heq
      · rw [hnone] at heq
        cases heq
    refine ⟨fun admission heq => hcall.genuine admission (hsame admission heq),?_,?_⟩
    · intro admission permit heq hpermit'
      obtain ⟨other,hother,hkey⟩ := hpermit permit hpermit'
      rw [hkey]
      exact hcall.permit admission other (hsame admission heq) hother
    · intro admission entry heq hentry'
      exact hcall.entry admission entry (hsame admission heq) (hentry ▸ hentry')
  | find hsub hadmission hentry hkey hmem =>
    -- Both payloads are those of the one admission with this key.
    have hread := hcall.genuine _ hadmission
    have hstored := h.genuine _ hmem
    refine .of_entry hread hkey ?_
    rw [← hread.2, ← hstored.2, hkey]
  | reserve hsub hkey =>
    refine ⟨fun other heq => hcall.genuine other heq,fun other permit heq heq' => ?_,
      fun _ _ _ heq => ?_⟩
    · cases heq
      cases heq'
      exact hkey
    · cases heq
  | install hkey hpayload hentries =>
    refine .of_entry (hcall.genuine _ rfl) (hkey.trans (hcall.permit _ _ rfl rfl)) ?_
    rw [hpayload]
  | check hphysical hcurrent =>
    refine ⟨hcall.genuine,fun _ _ _ heq => ?_,hcall.entry⟩
    cases heq
  | retire hsub hgone => exact .of_admission (fun other heq => hcall.genuine other heq) rfl rfl

/-- The entries after a step are those before it, with an entry of the call itself if it installs. -/
lemma Move.entries (hmove : Move system c physical call call') :
    physical.entries.Subperm system.physical.entries ∨
      ∃ admission permit entry, call = .install admission permit ∧
        call' = .recheck admission entry ∧ entry.physicalKey = permit.key ∧
        entry.payload = ⟨c,admission.data⟩ ∧
        physical.entries = Lru.put system.physical.entries permit.key.expertId entry := by
  cases hmove with
  | read hphysical _ => exact .inl (hphysical ▸ .refl _)
  | advance hsub _ _ _ _ => exact .inl hsub
  | find hsub _ _ _ _ => exact .inl hsub
  | reserve hsub _ => exact .inl hsub
  | install hkey hpayload hentries => exact .inr ⟨_,_,_,rfl,rfl,hkey,hpayload,hentries⟩
  | check hphysical _ => exact .inl (hphysical ▸ .refl _)
  | retire hsub _ => exact .inl hsub

/-- A call that owned an entry still holds one of the same key, or has none left in the registry. -/
lemma Move.owner (hmove : Move system c physical call call') {admission : Admission δ}
    (hentry : call.entry?.isSome = true) (hadmission : call.admission? = some admission) :
    call'.entry?.isSome = true ∧ call'.admission? = some admission ∨
      ∀ slot ∈ physical.entries, slot.2.physicalKey ≠ admission.key := by
  cases hmove with
  | read _ _ => cases hentry
  | advance hsub hsame hpermit hentry' hpassed =>
    refine .inl ⟨hentry' ▸ hentry,?_⟩
    rcases hsame with hsame | ⟨-,hnone⟩
    · exact hsame.trans hadmission
    · rw [hnone] at hentry
      cases hentry
  | find hsub _ hnone _ _ =>
    rw [hnone] at hentry
    cases hentry
  | reserve _ _ => cases hentry
  | install _ _ _ => cases hentry
  | check _ _ => exact .inl ⟨rfl,hadmission⟩
  | retire hsub hgone =>
    cases hadmission
    exact .inr hgone

lemma Sound.move (h : Sound config system) (hcall : system.calls[c]? = some call)
    (hmove : Move system c physical call call') :
    Sound config { system with physical, calls := system.calls.set c call' } := by
  have hlt := (List.getElem?_eq_some_iff.mp hcall).1
  have hself : (system.calls.set c call')[c]? = some call' := List.getElem?_set_self hlt
  have hother : ∀ i, i ≠ c → (system.calls.set c call')[i]? = system.calls[i]? :=
    fun i hi => List.getElem?_set_ne hi.symm
  have hsound := h.calls c call hcall
  have hkept : ∀ slot ∈ system.physical.entries, slot ∈ physical.entries →
      Owned { system with physical, calls := system.calls.set c call' } slot := by
    intro slot hslot hslot'
    obtain ⟨owner,admission,howner,hentry,hadmission,hkey⟩ := h.owned slot hslot
    by_cases hc : slot.2.payload.call = c
    · rw [hc, hcall] at howner
      cases howner
      rcases hmove.owner hentry hadmission with ⟨hentry',hadmission'⟩ | hgone
      · refine ⟨call',admission,?_,hentry',hadmission',hkey⟩
        rw [hc]
        exact hself
      · exact absurd hkey.symm (hgone slot hslot')
    · exact ⟨owner,admission,(hother _ hc).trans howner,hentry,hadmission,hkey⟩
  have hcalls : ∀ (i : ℕ) (other : Call δ), (system.calls.set c call')[i]? = some other →
      CallSound { system with physical, calls := system.calls.set c call' } other := by
    intro i other hi
    by_cases hc : i = c
    · subst hc
      rw [hself] at hi
      cases hi
      exact (hsound.of_move h hmove).mono fun _ _ hgenuine => hgenuine
    · rw [hother i hc] at hi
      exact (h.calls i other hi).mono fun _ _ hgenuine => hgenuine
  rcases hmove.entries with hsub | ⟨admission,permit,entry,rfl,rfl,hkey,hpayload,hentries⟩
  · exact {
      logical := h.logical
      keyed := h.keyed.subperm hsub
      genuine := fun slot hslot => h.genuine slot (hsub.subset hslot)
      owned := fun slot hslot => hkept slot (hsub.subset hslot) hslot
      calls := hcalls }
  · have hpermit := hsound.permit admission permit rfl rfl
    have hfresh : ∀ slot ∈ physical.entries,
        slot = (permit.key.expertId,entry) ∨ slot ∈ system.physical.entries := by
      intro slot hslot
      rw [hentries] at hslot
      exact (Lru.mem_put.mp hslot).imp_right And.left
    refine {
      logical := h.logical
      keyed := ⟨hentries ▸ h.keyed.distinct.put _ _,fun slot hslot => ?_⟩
      genuine := fun slot hslot => ?_
      owned := fun slot hslot => ?_
      calls := hcalls }
    · rcases hfresh slot hslot with rfl | hslot
      · rw [hkey]
      · exact h.keyed.expert slot hslot
    · rcases hfresh slot hslot with rfl | hslot
      · rw [hkey, hpermit, hpayload]
        exact hsound.genuine admission rfl
      · exact h.genuine slot hslot
    · rcases hfresh slot hslot with rfl | hold
      · refine ⟨.recheck admission entry,admission,?_,rfl,rfl,(hkey.trans hpermit).symm⟩
        rw [hpayload]
        exact hself
      · exact hkept slot hold hslot

lemma Sound.step (h : Sound config system) {action : Action δ}
    (hstep : system.step config action = some next) : Sound config next := by
  cases action with
  | logical operation contents => exact h.logical_step hstep
  | begin expertId => exact h.begin_step hstep
  | advance c choice =>
    obtain ⟨call,hcall,hadvance⟩ := Option.bind_eq_some_iff.mp hstep
    obtain ⟨physical,call',rfl,hmove⟩ := advance_move h.keyed hcall hadvance
    exact h.move hcall hmove

end Calls

section Histories
variable {events : List (Event δ)} {c : ℕ} {call call' : Call δ}

/-- At some step of a run the call read this admission, which was current then. -/
def ReadBy (events : List (Event δ)) (c : ℕ) (admission : Admission δ) : Prop :=
  ∃ event ∈ events, ∃ (expertId : ℕ) (current : GpuCache.GpuAdmission),
    event.before.calls[c]? = some (.read expertId) ∧
    event.before.logical.cache.currentAdmission expertId = some current ∧
    admission = event.before.admission ⟨expertId,current.generation⟩ ∧
    event.after.calls[c]? = some (.lookUp admission)

/-- After the call read its admission, and while it held the entry, a check found the admission
current. -/
def CheckedBy (events : List (Event δ)) (c : ℕ) (admission : Admission δ)
    (entry : Entry (Upload δ)) : Prop :=
  ∃ later checked earlier, events = later++checked::earlier ∧
    checked.before.calls[c]? = some (.recheck admission entry) ∧
    checked.before.isCurrent admission.key = true ∧
    checked.after.calls[c]? = some (.dispatch admission entry) ∧ ReadBy earlier c admission

structure Recorded (events : List (Event δ)) (c : ℕ) (call : Call δ) : Prop where
  read : ∀ admission, call.admission? = some admission → ReadBy events c admission
  checked : ∀ admission entry, call.passed = true → call.admission? = some admission →
    call.entry? = some entry → CheckedBy events c admission entry

lemma ReadBy.cons {admission : Admission δ} (h : ReadBy events c admission) (event : Event δ) :
    ReadBy (event::events) c admission := by
  obtain ⟨read,hread,rest⟩ := h
  exact ⟨read,List.mem_cons_of_mem _ hread,rest⟩

lemma Recorded.cons (h : Recorded events c call) (event : Event δ) :
    Recorded (event::events) c call := by
  refine ⟨fun admission heq => (h.read admission heq).cons event,
    fun admission entry hpassed heq heq' => ?_⟩
  obtain ⟨later,checked,earlier,rfl,hchecked⟩ := h.checked admission entry hpassed heq heq'
  exact ⟨event::later,checked,earlier,rfl,hchecked⟩

lemma Recorded.unpassed (hread : ∀ admission, call.admission? = some admission →
    ReadBy events c admission) (hpassed : call.passed = false) : Recorded events c call := by
  refine ⟨hread,fun _ _ heq => ?_⟩
  rw [hpassed] at heq
  cases heq

lemma Recorded.of_move {physical : PhysicalRegistry.System (Upload δ)} {action : Action δ}
    (h : Recorded events c call) (hcall : system.calls[c]? = some call)
    (hnext : next.calls[c]? = some call') (hmove : Move system c physical call call') :
    Recorded (⟨system,action,next⟩::events) c call' := by
  have hcons := h.cons ⟨system,action,next⟩
  cases hmove with
  | read hphysical hcurrent =>
    refine .unpassed (fun admission heq => ?_) rfl
    cases heq
    exact ⟨_,List.mem_cons_self,_,_,hcall,hcurrent,rfl,hnext⟩
  | advance hsub hadmission hpermit hentry hpassed =>
    have hsame : ∀ admission, call'.admission? = some admission →
        call.admission? = some admission := by
      intro admission heq
      rcases hadmission with hsame | ⟨hnone,-⟩
      · exact hsame ▸ heq
      · rw [hnone] at heq
        cases heq
    refine ⟨fun admission heq => hcons.read admission (hsame admission heq),?_⟩
    intro admission entry hpassed' heq hentry'
    exact hcons.checked admission entry (hpassed ▸ hpassed') (hsame admission heq)
      (hentry ▸ hentry')
  | find hsub hadmission hentry hkey hmem =>
    refine .unpassed (fun admission heq => ?_) rfl
    cases heq
    exact hcons.read _ hadmission
  | reserve hsub hkey => exact .unpassed hcons.read rfl
  | install hkey hpayload hentries => exact .unpassed hcons.read rfl
  | check hphysical hcurrent =>
    refine ⟨hcons.read,fun admission entry _ heq hentry => ?_⟩
    cases heq
    cases hentry
    exact ⟨[],_,events,rfl,hcall,hcurrent,hnext,h.read _ rfl⟩
  | retire hsub hgone => exact .unpassed hcons.read rfl

/-- The invariant and the history of every call, along a run. -/
lemma Run.recorded {start : Backend δ} (hrun : Run config start events system)
    (hstart : Sound config start) (hnone : start.calls = []) :
    Sound config system ∧
      ∀ (c : ℕ) (call : Call δ), system.calls[c]? = some call → Recorded events c call := by
  induction hrun with
  | nil =>
    refine ⟨hstart,fun c call hcall => ?_⟩
    rw [hnone] at hcall
    cases hcall
  | @step events system next earlier action hstep ih =>
    obtain ⟨hsound,hrecorded⟩ := ih
    refine ⟨hsound.step hstep,fun i other hi => ?_⟩
    cases action with
    | logical operation contents =>
      rw [Backend.step] at hstep
      split at hstep
      · cases hstep
      · cases hstep
        exact (hrecorded i other hi).cons _
    | begin expertId =>
      cases hstep
      have hi : (system.calls++[Call.read expertId])[i]? = some other := hi
      rw [List.getElem?_append] at hi
      split_ifs at hi with hlt
      · exact (hrecorded i other hi).cons _
      · have hi := List.mem_singleton.mp (List.mem_of_getElem? hi)
        subst hi
        refine .unpassed (fun admission heq => ?_) rfl
        cases heq
    | advance c choice =>
      obtain ⟨call,hcall,hadvance⟩ := Option.bind_eq_some_iff.mp hstep
      obtain ⟨physical,call',rfl,hmove⟩ := advance_move hsound.keyed hcall hadvance
      have hlt := (List.getElem?_eq_some_iff.mp hcall).1
      have hself : (system.calls.set c call')[c]? = some call' := List.getElem?_set_self hlt
      by_cases hc : i = c
      · subst hc
        have hi : (system.calls.set i call')[i]? = some other := hi
        rw [hself] at hi
        cases hi
        exact (hrecorded i call hcall).of_move hcall hself hmove
      · have hi : (system.calls.set c call')[i]? = some other := hi
        rw [List.getElem?_set_ne (Ne.symm hc)] at hi
        exact (hrecorded i other hi).cons _

end Histories

section Guarantees
variable {capacity : ℕ} {payloads : PhysicalExpertKey → δ} {events : List (Event δ)}

/-- The actions of a run, as long as each is possible. -/
def Backend.play (config : Config) (start : Backend δ) (actions : List (Action δ)) :
    Option (Backend δ) :=
  actions.foldlM (Backend.step config) start

lemma Run.of_play {start middle last : Backend δ} (hrun : Run config start events middle)
    {actions : List (Action δ)} (hplay : middle.play config actions = some last) :
    ∃ events, Run config start events last := by
  induction actions generalizing middle events with
  | nil =>
    cases hplay
    exact ⟨events,hrun⟩
  | cons action actions ih =>
    rw [Backend.play, List.foldlM_cons] at hplay
    obtain ⟨next,hstep,hplay⟩ := Option.bind_eq_some_iff.mp hplay
    exact ih (hrun.step action hstep) hplay

lemma race_capacity : 10 ≤ usizeMax := Nat.le_of_ble_eq_true rfl

lemma race_anchorCapacity : 0 ≤ usizeMax := Nat.zero_le _

/-- The logical cache of the race below holds one expert. -/
def raceConfig : Config := .new 10 0 3 race_capacity race_anchorCapacity

def racedAdmission : Admission ℕ := ⟨⟨1,1⟩,7⟩

def racedEntry : Entry (Upload ℕ) := ⟨⟨1,1⟩,4,0,⟨0,7⟩⟩

/-- One call uploads the weights of an admission and is about to dispatch them; another one reads
the same admission, which is then evicted, and finds that out at its last check. -/
def race : List (Action ℕ) :=
  let go (call : ℕ) : Action ℕ := .advance call ⟨false,some 4,true,[]⟩
  [.logical (.demandAdmitLru (GpuCache.smallResident 1)) fun _ => 7,.begin 1,.begin 1,
    go 0,go 0,go 0,go 0,go 0,go 0,go 0,go 0,go 0,go 1,go 1,
    .logical (.demandAdmitLru (GpuCache.smallResident 2)) fun _ => 8,go 1]

end Guarantees

end MicroExpertRouter.Routing
