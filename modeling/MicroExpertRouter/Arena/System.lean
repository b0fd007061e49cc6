import MicroExpertRouter.Arena.Uploads

/-! The expert arena under any number of requesters. A requester holds at most one permit; its
reservation check, its physical write, its commit and its drop are separate steps, and other
requesters act in between. The system also keeps what has happened: the reservations made, the
payloads written to slots and the keys published, newest first. -/
namespace MicroExpertRouter.Arena

/-- Where a permit is. The write of a staging permit happens outside the arena lock; a dropping
permit has failed and still has to be cancelled. -/
inductive Phase
  | reserved
  | staging (payload : List UInt8) (entry : MappingEntry)
  | prepared (entry : MappingEntry)
  | dropping

structure Requester where
  permit : InstallPermit
  phase : Phase

structure System (ρ : Type) where
  arena : ExpertArena
  memory : ExpertLocation → List UInt8
  pool : ρ → Option Requester
  reservations : List ExpertResidency
  staged : List (ExpertResidency × List UInt8)
  published : List ExpertKey

inductive Action (ρ : Type)
  | acquire (r : ρ) (key : ExpertKey)
  | stage (r : ρ) (payload : List UInt8)
  | write (r : ρ) (result : Except BootstrapError Unit)
  | commit (r : ρ)
  | install (r : ρ) (payload : List UInt8) (write : Except BootstrapError Unit)
  | drop (r : ρ)
  | retire (key : ExpertKey)

namespace System
variable {ρ : Type} [DecidableEq ρ]

/-- The arena changes and one requester moves on. -/
def enter (self : System ρ) (arena : ExpertArena) (r : ρ) (requester : Option Requester) :
    System ρ :=
  { self with arena := arena, pool := Function.update self.pool r requester }

/-- The whole-slot physical write. -/
def written (self : System ρ) (residency : ExpertResidency) (payload : List UInt8) : System ρ :=
  { self with
    memory := Function.update self.memory residency.location
      (slotBytes self.arena.geometry residency.slotEpoch payload)
    staged := (residency,payload)::self.staged }

def reserved (self : System ρ) (residency : ExpertResidency) : System ρ :=
  { self with reservations := residency::self.reservations }

def recordPublication (self : System ρ) (key : ExpertKey) : System ρ :=
  { self with published := key::self.published }

def stepAcquire (self : System ρ) (r : ρ) (key : ExpertKey) : Option (System ρ) :=
  match self.pool r with
  | some _ => none
  | none =>
    match self.arena.acquire key with
    | (arena,.ok (.install permit)) =>
      some ((self.enter arena r (some ⟨permit,.reserved⟩)).reserved permit.residency)
    | (arena,_) => some { self with arena := arena }

def stepStage (self : System ρ) (r : ρ) (payload : List UInt8) : Option (System ρ) :=
  match self.pool r with
  | some ⟨permit,.reserved⟩ =>
    match self.arena.stageCheck permit payload with
    | (arena,.ok entry) => some (self.enter arena r (some ⟨permit,.staging payload entry⟩))
    | (arena,.error _) => some (self.enter arena r (some ⟨permit,.dropping⟩))
  | _ => none

def stepWrite (self : System ρ) (r : ρ) (result : Except BootstrapError Unit) :
    Option (System ρ) :=
  match self.pool r with
  | some ⟨permit,.staging payload entry⟩ =>
    match result with
    | .ok _ => some ((self.written permit.residency payload).enter self.arena r
        (some ⟨permit,.prepared entry⟩))
    | .error _ => some (self.enter self.arena r (some ⟨permit,.dropping⟩))
  | _ => none

def stepCommit (self : System ρ) (r : ρ) : Option (System ρ) :=
  match self.pool r with
  | some ⟨permit,.prepared entry⟩ =>
    match self.arena.commit permit entry with
    | (arena,.ok _) => some ((self.enter arena r none).recordPublication permit.key)
    | (arena,.error _) => some (self.enter arena r (some ⟨permit,.dropping⟩))
  | _ => none

/-- `install_with_writes`: the payload is checked first, then everything happens under the lock. -/
def stepInstall (self : System ρ) (r : ρ) (payload : List UInt8)
    (write : Except BootstrapError Unit) : Option (System ρ) :=
  match self.pool r with
  | some ⟨permit,.reserved⟩ =>
    match ExpertArena.checkSlot self.arena.geometry permit.key.expertId permit.residency.slotEpoch
        payload with
    | .error _ => some (self.enter self.arena r (some ⟨permit,.dropping⟩))
    | .ok _ =>
      match self.arena.install permit write with
      | (arena,_,.ok _) => some (((self.written permit.residency payload).enter arena r
          none).recordPublication permit.key)
      | (arena,.dropped,.error _) => some (self.enter arena r (some ⟨permit,.dropping⟩))
      | (arena,.consumed,.error _) => some (self.enter arena r none)
  | _ => none

def stepDrop (self : System ρ) (r : ρ) : Option (System ρ) :=
  match self.pool r with
  | some requester => some (self.enter
      (self.arena.cancelInstall requester.permit.flatSlot requester.permit.installTicket) r none)
  | none => none

/-- One step; `none` when the requester is not in the right phase. -/
def step (self : System ρ) : Action ρ → Option (System ρ)
  | .acquire r key => self.stepAcquire r key
  | .stage r payload => self.stepStage r payload
  | .write r result => self.stepWrite r result
  | .commit r => self.stepCommit r
  | .install r payload write => self.stepInstall r payload write
  | .drop r => self.stepDrop r
  | .retire key => some { self with arena := (self.arena.retire key).1 }

/-- The system after some steps. -/
def run (self : System ρ) : List (Action ρ) → Option (System ρ)
  | [] => some self
  | action::actions => do (← self.step action).run actions

/-- The system that accepted uploads start, over any earlier contents of the banks. -/
def initial (ρ : Type) (layerIndex : ℕ) (geometry : ExpertGeometry)
    (memory : ExpertLocation → List UInt8) (uploads : List Upload) (prepared : PreparedUploads) :
    System ρ where
  arena := ⟨layerIndex,geometry,prepared.state,prepared.mapping⟩
  memory := prepared.physicalSlots.foldl (fun memory slot => Function.update memory slot.1 slot.2)
    memory
  pool := fun _ => none
  reservations := uploads.map (Upload.residency · layerIndex)
  staged := uploads.map (fun upload => (upload.residency layerIndex,upload.payload))
  published := uploads.map (fun upload => (upload.residency layerIndex).key)

end System

/-- What a permit in use says about its slot. Another installation of the slot has another
ticket. -/
structure PermitOk (arena : ExpertArena) (permit : InstallPermit) : Prop where
  key : permit.residency.key = permit.key
  location : permit.residency.location = (arena.state.slots permit.flatSlot).location
  capacity : permit.flatSlot<arena.state.slotCapacity
  epoch : permit.residency.slotEpoch ≤ (arena.state.slots permit.flatSlot).lastEpoch
  ticket : permit.installTicket<arena.state.nextInstallTicket
  owner : ∀ key slotEpoch, arena.state.owner permit.flatSlot =
    .installing key slotEpoch permit.installTicket →
      key = permit.key ∧ slotEpoch = permit.residency.slotEpoch

/-- A change that frees a slot or makes it resident keeps permits. -/
lemma PermitOk.frame {a b : ExpertArena} {permit : InstallPermit} {flat e : ℕ}
    (h : PermitOk a permit) (hframe : Frame a b flat e)
    (hepoch : (b.state.slots flat).lastEpoch = (a.state.slots flat).lastEpoch)
    (hticket : b.state.nextInstallTicket = a.state.nextInstallTicket)
    (howner : ∀ key slotEpoch ticket, b.state.owner flat ≠ .installing key slotEpoch ticket) :
    PermitOk b permit := by
  have hepochs : (b.state.slots permit.flatSlot).lastEpoch =
      (a.state.slots permit.flatSlot).lastEpoch := by
    by_cases hs : permit.flatSlot = flat
    · rw [hs, hepoch]
    · rw [hframe.slots _ hs]
  refine ⟨h.key,?_,?_,?_,?_,fun key slotEpoch hinstalling => ?_⟩
  · rw [hframe.locations]
    exact h.location
  · rw [hframe.capacity]
    exact h.capacity
  · rw [hepochs]
    exact h.epoch
  · rw [hticket]
    exact h.ticket
  · by_cases hs : permit.flatSlot = flat
    · rw [hs] at hinstalling
      exact absurd hinstalling (howner _ _ _)
    · rw [hframe.owner hs] at hinstalling
      exact h.owner key slotEpoch hinstalling

lemma PermitOk.occupy {a : ExpertArena} {permit : InstallPermit} (h : PermitOk a permit)
    (flat : ℕ) (key : ExpertKey) : PermitOk (a.occupy flat key) permit := by
  have hframe := a.occupy_frame flat key
  refine ⟨h.key,?_,h.capacity,?_,Nat.lt_succ_of_lt h.ticket,fun other slotEpoch hinstalling => ?_⟩
  · rw [hframe.locations]
    exact h.location
  · by_cases hs : permit.flatSlot = flat
    · subst hs
      rw [a.slots_occupy]
      exact Nat.le_succ_of_le h.epoch
    · rw [hframe.slots _ hs]
      exact h.epoch
  · by_cases hs : permit.flatSlot = flat
    · subst hs
      rw [ArenaState.owner, a.slots_occupy] at hinstalling
      have hticket := (SlotOwner.installing.inj hinstalling).2.2
      have hlt := h.ticket
      omega
    · rw [hframe.owner hs] at hinstalling
      exact h.owner other slotEpoch hinstalling

lemma PermitOk.released {a b : ExpertArena} {permit : InstallPermit} (h : PermitOk a permit)
    (hrelease : Release a b) : PermitOk b permit := by
  cases hrelease with
  | reject => exact ⟨h.key,h.location,h.capacity,h.epoch,h.ticket,h.owner⟩
  | @retire flat residency owner =>
    have hslot := a.slots_release flat residency.key.expertId
    refine h.frame (a.retireSlot_frame flat _) ?_ rfl fun key slotEpoch ticket hne => ?_
    · exact (congrArg PhysicalSlot.lastEpoch hslot :)
    · exact absurd ((congrArg PhysicalSlot.owner hslot).symm.trans hne) nofun
  | @cancel flat slotEpoch ticket key owner =>
    have hslot := a.slots_release flat key.expertId
    refine h.frame (a.cancelSlot_frame flat _) ?_ rfl fun key slotEpoch ticket hne => ?_
    · exact (congrArg PhysicalSlot.lastEpoch hslot :)
    · exact absurd ((congrArg PhysicalSlot.owner hslot).symm.trans hne) nofun
  | raise => exact ⟨h.key,h.location,h.capacity,h.epoch,h.ticket,h.owner⟩

theorem PermitOk.move {a b : ExpertArena} {permit : InstallPermit} (h : PermitOk a permit)
    (hmove : Move a b) : PermitOk b permit := by
  cases hmove with
  | release release => exact h.released release
  | @occupy flat key guard => exact h.occupy flat key
  | @publish other entry guard =>
    have hslot := a.slots_publish other entry
    refine h.frame (a.publish_frame other entry) ?_ rfl fun key slotEpoch ticket hne => ?_
    · exact (congrArg PhysicalSlot.lastEpoch hslot :)
    · exact absurd ((congrArg PhysicalSlot.owner hslot).symm.trans hne) nofun

theorem PermitOk.moves {a b : ExpertArena} {permit : InstallPermit} (h : PermitOk a permit)
    (hmoves : Moves a b) : PermitOk b permit := by
  induction hmoves with
  | refl => exact h
  | tail _ hmove ih => exact ih.move hmove

lemma permitFor_ok {arena : ExpertArena} {flat : ℕ} {key : ExpertKey}
    (hguard : Reservable arena flat key) :
    PermitOk (arena.occupy flat key) (arena.permitFor flat key) := by
  refine ⟨rfl,?_,hguard.capacity,?_,Nat.lt_succ_self _,fun other slotEpoch hinstalling => ?_⟩
  · exact ((arena.occupy_frame flat key).location).symm
  · change (arena.state.slots flat).lastEpoch+1 ≤ ((arena.occupy flat key).state.slots flat).lastEpoch
    rw [arena.slots_occupy]
  · change (arena.occupy flat key).state.owner flat = _ at hinstalling
    rw [ArenaState.owner, arena.slots_occupy] at hinstalling
    obtain ⟨hkey,hepoch,-⟩ := SlotOwner.installing.inj hinstalling
    exact ⟨hkey.symm,hepoch.symm⟩

/-- What a phase has already checked. -/
def Phase.Ok (geometry : ExpertGeometry) (residency : ExpertResidency) : Phase → Prop
  | .staging payload entry =>
    residency.mappingEntry = .ok entry ∧ geometry.logicalExpertBytes ≤ payload.length
  | .prepared entry => residency.mappingEntry = .ok entry
  | _ => True

/-- Everything a step can do to a system. -/
inductive Effect {ρ : Type} [DecidableEq ρ] (s : System ρ) : System ρ → Prop
  | arena {arena : ExpertArena} (moves : Releases s.arena arena) : Effect s { s with arena := arena }
  | reserve {r : ρ} {b : ExpertArena} {flat : ℕ} {key : ExpertKey} (idle : s.pool r = none)
      (moves : Releases s.arena b) (guard : Reservable b flat key) :
      Effect s ((s.enter (b.occupy flat key) r (some ⟨b.permitFor flat key,.reserved⟩)).reserved
        (b.permitFor flat key).residency)
  | check {r : ρ} {permit : InstallPermit} {payload : List UInt8} {entry : MappingEntry}
      (holds : s.pool r = some ⟨permit,.reserved⟩)
      (entry_ok : permit.residency.mappingEntry = .ok entry)
      (payload_ok : s.arena.geometry.logicalExpertBytes ≤ payload.length) :
      Effect s (s.enter s.arena r (some ⟨permit,.staging payload entry⟩))
  | write {r : ρ} {permit : InstallPermit} {payload : List UInt8} {entry : MappingEntry}
      (holds : s.pool r = some ⟨permit,.staging payload entry⟩) :
      Effect s ((s.written permit.residency payload).enter s.arena r
        (some ⟨permit,.prepared entry⟩))
  | publish {r : ρ} {permit : InstallPermit} {entry : MappingEntry}
      (holds : s.pool r = some ⟨permit,.prepared entry⟩)
      (current : permit.reservationCurrent s.arena.state) :
      Effect s ((s.enter (s.arena.publish permit entry) r none).recordPublication permit.key)
  | install {r : ρ} {permit : InstallPermit} {payload : List UInt8} {entry : MappingEntry}
      (holds : s.pool r = some ⟨permit,.reserved⟩)
      (entry_ok : permit.residency.mappingEntry = .ok entry)
      (payload_ok : s.arena.geometry.logicalExpertBytes ≤ payload.length)
      (current : permit.reservationCurrent s.arena.state) :
      Effect s (((s.written permit.residency payload).enter (s.arena.publish permit entry) r
        none).recordPublication permit.key)
  | fail {r : ρ} {requester : Requester} {arena : ExpertArena} {next : Option Requester}
      (holds : s.pool r = some requester) (moves : Releases s.arena arena)
      (gone : next = none ∨ next = some ⟨requester.permit,.dropping⟩) :
      Effect s (s.enter arena r next)

namespace System
variable {ρ : Type} [DecidableEq ρ] {s s' : System ρ}

lemma stepAcquire_effect (h : Tables s.arena) {r : ρ} {key : ExpertKey}
    (hstep : s.stepAcquire r key = some s') : Effect s s' := by
  unfold stepAcquire at hstep
  cases hpool : s.pool r with
  | some requester =>
    rw [hpool] at hstep
    cases hstep
  | none =>
    rw [hpool] at hstep
    dsimp only at hstep
    obtain ⟨b,hmoves,⟨hb,hresult⟩ | ⟨flat,hguard,houtcome⟩⟩ := ExpertArena.acquire_moves h key
    · split at hstep
      · rename_i arena permit hacquire
        rw [hacquire] at hresult
        exact absurd rfl (hresult permit)
      · rename_i arena result _ hacquire
        rw [hacquire] at hb
        cases hb
        obtain rfl := Option.some.inj hstep
        exact .arena hmoves
    · rw [houtcome] at hstep
      obtain rfl := Option.some.inj hstep
      exact .reserve hpool hmoves hguard

lemma stepStage_effect {r : ρ} {payload : List UInt8} (hstep : s.stepStage r payload = some s') :
    Effect s s' := by
  unfold stepStage at hstep
  split at hstep
  · rename_i permit hpool
    unfold ExpertArena.stageCheck at hstep
    cases hslot : ExpertArena.checkSlot s.arena.geometry permit.key.expertId
        permit.residency.slotEpoch payload with
    | error e =>
      rw [hslot] at hstep
      obtain rfl := Option.some.inj hstep
      exact .fail hpool .refl (.inr rfl)
    | ok _ =>
      cases hentry : permit.residency.mappingEntry with
      | error e =>
        rw [hslot, hentry] at hstep
        obtain rfl := Option.some.inj hstep
        exact .fail hpool .refl (.inr rfl)
      | ok entry =>
        rw [hslot, hentry] at hstep
        dsimp only at hstep
        by_cases hcurrent : permit.reservationCurrent s.arena.state
        · rw [if_pos hcurrent] at hstep
          obtain rfl := Option.some.inj hstep
          exact .check hpool hentry (checkSlot_payload hslot)
        · rw [if_neg hcurrent] at hstep
          obtain rfl := Option.some.inj hstep
          exact .fail hpool (.single (.reject _)) (.inr rfl)
  · cases hstep

lemma stepWrite_effect {r : ρ} {result : Except BootstrapError Unit}
    (hstep : s.stepWrite r result = some s') : Effect s s' := by
  unfold stepWrite at hstep
  split at hstep
  · rename_i permit payload entry hpool
    cases result with
    | ok _ =>
      obtain rfl := Option.some.inj hstep
      exact .write hpool
    | error e =>
      obtain rfl := Option.some.inj hstep
      exact .fail hpool .refl (.inr rfl)
  · cases hstep

lemma stepCommit_effect {r : ρ} (hstep : s.stepCommit r = some s') : Effect s s' := by
  unfold stepCommit at hstep
  split at hstep
  · rename_i permit entry hpool
    unfold ExpertArena.commit at hstep
    by_cases hcurrent : permit.reservationCurrent s.arena.state
    · rw [if_pos hcurrent] at hstep
      obtain rfl := Option.some.inj hstep
      exact .publish hpool hcurrent
    · rw [if_neg hcurrent] at hstep
      obtain rfl := Option.some.inj hstep
      exact .fail hpool (.single (.reject _)) (.inr rfl)
  · cases hstep

lemma stepInstall_effect {r : ρ} {payload : List UInt8} {write : Except BootstrapError Unit}
    (hstep : s.stepInstall r payload write = some s') : Effect s s' := by
  unfold stepInstall at hstep
  split at hstep
  · rename_i permit hpool
    unfold ExpertArena.install at hstep
    cases hslot : ExpertArena.checkSlot s.arena.geometry permit.key.expertId
        permit.residency.slotEpoch payload with
    | error e =>
      rw [hslot] at hstep
      obtain rfl := Option.some.inj hstep
      exact .fail hpool .refl (.inr rfl)
    | ok _ =>
      cases hentry : permit.residency.mappingEntry with
      | error e =>
        rw [hslot, hentry] at hstep
        obtain rfl := Option.some.inj hstep
        exact .fail hpool .refl (.inr rfl)
      | ok entry =>
        rw [hslot, hentry] at hstep
        dsimp only at hstep
        by_cases hcurrent : permit.reservationCurrent s.arena.state
        · rw [if_pos hcurrent] at hstep
          cases write with
          | ok _ =>
            obtain rfl := Option.some.inj hstep
            exact .install hpool hentry (checkSlot_payload hslot) hcurrent
          | error e =>
            obtain rfl := Option.some.inj hstep
            exact .fail hpool .refl (.inr rfl)
        · rw [if_neg hcurrent] at hstep
          obtain rfl := Option.some.inj hstep
          exact .fail hpool (.single (.reject _)) (.inl rfl)
  · cases hstep

lemma stepDrop_effect (h : Tables s.arena) {r : ρ} (hstep : s.stepDrop r = some s') :
    Effect s s' := by
  unfold stepDrop at hstep
  split at hstep
  · rename_i requester hpool
    obtain rfl := Option.some.inj hstep
    exact .fail hpool (ExpertArena.cancelInstall_moves h _ _) (.inl rfl)
  · cases hstep

theorem step_effect (h : Tables s.arena) {action : Action ρ} (hstep : s.step action = some s') :
    Effect s s' := by
  cases action with
  | acquire r key => exact stepAcquire_effect h hstep
  | stage r payload => exact stepStage_effect hstep
  | write r result => exact stepWrite_effect hstep
  | commit r => exact stepCommit_effect hstep
  | install r payload write => exact stepInstall_effect hstep
  | drop r => exact stepDrop_effect h hstep
  | retire key =>
    obtain rfl := Option.some.inj hstep
    exact .arena (ExpertArena.retire_moves s.arena key)

end System

lemma Move.geometry {a b : ExpertArena} (hmove : Move a b) : b.geometry = a.geometry := by
  cases hmove with
  | release release => cases release <;> rfl
  | occupy guard => rfl
  | publish guard => rfl

lemma Moves.geometry {a b : ExpertArena} (hmoves : Moves a b) : b.geometry = a.geometry := by
  induction hmoves with
  | refl => rfl
  | tail _ hmove ih => exact hmove.geometry.trans ih

/-- The invariant of a system. -/
structure SystemOk {ρ : Type} (s : System ρ) : Prop where
  tables : Tables s.arena
  counted : s.arena.state.Counted
  permits : ∀ r requester, s.pool r = some requester → PermitOk s.arena requester.permit
  phases : ∀ r requester, s.pool r = some requester →
    requester.phase.Ok s.arena.geometry requester.permit.residency

namespace SystemOk
variable {ρ : Type} {s s' : System ρ}

theorem initial {layerIndex : ℕ} {geometry : ExpertGeometry} {layout : ArenaLayout}
    {memory : ExpertLocation → List UInt8} {uploads : List Upload} {prepared : PreparedUploads}
    (hlayout : layout.WellFormed)
    (h : validateUploads layerIndex geometry layout uploads = .ok prepared) :
    SystemOk (System.initial ρ layerIndex geometry memory uploads prepared) := by
  obtain ⟨⟨used,hloaded⟩,hcounted⟩ := validateUploads_loaded hlayout h
  exact ⟨hloaded.tables,hcounted,nofun,nofun⟩

lemma publishable (h : SystemOk s) {r : ρ} {requester : Requester} {entry : MappingEntry}
    (hpool : s.pool r = some requester)
    (hentry : requester.permit.residency.mappingEntry = .ok entry)
    (hcurrent : requester.permit.reservationCurrent s.arena.state) :
    Publishable s.arena requester.permit entry :=
  ⟨hcurrent,hentry,(h.permits r requester hpool).key,(h.permits r requester hpool).location⟩

/-- The histories and the memory take no part. -/
lemma of_arena_pool (h : SystemOk s) (harena : s'.arena = s.arena) (hpool : s'.pool = s.pool) :
    SystemOk s' := by
  refine ⟨?_,?_,?_,?_⟩
  · rw [harena]
    exact h.tables
  · rw [harena]
    exact h.counted
  · rw [harena, hpool]
    exact h.permits
  · rw [harena, hpool]
    exact h.phases

variable [DecidableEq ρ]

/-- The arena moves and one requester changes: only the new requester has to be checked. -/
lemma enter (h : SystemOk s) {arena : ExpertArena} (hmoves : Moves s.arena arena) (r : ρ)
    (next : Option Requester) (hnext : ∀ requester, next = some requester →
      PermitOk arena requester.permit ∧
        requester.phase.Ok arena.geometry requester.permit.residency) :
    SystemOk (s.enter arena r next) := by
  refine ⟨h.tables.moves hmoves,Counted.moves h.tables h.counted hmoves,
    fun x requester hpool => ?_,fun x requester hpool => ?_⟩
  · change Function.update s.pool r next x = some requester at hpool
    rw [Function.update_apply] at hpool
    split_ifs at hpool with hx
    · exact (hnext requester hpool).1
    · exact (h.permits x requester hpool).moves hmoves
  · change Function.update s.pool r next x = some requester at hpool
    rw [Function.update_apply] at hpool
    split_ifs at hpool with hx
    · exact (hnext requester hpool).2
    · change requester.phase.Ok arena.geometry _
      rw [hmoves.geometry]
      exact h.phases x requester hpool

theorem effect (h : SystemOk s) (heffect : Effect s s') : SystemOk s' := by
  cases heffect with
  | arena moves =>
    refine ⟨h.tables.moves moves.moves,Counted.moves h.tables h.counted moves.moves,
      fun x requester hpool => (h.permits x requester hpool).moves moves.moves,
      fun x requester hpool => ?_⟩
    dsimp only
    rw [moves.moves.geometry]
    exact h.phases x requester hpool
  | @reserve r b flat key idle moves guard =>
    refine (h.enter (moves.moves.tail (.occupy guard)) r
      (some ⟨b.permitFor flat key,.reserved⟩) ?_).of_arena_pool rfl rfl
    rintro _ ⟨⟩
    exact ⟨permitFor_ok guard,trivial⟩
  | @check r permit payload entry holds entry_ok payload_ok =>
    have hpermit := h.permits r _ holds
    refine h.enter .refl r _ ?_
    rintro _ ⟨⟩
    exact ⟨hpermit,entry_ok,payload_ok⟩
  | @write r permit payload entry holds =>
    have hpermit := h.permits r _ holds
    have hphase := h.phases r _ holds
    refine (h.enter .refl r (some ⟨permit,.prepared entry⟩) ?_).of_arena_pool rfl rfl
    rintro _ ⟨⟩
    exact ⟨hpermit,hphase.1⟩
  | @publish r permit entry holds current =>
    have hguard := h.publishable holds (h.phases _ _ holds) current
    exact (h.enter (.single (.publish hguard)) r none nofun).of_arena_pool rfl rfl
  | @install r permit payload entry holds entry_ok payload_ok current =>
    have hguard := h.publishable holds entry_ok current
    exact (h.enter (.single (.publish hguard)) r none nofun).of_arena_pool rfl rfl
  | @fail r requester arena next holds moves gone =>
    have hpermit := (h.permits r _ holds).moves moves.moves
    refine h.enter moves.moves r next ?_
    rintro _ rfl
    rcases gone with gone | gone
    · cases gone
    · cases gone
      exact ⟨hpermit,trivial⟩

theorem step (h : SystemOk s) {action : Action ρ} (hstep : s.step action = some s') : SystemOk s' :=
  h.effect (System.step_effect h.tables hstep)

theorem run (h : SystemOk s) {actions : List (Action ρ)} (hrun : s.run actions = some s') :
    SystemOk s' := by
  induction actions generalizing s with
  | nil =>
    obtain rfl := Option.some.inj hrun
    exact h
  | cons action actions ih =>
    obtain ⟨next,hnext,hrun⟩ := Option.bind_eq_some_iff.mp hrun
    exact ih (h.step hnext) hrun

end SystemOk

/-- The tables of an arena in the words of its interface. -/
structure TablesAgree (arena : ExpertArena) : Prop where
  /-- An expert's logical slot is the slot that installs it or holds it. -/
  logical : ∀ e s, arena.state.logicalSlots e = some s ↔
    ∃ key, (arena.state.owner s).key? = some key ∧ key.expertId = e
  /-- An owner has the latest generation of its expert and the last epoch of its slot. -/
  owner : ∀ s key, (arena.state.owner s).key? = some key →
    arena.state.latestGenerations key.expertId = some key.logicalGeneration ∧
      (arena.state.owner s).epoch? = some (arena.state.slots s).lastEpoch
  /-- The mapping entry of an expert names the slot it is resident in, and no other. -/
  mapping : ∀ s, s<arena.state.slotCapacity → ∃ packed,
    (arena.state.slots s).location.pack = .ok packed ∧
      ∀ e, arena.mapping e = ⟨packed,(arena.state.slots s).lastEpoch⟩ ↔
        ∃ residency, arena.state.owner s = .resident residency ∧ residency.key.expertId = e
  /-- An expert resident nowhere is unmapped. -/
  unmapped : ∀ e, arena.mapping e = .unmapped ↔
    ∀ s residency, arena.state.owner s = .resident residency → residency.key.expertId ≠ e
  /-- Publications not undone are the resident slots. -/
  counted : arena.state.counters.expertMappingPublications<u64Max →
    arena.state.counters.expertMappingPublications =
      arena.state.counters.expertMappingUnpublications+arena.state.residentSlots.card

lemma SlotOwner.epoch?_of_key? {owner : SlotOwner} {key : ExpertKey} (h : owner.key? = some key) :
    ∃ epoch, owner.epoch? = some epoch := by
  cases owner with
  | free => cases h
  | installing key slotEpoch ticket => exact ⟨slotEpoch,rfl⟩
  | resident residency => exact ⟨residency.slotEpoch,rfl⟩

/-- The entry of a resident expert is the packed location and the epoch of its slot. -/
lemma Tables.mapping_of_resident {arena : ExpertArena} (h : Tables arena) {s packed : ℕ}
    {residency : ExpertResidency} (howner : arena.state.owner s = .resident residency)
    (hpack : (arena.state.slots s).location.pack = .ok packed) :
    arena.mapping residency.key.expertId = ⟨packed,(arena.state.slots s).lastEpoch⟩ := by
  obtain ⟨hlocation,hepoch,-⟩ := ExpertResidency.mappingEntry_eq_ok (h.mapped s residency howner)
  have hlast := (h.slot s).epoch residency.slotEpoch (by
    change (arena.state.owner s).epoch? = _
    rw [howner]
    rfl)
  rw [(h.slot s).location residency howner, hpack] at hlocation
  cases hentry : arena.mapping residency.key.expertId with
  | mk location slotEpoch =>
    rw [hentry] at hlocation hepoch
    rw [MappingEntry.mk.injEq]
    exact ⟨(Except.ok.inj hlocation).symm,hepoch.trans hlast⟩

/-- A published entry belongs to a resident of the slot it names. -/
lemma Tables.resident_of_mapping {arena : ExpertArena} (h : Tables arena) {e s packed epoch : ℕ}
    (hs : s<arena.state.slotCapacity) (hpack : (arena.state.slots s).location.pack = .ok packed)
    (hmapping : arena.mapping e = ⟨packed,epoch⟩) :
    ∃ residency, arena.state.owner s = .resident residency ∧ residency.key.expertId = e := by
  by_contra hnone
  have hmapped : arena.mapping e ≠ .unmapped := by
    rw [hmapping]
    intro heq
    exact ExpertLocation.pack_ne_unmapped hpack (congrArg MappingEntry.location heq)
  refine hmapped (h.unmapped e fun t residency howner hkey => hnone ?_)
  have ht := h.capacity t residency.key (by rw [howner]; rfl)
  obtain ⟨other,hother⟩ := h.packs t ht
  have hentry := h.mapping_of_resident howner hother
  rw [hkey, hmapping] at hentry
  have hsame : s = t := by
    refine h.distinct s t hs ht (ExpertLocation.pack_injective hpack ?_)
    rw [(MappingEntry.mk.inj hentry).1]
    exact hother
  exact ⟨residency,hsame ▸ howner,hkey⟩

theorem SystemOk.tablesAgree {ρ : Type} {s : System ρ} (h : SystemOk s) : TablesAgree s.arena := by
  have htables := h.tables
  refine ⟨htables.logical,fun t key hkey => ⟨(htables.slot t).latest key hkey,?_⟩,fun t ht => ?_,
    fun e => ⟨fun hunmapped t residency howner hkey => ?_,htables.unmapped e⟩,h.counted⟩
  · obtain ⟨epoch,hepoch⟩ := SlotOwner.epoch?_of_key? hkey
    rw [hepoch, (htables.slot t).epoch epoch hepoch]
  · obtain ⟨packed,hpack⟩ := htables.packs t ht
    refine ⟨packed,hpack,fun e => ⟨htables.resident_of_mapping ht hpack,?_⟩⟩
    rintro ⟨residency,howner,rfl⟩
    exact htables.mapping_of_resident howner hpack
  · subst hkey
    exact ExpertResidency.mappingEntry_ne_unmapped (htables.mapped t residency howner) hunmapped

/-- From any accepted uploads and under any interleaving of any number of requesters, the slot,
logical, generation and mapping tables and the publication counters agree. -/
theorem run_tablesAgree {ρ : Type} [DecidableEq ρ] {layerIndex slotCapacity : ℕ}
    {geometry : ExpertGeometry} {limits : DeviceLimits} {layout : ArenaLayout}
    {memory : ExpertLocation → List UInt8} {uploads : List Upload} {prepared : PreparedUploads}
    {actions : List (Action ρ)} {s : System ρ}
    (hlayout : ArenaLayout.tryNew geometry slotCapacity limits = .ok layout)
    (huploads : validateUploads layerIndex geometry layout uploads = .ok prepared)
    (hrun : (System.initial ρ layerIndex geometry memory uploads prepared).run actions = some s) :
    TablesAgree s.arena :=
  ((SystemOk.initial (ArenaLayout.tryNew_wellFormed hlayout).1 huploads).run hrun).tablesAgree

/-- Two experts over one slot. -/
def smallGeometry : ExpertGeometry := ⟨32,32,2,1,4,8,by decide⟩

def smallUpload : Upload := ⟨0,7,⟨0,0⟩,[1,2,3,4]⟩

/-- Expert 1 takes the slot of expert 0; the first install of expert 1 is superseded while its
write is under way. -/
def supersededRun : List (Action ℕ) :=
  [.retire ⟨0,0,7⟩,.acquire 0 ⟨0,1,1⟩,.stage 0 [5,5,5,5],.acquire 1 ⟨0,1,2⟩,.stage 1 [6,6,6,6],
    .write 1 (.ok ()),.write 0 (.ok ()),.commit 1,.commit 0,.drop 0]

theorem run_tablesAgree_superseded :
    ∃ layout prepared s, ArenaLayout.tryNew smallGeometry 1 ⟨64,64⟩ = .ok layout ∧
      validateUploads 0 smallGeometry layout [smallUpload] = .ok prepared ∧
      (System.initial ℕ 0 smallGeometry (fun _ => []) [smallUpload] prepared).run supersededRun =
        some s ∧ TablesAgree s.arena :=
  ⟨_,_,_,rfl,rfl,rfl,@run_tablesAgree ℕ _ 0 1 smallGeometry ⟨64,64⟩ _ (fun _ => []) [smallUpload] _
    supersededRun _ rfl rfl rfl⟩

end MicroExpertRouter.Arena
