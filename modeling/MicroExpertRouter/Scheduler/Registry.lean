import Mathlib.Logic.Relation
import Mathlib.Tactic

/-! The registry of requests of `batch_scheduler.rs` and the task that runs one submitted step: the
table and each task hold a reference to the KV caches of a request, which a release can only take
back when it is the last one. -/
namespace MicroExpertRouter.Scheduler
open Relation (ReflTransGen)

/-- A row of a KV cache: what was ingested, and where. -/
structure Row where
  tokenId : UInt32
  pos : ℕ
  deriving DecidableEq, Repr

abbrev KvCache := List Row

/-- A token step that has come to `k` layers appends its row to each of them. -/
def appendLeading (k : ℕ) (row : Row) (kv : List KvCache) : List KvCache :=
  (kv.take k).map (·++[row])++kv.drop k

/-- The caches of a request behind an `Arc`, with its strong count. -/
structure Entry where
  kv : List KvCache
  strong : ℕ
  deriving DecidableEq, Repr

structure RequestRegistry where
  next : ℕ
  table : ℕ → Option Entry
  fresh : ∀ id, next ≤ id → table id = none

namespace RequestRegistry

lemma update_fresh {table : ℕ → Option Entry} {next id : ℕ} {entry : Option Entry}
    (h : ∀ id, next ≤ id → table id = none) (hentry : next ≤ id → entry = none) :
    ∀ other, next ≤ other → Function.update table id entry other = none := by
  intro other hle
  by_cases heq : other = id
  · subst heq
    rw [Function.update_self, hentry hle]
  · rw [Function.update_of_ne heq, h other hle]

lemma register_fresh {table : ℕ → Option Entry} {next : ℕ} (entry : Entry)
    (h : ∀ id, next ≤ id → table id = none) :
    ∀ other, next+1 ≤ other → Function.update table next (some entry) other = none :=
  update_fresh (fun id hle => h id (by omega)) (fun hle => absurd hle (by omega))

lemma map_fresh {table : ℕ → Option Entry} {next id : ℕ} (f : Entry → Entry)
    (h : ∀ id, next ≤ id → table id = none) (hle : next ≤ id) : (table id).map f = none := by
  rw [h id hle]
  rfl

def register (self : RequestRegistry) (kv : List KvCache) : ℕ × RequestRegistry :=
  (self.next,⟨self.next+1,Function.update self.table self.next (some ⟨kv,1⟩),
    register_fresh ⟨kv,1⟩ self.fresh⟩)

/-- An entry changes behind its `Arc`. -/
def alter (self : RequestRegistry) (id : ℕ) (f : Entry → Entry) : RequestRegistry :=
  ⟨self.next,Function.update self.table id ((self.table id).map f),
    update_fresh self.fresh (map_fresh f self.fresh)⟩

/-- `get` clones the `Arc`. -/
def get (self : RequestRegistry) (id : ℕ) : RequestRegistry :=
  self.alter id fun entry => { entry with strong := entry.strong+1 }

/-- A clone of the `Arc` is dropped. -/
def dropClone (self : RequestRegistry) (id : ℕ) : RequestRegistry :=
  self.alter id fun entry => { entry with strong := entry.strong-1 }

/-- The holder of the lock appends a row to the first `k` layers. -/
def append (self : RequestRegistry) (id k : ℕ) (row : Row) : RequestRegistry :=
  self.alter id fun entry => { entry with kv := appendLeading k row entry.kv }

/-- `release`: the entry leaves the table, and its caches come back when no task holds it. -/
def release (self : RequestRegistry) (id : ℕ) : Option (List KvCache) × RequestRegistry :=
  ((self.table id).bind fun entry => if entry.strong = 1 then some entry.kv else none,
    ⟨self.next,Function.update self.table id none,update_fresh self.fresh fun _ => rfl⟩)

/-- What other requests and their tasks may do to a registry. -/
structure Others (id : ℕ) (before after : RequestRegistry) : Prop where
  entry : after.table id = before.table id
  next : before.next ≤ after.next

variable {self : RequestRegistry} {id other k : ℕ} {row : Row} {kv : List KvCache}

@[simp] lemma table_alter (self : RequestRegistry) (id : ℕ) (f : Entry → Entry) :
    (self.alter id f).table id = (self.table id).map f := by
  simp [alter]

lemma others_alter (hne : other ≠ id) (f : Entry → Entry) : Others id self (self.alter other f) :=
  ⟨Function.update_of_ne hne.symm _ _,le_rfl⟩

lemma others_get (hne : other ≠ id) : Others id self (self.get other) := others_alter hne _

lemma others_dropClone (hne : other ≠ id) : Others id self (self.dropClone other) :=
  others_alter hne _

lemma others_append (hne : other ≠ id) : Others id self (self.append other k row) :=
  others_alter hne _

lemma others_release (hne : other ≠ id) : Others id self (self.release other).2 :=
  ⟨Function.update_of_ne hne.symm _ _,le_rfl⟩

/-- A new request never takes the place of one that is registered. -/
lemma others_register (h : self.table id ≠ none) : Others id self (self.register kv).2 := by
  have hne : id ≠ self.next := by
    rintro rfl
    exact h (self.fresh _ le_rfl)
  exact ⟨Function.update_of_ne hne _ _,Nat.le_succ _⟩

@[simp] lemma table_register (self : RequestRegistry) (kv : List KvCache) :
    (self.register kv).2.table (self.register kv).1 = some ⟨kv,1⟩ := by
  simp [register]

/-- The last holder gets the caches back. -/
lemma release_of_last (h : self.table id = some ⟨kv,1⟩) : (self.release id).1 = some kv := by
  simp [release, h]

end RequestRegistry

inductive StepMode
  | decode
  | forwardHidden
  deriving DecidableEq, Repr

/-- A hidden state is kept as its bits. -/
inductive ScheduledResponse
  | nextToken (next : UInt32)
  | hidden (values : List UInt32)
  deriving DecidableEq, Repr

def ScheduledResponse.mode : ScheduledResponse → StepMode
  | .nextToken _ => .decode
  | .hidden _ => .forwardHidden

inductive BatchError
  | schedulerClosed
  | notRegistered
  | inference (message : String)
  deriving DecidableEq, Repr

structure StepRequest where
  id : ℕ
  row : Row
  mode : StepMode

/-- Where the task of a step is. -/
inductive Phase
  | queued
  | holding
  | ran (result : Except BatchError ScheduledResponse)
  | dropped (result : Except BatchError ScheduledResponse)
  | replied (result : Except BatchError ScheduledResponse)
  | unwinding (appended : ℕ)
  | unwound (appended : ℕ)
  | lost (appended : ℕ)

/-- The steps of the task of a submitted request, between those of other requests. A step that
panics unwinds: its clone of the entry is dropped before the sender of its reply. -/
inductive TaskStep (request : StepRequest) :
    Phase × RequestRegistry → Phase × RequestRegistry → Prop
  | get {registry} (h : registry.table request.id ≠ none) :
    TaskStep request (.queued,registry) (.holding,registry.get request.id)
  | unknown {registry} (h : registry.table request.id = none) :
    TaskStep request (.queued,registry) (.replied (.error .notRegistered),registry)
  | complete {registry entry response} (h : registry.table request.id = some entry)
    (hmode : response.mode = request.mode) :
    TaskStep request (.holding,registry)
      (.ran (.ok response),registry.append request.id entry.kv.length request.row)
  | fail {registry entry k message} (h : registry.table request.id = some entry)
    (hk : k ≤ entry.kv.length) :
    TaskStep request (.holding,registry)
      (.ran (.error (.inference message)),registry.append request.id k request.row)
  | drop {registry result} :
    TaskStep request (.ran result,registry) (.dropped result,registry.dropClone request.id)
  | send {registry result} : TaskStep request (.dropped result,registry) (.replied result,registry)
  | panic {registry entry k} (h : registry.table request.id = some entry)
    (hk : k ≤ entry.kv.length) :
    TaskStep request (.holding,registry) (.unwinding k,registry.append request.id k request.row)
  | unwind {registry k} :
    TaskStep request (.unwinding k,registry) (.unwound k,registry.dropClone request.id)
  | hangUp {registry k} : TaskStep request (.unwound k,registry) (.lost k,registry)
  | shutdown {registry} : TaskStep request (.queued,registry) (.lost 0,registry)
  | others {phase before after} (h : RequestRegistry.Others request.id before after) :
    TaskStep request (phase,before) (phase,after)

/-- The result of a step that has come to `k` layers of these caches. -/
def Done (mode : StepMode) (kv : List KvCache) (k : ℕ) : Except BatchError ScheduledResponse → Prop
  | .ok response => k = kv.length ∧ response.mode = mode
  | .error e => k ≤ kv.length ∧ ∃ message, e = .inference message

/-- The entry of a request whose step began on these caches. -/
def Phase.Holds (request : StepRequest) (kv : List KvCache) : Phase → Entry → Prop
  | .queued,entry => entry = ⟨kv,1⟩
  | .holding,entry => entry = ⟨kv,2⟩
  | .ran result,entry => ∃ k, entry = ⟨appendLeading k request.row kv,2⟩ ∧
      Done request.mode kv k result
  | .dropped result,entry => ∃ k, entry = ⟨appendLeading k request.row kv,1⟩ ∧
      Done request.mode kv k result
  | .replied result,entry => ∃ k, entry = ⟨appendLeading k request.row kv,1⟩ ∧
      Done request.mode kv k result
  | .unwinding k,entry => k ≤ kv.length ∧ entry = ⟨appendLeading k request.row kv,2⟩
  | .unwound k,entry => k ≤ kv.length ∧ entry = ⟨appendLeading k request.row kv,1⟩
  | .lost k,entry => k ≤ kv.length ∧ entry = ⟨appendLeading k request.row kv,1⟩

section Tasks
variable {request : StepRequest} {kv : List KvCache}

@[simp] lemma appendLeading_zero (row : Row) (kv : List KvCache) : appendLeading 0 row kv = kv := by
  simp [appendLeading]

@[simp] lemma appendLeading_length (row : Row) (kv : List KvCache) :
    appendLeading kv.length row kv = kv.map (·++[row]) := by
  simp [appendLeading]

@[simp] lemma length_appendLeading (k : ℕ) (row : Row) (kv : List KvCache) :
    (appendLeading k row kv).length = kv.length := by
  simp [appendLeading]
  omega

/-- A step of the task keeps what its phase says of the entry. -/
lemma holds_step {a b : Phase × RequestRegistry} (hstep : TaskStep request a b) (entry : Entry)
    (hentry : a.2.table request.id = some entry) (hholds : a.1.Holds request kv entry) :
    ∃ entry', b.2.table request.id = some entry' ∧ b.1.Holds request kv entry' := by
  obtain ⟨phase,registry⟩ := a
  dsimp only at hentry hholds
  cases hstep with
  | get h =>
    obtain rfl := hholds
    exact ⟨⟨kv,2⟩,by simp [RequestRegistry.get, hentry],rfl⟩
  | unknown h =>
    rw [h] at hentry
    cases hentry
  | complete h hmode =>
    obtain rfl := hholds
    rw [h] at hentry
    cases hentry
    exact ⟨_,by simp [RequestRegistry.append, h],kv.length,rfl,rfl,hmode⟩
  | @fail _ _ k message h hk =>
    obtain rfl := hholds
    rw [h] at hentry
    cases hentry
    exact ⟨_,by simp [RequestRegistry.append, h],k,rfl,hk,message,rfl⟩
  | drop =>
    obtain ⟨k,rfl,hdone⟩ := hholds
    exact ⟨_,by simp [RequestRegistry.dropClone, hentry],k,rfl,hdone⟩
  | send => exact ⟨entry,hentry,hholds⟩
  | @panic _ _ k h hk =>
    obtain rfl := hholds
    rw [h] at hentry
    cases hentry
    exact ⟨_,by simp [RequestRegistry.append, h],hk,rfl⟩
  | unwind =>
    obtain ⟨hk,rfl⟩ := hholds
    exact ⟨_,by simp [RequestRegistry.dropClone, hentry],hk,rfl⟩
  | hangUp => exact ⟨entry,hentry,hholds⟩
  | shutdown =>
    obtain rfl := hholds
    exact ⟨_,hentry,Nat.zero_le _,by simp⟩
  | others h => exact ⟨entry,h.entry.trans hentry,hholds⟩

/-- What the entry is at every moment of a submitted step. -/
theorem holds_run {registry : RequestRegistry} {b : Phase × RequestRegistry}
    (hentry : registry.table request.id = some ⟨kv,1⟩)
    (hrun : ReflTransGen (TaskStep request) (.queued,registry) b) :
    ∃ entry, b.2.table request.id = some entry ∧ b.1.Holds request kv entry := by
  induction hrun with
  | refl => exact ⟨_,hentry,rfl⟩
  | tail _ hstep ih =>
    obtain ⟨entry,hentry,hholds⟩ := ih
    exact holds_step hstep entry hentry hholds

lemma Done.le {mode : StepMode} {k : ℕ} {result : Except BatchError ScheduledResponse}
    (h : Done mode kv k result) : k ≤ kv.length := by
  cases result with
  | ok response => exact h.1.le
  | error e => exact h.1

/-- After a reply a release returns the caches of the request. -/
theorem release_of_replied {registry after : RequestRegistry}
    {result : Except BatchError ScheduledResponse}
    (hentry : registry.table request.id = some ⟨kv,1⟩)
    (hrun : ReflTransGen (TaskStep request) (.queued,registry) (.replied result,after)) :
    ∃ k ≤ kv.length, (after.release request.id).1 = some (appendLeading k request.row kv) := by
  obtain ⟨entry,hentry',k,rfl,hdone⟩ := holds_run hentry hrun
  exact ⟨k,hdone.le,RequestRegistry.release_of_last hentry'⟩

end Tasks

end MicroExpertRouter.Scheduler
