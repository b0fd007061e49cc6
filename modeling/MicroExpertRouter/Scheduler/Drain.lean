import Mathlib.Tactic

/-! The head of `scheduler_loop` in `batch_scheduler.rs`: a batch is begun by a biased `select!` and
filled by a weighted round robin over the channels of the two session classes. -/
namespace MicroExpertRouter.Scheduler

inductive SessionClass
  | interactive
  | audit
  deriving DecidableEq, Repr

def SessionClass.weight : SessionClass → ℕ
  | .interactive => 4
  | .audit => 1

/-- The requests that are queued on the two channels. -/
structure Channels (α : Type*) where
  interactive : List α
  audit : List α

/-- A batch that is being filled, each request with the class of its channel. -/
structure Drain (α : Type*) where
  batch : List (SessionClass × α)
  channels : Channels α

variable {α : Type*}

def Channels.queue (self : Channels α) : SessionClass → List α
  | .interactive => self.interactive
  | .audit => self.audit

def Channels.setQueue (self : Channels α) (cls : SessionClass) (queue : List α) : Channels α :=
  match cls with
  | .interactive => { self with interactive := queue }
  | .audit => { self with audit := queue }

def Channels.total (self : Channels α) : ℕ := self.interactive.length+self.audit.length

/-- The first request of a batch; without one the scheduler waits. -/
def firstRequest (channels : Channels α) : Option (Drain α) :=
  match channels.interactive,channels.audit with
  | r::rest, audit => some ⟨[(.interactive,r)],⟨rest,audit⟩⟩
  | [], r::rest => some ⟨[(.audit,r)],⟨[],rest⟩⟩
  | [], [] => none

namespace Drain

/-- The loop of `try_recv` on one channel, and whether it made progress. -/
def pull (maxBatchSize : ℕ) (cls : SessionClass) : ℕ → Drain α → Drain α × Bool
  | 0, self => (self,false)
  | n+1, self =>
    if maxBatchSize ≤ self.batch.length then (self,false)
    else match self.channels.queue cls with
      | [] => (self,false)
      | r::rest =>
        ((pull maxBatchSize cls n ⟨self.batch++[(cls,r)],self.channels.setQueue cls rest⟩).1,true)

/-- One turn of the round robin. -/
def turn (maxBatchSize : ℕ) (self : Drain α) : Drain α × Bool :=
  let (interactive,progress) := self.pull maxBatchSize .interactive SessionClass.interactive.weight
  let (audit,progress') := interactive.pull maxBatchSize .audit SessionClass.audit.weight
  (audit,progress || progress')

/-- The first requests of a channel move into the batch. -/
def move (cls : SessionClass) (k : ℕ) (self : Drain α) : Drain α :=
  ⟨self.batch++((self.channels.queue cls).take k).map fun r => (cls,r),
    self.channels.setQueue cls ((self.channels.queue cls).drop k)⟩

@[simp] lemma queue_setQueue (channels : Channels α) (cls other : SessionClass) (queue : List α) :
    (channels.setQueue cls queue).queue other =
      if other = cls then queue else channels.queue other := by
  cases cls <;> cases other <;> rfl

@[simp] lemma setQueue_setQueue (channels : Channels α) (cls : SessionClass) (a b : List α) :
    (channels.setQueue cls a).setQueue cls b = channels.setQueue cls b := by
  cases cls <;> rfl

@[simp] lemma setQueue_queue (channels : Channels α) (cls : SessionClass) :
    channels.setQueue cls (channels.queue cls) = channels := by
  cases cls <;> rfl

@[simp] lemma move_zero (cls : SessionClass) (self : Drain α) : self.move cls 0 = self := by
  simp [move]

@[simp] lemma queue_move (cls other : SessionClass) (k : ℕ) (self : Drain α) :
    (self.move cls k).channels.queue other =
      if other = cls then (self.channels.queue cls).drop k else self.channels.queue other := by
  simp [move]

/-- The number of requests that a loop of `n` turns takes. -/
def room (maxBatchSize n : ℕ) (cls : SessionClass) (self : Drain α) : ℕ :=
  min (min n (maxBatchSize-self.batch.length)) (self.channels.queue cls).length

/-- The loop takes as many requests as its turns, the batch and the channel allow. -/
lemma pull_eq (maxBatchSize : ℕ) (cls : SessionClass) (n : ℕ) : ∀ self : Drain α,
    self.pull maxBatchSize cls n = (self.move cls (self.room maxBatchSize n cls),
      decide (0 < self.room maxBatchSize n cls)) := by
  induction n with
  | zero =>
    intro self
    simp [pull, room]
  | succ n ih =>
    intro self
    unfold pull
    split_ifs with hfull
    · have hroom : self.room maxBatchSize (n+1) cls = 0 := by
        unfold room
        omega
      simp [hroom]
    · cases hqueue : self.channels.queue cls with
      | nil =>
        have hroom : self.room maxBatchSize (n+1) cls = 0 := by simp [room, hqueue]
        simp [hroom]
      | cons r rest =>
        dsimp only
        have hroom : self.room maxBatchSize (n+1) cls =
            room maxBatchSize n cls ⟨self.batch++[(cls,r)],self.channels.setQueue cls rest⟩+1 := by
          simp only [room, hqueue, queue_setQueue, if_pos, List.length_append, List.length_cons,
            List.length_nil]
          omega
        rw [ih, hroom]
        simp [move, hqueue]

/-- The number of requests that are left. -/
def left (self : Drain α) : ℕ := self.channels.total

lemma left_move (cls : SessionClass) (k : ℕ) (self : Drain α) :
    (self.move cls k).left+min k (self.channels.queue cls).length = self.left := by
  cases cls <;> simp [left, Channels.total, move, Channels.queue, Channels.setQueue] <;> omega

/-- A turn as two moves. -/
lemma turn_eq (maxBatchSize : ℕ) (self : Drain α) : self.turn maxBatchSize =
    ((self.move .interactive (self.room maxBatchSize 4 .interactive)).move .audit
        ((self.move .interactive (self.room maxBatchSize 4 .interactive)).room maxBatchSize 1 .audit),
      decide (0 < self.room maxBatchSize 4 .interactive) || decide (0 < (self.move .interactive
        (self.room maxBatchSize 4 .interactive)).room maxBatchSize 1 .audit)) := by
  simp only [turn, pull_eq, SessionClass.weight]

/-- A turn with progress leaves fewer requests. -/
lemma left_turn (maxBatchSize : ℕ) (self : Drain α) (h : (self.turn maxBatchSize).2 = true) :
    (self.turn maxBatchSize).1.left < self.left := by
  rw [turn_eq] at h ⊢
  have hfirst := left_move .interactive (self.room maxBatchSize 4 .interactive) self
  have hsecond := left_move .audit ((self.move .interactive (self.room maxBatchSize 4
    .interactive)).room maxBatchSize 1 .audit)
      (self.move .interactive (self.room maxBatchSize 4 .interactive))
  simp only [Bool.or_eq_true, decide_eq_true_eq] at h
  have hle : self.room maxBatchSize 4 .interactive ≤ (self.channels.queue .interactive).length :=
    Nat.min_le_right _ _
  have hle' := Nat.min_le_right (min 1 (maxBatchSize-(self.move .interactive
    (self.room maxBatchSize 4 .interactive)).batch.length)) ((self.move .interactive
      (self.room maxBatchSize 4 .interactive)).channels.queue .audit).length
  change room maxBatchSize 1 .audit _ ≤ _ at hle'
  dsimp only
  omega

/-- The round robin. -/
def fill (maxBatchSize : ℕ) (self : Drain α) : Drain α :=
  if maxBatchSize ≤ self.batch.length then self
  else if _h : (self.turn maxBatchSize).2 = true then (self.turn maxBatchSize).1.fill maxBatchSize
  else (self.turn maxBatchSize).1
termination_by self.left
decreasing_by exact left_turn maxBatchSize self _h

end Drain

/-- The batch of an iteration without arrivals while it is assembled, and what stays queued. -/
def collect (maxBatchSize : ℕ) (channels : Channels α) : Option (Drain α) :=
  (firstRequest channels).map (Drain.fill maxBatchSize)

/-- New requests go to the end of their channel. -/
def Channels.arrive (self new : Channels α) : Channels α :=
  ⟨self.interactive++new.interactive,self.audit++new.audit⟩

/-- The batches of a run, each with the channels it was collected from, when these requests arrive
after the first of them, after the second and so on. -/
def iterations (maxBatchSize : ℕ) (channels : Channels α) :
    List (Channels α) → List (Channels α × Drain α)
  | [] => (collect maxBatchSize channels).toList.map fun drain => (channels,drain)
  | new::later => match collect maxBatchSize channels with
    | none => iterations maxBatchSize (channels.arrive new) later
    | some drain => (channels,drain)::iterations maxBatchSize (drain.channels.arrive new) later

end MicroExpertRouter.Scheduler
