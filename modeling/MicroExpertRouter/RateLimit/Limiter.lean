import Mathlib.Tactic

/-! The token buckets of `middleware.rs`, with exact amounts of tokens. A call reads the clock and
then updates the bucket of its key; the steps of any calls interleave. Time is in nanoseconds. -/
namespace MicroExpertRouter.RateLimit

structure Bucket where
  tokens : ℚ
  lastRefill : ℕ

structure RateLimiter (κ : Type) where
  rps : UInt32
  burst : UInt32
  buckets : κ → Option Bucket

/-- `as_secs_f64` of a duration. -/
def seconds (nanos : ℕ) : ℚ := nanos/10^9

namespace RateLimiter
variable {κ : Type} [DecidableEq κ]

def new (rps burst : UInt32) : RateLimiter κ := ⟨rps,if burst = 0 then rps else burst,fun _ => none⟩

def enabled (self : RateLimiter κ) : Bool := decide (0 < self.rps)

/-- The bucket of a key; a new one is full. -/
def entry (self : RateLimiter κ) (key : κ) (now : ℕ) : Bucket :=
  (self.buckets key).getD ⟨self.burst.toNat,now⟩

/-- The tokens of a bucket after its refill. A duration since a later time is zero. -/
def refilled (self : RateLimiter κ) (bucket : Bucket) (now : ℕ) : ℚ :=
  min (bucket.tokens+seconds (now-bucket.lastRefill)*self.rps.toNat) self.burst.toNat

/-- `allow`, at the time that was read from the clock. -/
def allow (self : RateLimiter κ) (key : κ) (now : ℕ) : Bool × RateLimiter κ :=
  if self.enabled = false then (true,self)
  else
    let tokens := self.refilled (self.entry key now) now
    if 1 ≤ tokens then
      (true,{ self with buckets := Function.update self.buckets key (some ⟨tokens-1,now⟩) })
    else (false,{ self with buckets := Function.update self.buckets key (some ⟨tokens,now⟩) })

section Allow
variable (self : RateLimiter κ) (key : κ) (now : ℕ)

@[simp] lemma allow_rps : (self.allow key now).2.rps = self.rps := by
  unfold allow
  dsimp only
  split_ifs <;> rfl

@[simp] lemma allow_burst : (self.allow key now).2.burst = self.burst := by
  unfold allow
  dsimp only
  split_ifs <;> rfl

lemma allow_buckets_of_ne {other : κ} (h : other ≠ key) :
    (self.allow key now).2.buckets other = self.buckets other := by
  unfold allow
  dsimp only
  split_ifs
  · rfl
  · exact Function.update_of_ne h _ _
  · exact Function.update_of_ne h _ _

/-- An enabled limiter charges a whole token, if there is one. -/
lemma allow_of_enabled (h : self.enabled = true) :
    (self.allow key now).1 = decide (1 ≤ self.refilled (self.entry key now) now) ∧
      (self.allow key now).2.buckets key = some ⟨self.refilled (self.entry key now) now-
        (if 1 ≤ self.refilled (self.entry key now) now then 1 else 0),now⟩ := by
  unfold allow
  rw [if_neg (by simp [h])]
  dsimp only
  split_ifs with hwhole
  · simp [hwhole]
  · simp [hwhole]

/-- A call is refused only without a whole token. -/
lemma refused (h : (self.allow key now).1 = false) :
    self.refilled (self.entry key now) now<1 := by
  unfold allow at h
  dsimp only at h
  split_ifs at h with _ hwhole
  exact not_le.mp hwhole

end Allow

end RateLimiter

/-- A call that was answered, with the tokens there were for it. -/
structure Answered (κ : Type) where
  key : κ
  now : ℕ
  available : ℚ
  allowed : Bool

/-- The limiter, the clock and the calls that have read the clock but not updated their bucket. -/
structure System (κ : Type) where
  limiter : RateLimiter κ
  clock : ℕ
  pending : κ → ℕ → Option ℕ
  answered : List (Answered κ)

inductive Step (κ : Type)
  | tick (nanos : ℕ)
  | read (key : κ) (call : ℕ)
  | update (key : κ) (call : ℕ)

section System
variable {κ : Type} [DecidableEq κ]

namespace System

def new (rps burst : UInt32) (clock : ℕ) : System κ := ⟨.new rps burst,clock,fun _ _ => none,[]⟩

/-- The time a call of a key keeps until it updates the bucket. -/
def setPending (self : System κ) (key : κ) (call : ℕ) (now : Option ℕ) : κ → ℕ → Option ℕ :=
  Function.update self.pending key (Function.update (self.pending key) call now)

/-- A call that reads the clock again or updates without having read it does nothing. -/
def step (self : System κ) (action : Step κ) : System κ :=
  match action with
  | .tick nanos => { self with clock := self.clock+nanos }
  | .read key call =>
    match self.pending key call with
    | some _ => self
    | none => { self with pending := self.setPending key call (some self.clock) }
  | .update key call =>
    match self.pending key call with
    | none => self
    | some now =>
      let available := self.limiter.refilled (self.limiter.entry key now) now
      let (allowed,limiter) := self.limiter.allow key now
      { self with
        limiter
        pending := self.setPending key call none
        answered := self.answered++[⟨key,now,available,allowed⟩] }

def run (self : System κ) (actions : List (Step κ)) : System κ := actions.foldl step self

/-- The answered calls of a key. -/
def answersFor (self : System κ) (key : κ) : List (Answered κ) :=
  self.answered.filter fun answer => answer.key = key

/-- The clock values of the answered calls of a key. -/
def timesFor (self : System κ) (key : κ) : List ℕ := (self.answersFor key).map Answered.now

/-- The number of calls of a key that were answered true. -/
def granted (self : System κ) (key : κ) : ℕ := (self.answersFor key).countP Answered.allowed

end System

/-- A step of a key's own calls, or of the clock. -/
def Step.concerns (key : κ) : Step κ → Bool
  | .tick _ => true
  | .read other _ => decide (other = key)
  | .update other _ => decide (other = key)

variable {system other : System κ} {key : κ}

lemma run_concat (system : System κ) (actions : List (Step κ)) (action : Step κ) :
    system.run (actions++[action]) = (system.run actions).step action := by
  simp [System.run]

/-- What an update does. -/
lemma step_update {call now : ℕ} (h : system.pending key call = some now) :
    system.step (.update key call) = { system with
      limiter := (system.limiter.allow key now).2
      pending := system.setPending key call none
      answered := system.answered++[⟨key,now,
        system.limiter.refilled (system.limiter.entry key now) now,
        (system.limiter.allow key now).1⟩] } := by
  simp only [System.step, h]

section Independence

/-- Two systems that one key cannot tell apart. -/
structure Alike (key : κ) (system other : System κ) : Prop where
  rps : system.limiter.rps = other.limiter.rps
  burst : system.limiter.burst = other.limiter.burst
  bucket : system.limiter.buckets key = other.limiter.buckets key
  clock : system.clock = other.clock
  pending : system.pending key = other.pending key
  answers : system.answersFor key = other.answersFor key

lemma Alike.refl (key : κ) (system : System κ) : Alike key system system := ⟨rfl,rfl,rfl,rfl,rfl,rfl⟩

/-- The key's own steps, and the clock, do the same to both. -/
lemma Alike.step (h : Alike key system other) {action : Step κ}
    (hown : action.concerns key = true) : Alike key (system.step action) (other.step action) := by
  cases action with
  | tick nanos =>
    exact ⟨h.rps,h.burst,h.bucket,congrArg (·+nanos) h.clock,h.pending,h.answers⟩
  | read own call =>
    obtain rfl := of_decide_eq_true hown
    unfold System.step
    dsimp only
    rw [← h.pending]
    cases system.pending own call with
    | some now => exact h
    | none =>
      refine ⟨h.rps,h.burst,h.bucket,h.clock,?_,h.answers⟩
      simp [System.setPending, h.pending, h.clock]
  | update own call =>
    obtain rfl := of_decide_eq_true hown
    cases hpending : system.pending own call with
    | none =>
      have hother : other.pending own call = none := by rw [← h.pending, hpending]
      unfold System.step
      dsimp only
      rw [hpending, hother]
      exact h
    | some now =>
      have hother : other.pending own call = some now := by rw [← h.pending, hpending]
      have havailable : system.limiter.refilled (system.limiter.entry own now) now =
          other.limiter.refilled (other.limiter.entry own now) now := by
        simp only [RateLimiter.refilled, RateLimiter.entry, h.rps, h.burst, h.bucket]
      have hallow : (system.limiter.allow own now).1 = (other.limiter.allow own now).1 ∧
          (system.limiter.allow own now).2.buckets own =
            (other.limiter.allow own now).2.buckets own := by
        unfold RateLimiter.allow RateLimiter.enabled
        rw [← havailable, h.rps]
        dsimp only
        split_ifs
        · exact ⟨rfl,h.bucket⟩
        · simp
        · simp
      rw [step_update hpending, step_update hother]
      refine ⟨?_,?_,hallow.2,h.clock,?_,?_⟩
      · simp [h.rps]
      · simp [h.burst]
      · simp [System.setPending, h.pending]
      · have hanswers := h.answers
        simp only [System.answersFor] at hanswers ⊢
        rw [List.filter_append, List.filter_append, hanswers, havailable, hallow.1]

/-- The steps of other keys do nothing to it. -/
lemma Alike.foreign (h : Alike key system other) {action : Step κ}
    (hforeign : action.concerns key = false) : Alike key (system.step action) other := by
  cases action with
  | tick nanos => cases hforeign
  | read own call =>
    have hne : key ≠ own := fun heq => of_decide_eq_false hforeign heq.symm
    unfold System.step
    dsimp only
    cases system.pending own call with
    | some now => exact h
    | none =>
      refine ⟨h.rps,h.burst,h.bucket,h.clock,?_,h.answers⟩
      simp [System.setPending, hne, h.pending]
  | update own call =>
    have hne : key ≠ own := fun heq => of_decide_eq_false hforeign heq.symm
    cases hpending : system.pending own call with
    | none =>
      unfold System.step
      dsimp only
      rw [hpending]
      exact h
    | some now =>
      rw [step_update hpending]
      refine ⟨?_,?_,?_,h.clock,?_,?_⟩
      · simp [h.rps]
      · simp [h.burst]
      · exact (RateLimiter.allow_buckets_of_ne _ _ _ hne).trans h.bucket
      · simp [System.setPending, hne, h.pending]
      · simpa [System.answersFor, hne.symm] using h.answers

/-- A key's answers are those of a run without the calls of all others. -/
theorem answers_apart (system : System κ) (key : κ) (actions : List (Step κ)) :
    Alike key (system.run actions) (system.run (actions.filter (Step.concerns key))) := by
  induction actions using List.reverseRecOn with
  | nil => exact .refl key system
  | append_singleton actions action ih =>
    rw [run_concat, List.filter_append]
    cases hconcerns : action.concerns key with
    | true =>
      rw [List.filter_cons_of_pos hconcerns, List.filter_nil, run_concat]
      exact ih.step hconcerns
    | false =>
      rw [List.filter_cons_of_neg (by simp [hconcerns]), List.filter_nil, List.append_nil]
      exact ih.foreign hconcerns

end Independence

end System

end MicroExpertRouter.RateLimit
