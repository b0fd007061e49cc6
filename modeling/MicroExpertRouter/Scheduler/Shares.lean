import MicroExpertRouter.Scheduler.Drain

/-! The shares of a batch. The head of the batch stands outside the round robin: a batch that is full
where a turn of the round robin would reach Audit gives Audit one request less than its share. -/
namespace MicroExpertRouter.Scheduler

variable {α : Type*}

/-- The requests of one class in a batch. -/
def ofClass (cls : SessionClass) (batch : List (SessionClass × α)) : List α :=
  (batch.filter fun entry => entry.1 = cls).map Prod.snd

/-- A batch takes the front of each queue, is as large as it can be and keeps both shares. -/
structure Fair (maxBatchSize : ℕ) (channels : Channels α) (drain : Drain α) : Prop where
  fifo : ∀ cls, ofClass cls drain.batch++drain.channels.queue cls = channels.queue cls
  size : drain.batch.length = min maxBatchSize channels.total
  auditShare : min channels.audit.length (maxBatchSize/5) ≤ (ofClass .audit drain.batch).length
  interactiveShare : min channels.interactive.length ((4*maxBatchSize+4)/5) ≤
    (ofClass .interactive drain.batch).length

/-- The batch is not full just before Audit's last request of its share. -/
def Uncut (maxBatchSize : ℕ) (channels : Channels α) : Prop :=
  ¬ (5 ∣ maxBatchSize ∧ 4*(maxBatchSize/5) < channels.interactive.length ∧
    maxBatchSize/5 ≤ channels.audit.length)

instance (maxBatchSize : ℕ) (channels : Channels α) : Decidable (Uncut maxBatchSize channels) :=
  inferInstanceAs (Decidable (¬ _))

@[simp] lemma ofClass_append (cls : SessionClass) (a b : List (SessionClass × α)) :
    ofClass cls (a++b) = ofClass cls a++ofClass cls b := by
  simp [ofClass]

@[simp] lemma ofClass_map (cls other : SessionClass) (queue : List α) :
    ofClass cls (queue.map fun r => (other,r)) = if cls = other then queue else [] := by
  cases cls <;> cases other <;> simp [ofClass, List.filter_map, Function.comp_def]

lemma length_batch (batch : List (SessionClass × α)) : batch.length =
    (ofClass .interactive batch).length+(ofClass .audit batch).length := by
  induction batch with
  | nil => rfl
  | cons entry batch ih =>
    obtain ⟨cls,r⟩ := entry
    cases cls <;> simp [ofClass] at ih ⊢ <;> omega

namespace Drain

/-- The requests of a class in the batch. -/
def taken (self : Drain α) (cls : SessionClass) : ℕ := (ofClass cls self.batch).length

/-- The requests of a class that are left. -/
def waiting (self : Drain α) (cls : SessionClass) : ℕ := (self.channels.queue cls).length

/-- The batch holds the front of each queue. -/
def From (channels : Channels α) (self : Drain α) : Prop :=
  ∀ cls, ofClass cls self.batch++self.channels.queue cls = channels.queue cls

/-- While Interactive waits it is ahead of Audit, and while Audit waits Interactive is not more
than `slack` ahead of four requests for one. -/
structure Balanced (slack : ℕ) (drain : Drain α) : Prop where
  ahead : 0 < drain.waiting .interactive → 4*drain.taken .audit+1 ≤ drain.taken .interactive
  behind : 0 < drain.waiting .audit → drain.taken .interactive ≤ 4*drain.taken .audit+slack

variable {channels : Channels α} {self : Drain α} {maxBatchSize : ℕ}

@[simp] lemma taken_move (cls other : SessionClass) (k : ℕ) (self : Drain α) :
    (self.move cls k).taken other =
      self.taken other+if other = cls then min k (self.waiting cls) else 0 := by
  unfold taken waiting move
  dsimp only
  rw [ofClass_append, ofClass_map, List.length_append]
  split_ifs <;> simp

@[simp] lemma waiting_move (cls other : SessionClass) (k : ℕ) (self : Drain α) :
    (self.move cls k).waiting other =
      self.waiting other-if other = cls then k else 0 := by
  unfold waiting
  rw [queue_move]
  split_ifs with h
  · rw [List.length_drop, h]
  · rfl

lemma length_eq (self : Drain α) :
    self.batch.length = self.taken .interactive+self.taken .audit := length_batch self.batch

lemma From.move (h : From channels self) (cls : SessionClass) (k : ℕ) :
    From channels (self.move cls k) := by
  intro other
  rw [← h other, queue_move, Drain.move, ofClass_append, ofClass_map]
  split_ifs with heq
  · subst heq
    simp
  · simp

lemma From.turn (h : From channels self) (maxBatchSize : ℕ) :
    From channels (self.turn maxBatchSize).1 := by
  rw [turn_eq]
  exact (h.move _ _).move _ _

/-- The numbers after a turn. -/
structure Turned (maxBatchSize : ℕ) (before after : Drain α) (progress : Bool) : Prop where
  interactive : after.taken .interactive+after.waiting .interactive =
    before.taken .interactive+before.waiting .interactive
  audit : after.taken .audit+after.waiting .audit = before.taken .audit+before.waiting .audit
  toInteractive : after.taken .interactive = before.taken .interactive+
    min (min 4 (maxBatchSize-before.batch.length)) (before.waiting .interactive)
  toAudit : after.taken .audit = before.taken .audit+
    min (min 1 (maxBatchSize-before.taken .audit-after.taken .interactive)) (before.waiting .audit)
  progress : progress = false → after.taken .interactive = before.taken .interactive ∧
    after.taken .audit = before.taken .audit

lemma turned (maxBatchSize : ℕ) (self : Drain α) :
    Turned maxBatchSize self (self.turn maxBatchSize).1 (self.turn maxBatchSize).2 := by
  rw [turn_eq]
  have hlength := length_eq self
  have hlength' := length_eq (self.move .interactive (self.room maxBatchSize 4 .interactive))
  have hfirst : self.room maxBatchSize 4 .interactive =
    min (min 4 (maxBatchSize-self.batch.length)) (self.waiting .interactive) := rfl
  have hsecond : (self.move .interactive (self.room maxBatchSize 4 .interactive)).room
    maxBatchSize 1 .audit = min (min 1 (maxBatchSize-(self.move .interactive
      (self.room maxBatchSize 4 .interactive)).batch.length)) ((self.move .interactive
        (self.room maxBatchSize 4 .interactive)).waiting .audit) := rfl
  simp only [taken_move, waiting_move, reduceCtorEq, if_true, if_false, Nat.add_zero,
    Nat.sub_zero] at hlength' hsecond
  constructor <;> simp only [taken_move, waiting_move, reduceCtorEq, if_true, if_false,
    Nat.add_zero, Nat.sub_zero, Bool.or_eq_false_iff, decide_eq_false_iff_not] <;> omega

/-- A turn keeps the balance; when it fills the batch, Interactive may be a turn ahead. -/
lemma Balanced.turn (h : Balanced 1 self) (hroom : self.batch.length < maxBatchSize) :
    Balanced 5 (self.turn maxBatchSize).1 ∧
      ((self.turn maxBatchSize).1.batch.length < maxBatchSize →
        Balanced 1 (self.turn maxBatchSize).1) ∧
      (self.turn maxBatchSize).1.batch.length ≤ maxBatchSize ∧
      ((self.turn maxBatchSize).2 = false → (self.turn maxBatchSize).1.waiting .interactive = 0 ∧
        (self.turn maxBatchSize).1.waiting .audit = 0) := by
  obtain ⟨hinteractive,haudit,hto,hto',hprogress⟩ := turned maxBatchSize self
  obtain ⟨hahead,hbehind⟩ := h
  have hlength := length_eq self
  have hlength' := length_eq (self.turn maxBatchSize).1
  refine ⟨⟨fun h => ?_,fun h => ?_⟩,fun h => ⟨fun h => ?_,fun h => ?_⟩,?_,fun h => ?_⟩
  · omega
  · omega
  · omega
  · omega
  · omega
  · have hnone := hprogress h
    omega

/-- What the round robin leaves behind it. -/
structure Filled (maxBatchSize : ℕ) (channels : Channels α) (drain : Drain α) : Prop where
  source : From channels drain
  balanced : Balanced 5 drain
  length_le : drain.batch.length ≤ maxBatchSize
  full : drain.batch.length = maxBatchSize ∨
    drain.waiting .interactive = 0 ∧ drain.waiting .audit = 0

lemma Balanced.weaken (h : Balanced 1 self) : Balanced 5 self :=
  ⟨h.ahead,fun hwaiting => (h.behind hwaiting).trans (by omega)⟩

/-- The round robin, by induction on its turns. -/
lemma filled_fill (maxBatchSize : ℕ) (self : Drain α) (hfrom : From channels self)
    (hbalanced : Balanced 1 self) (hle : self.batch.length ≤ maxBatchSize) :
    Filled maxBatchSize channels (self.fill maxBatchSize) := by
  induction self using Drain.fill.induct maxBatchSize with
  | case1 self hfull =>
    rw [fill, if_pos hfull]
    exact ⟨hfrom,hbalanced.weaken,hle,.inl (le_antisymm hle hfull)⟩
  | case2 self hroom hprogress ih =>
    rw [fill, if_neg hroom, dif_pos hprogress]
    obtain ⟨hcut,hnext,hle',-⟩ := hbalanced.turn (Nat.lt_of_not_le hroom)
    rcases Nat.lt_or_ge (self.turn maxBatchSize).1.batch.length maxBatchSize with hlt | hge
    · exact ih (hfrom.turn maxBatchSize) (hnext hlt) hle'
    · rw [fill, if_pos hge]
      exact ⟨hfrom.turn maxBatchSize,hcut,hle',.inl (le_antisymm hle' hge)⟩
  | case3 self hroom hprogress =>
    rw [fill, if_neg hroom, dif_neg hprogress]
    obtain ⟨hcut,-,hle',hempty⟩ := hbalanced.turn (Nat.lt_of_not_le hroom)
    exact ⟨hfrom.turn maxBatchSize,hcut,hle',.inr (hempty (Bool.not_eq_true _ ▸ hprogress))⟩

end Drain

section Collect
variable {channels : Channels α} {drain : Drain α} {maxBatchSize : ℕ}
open Drain (Balanced From Filled)

lemma of_firstRequest (h : firstRequest channels = some drain) :
    From channels drain ∧ Balanced 1 drain ∧ drain.batch.length = 1 := by
  obtain ⟨interactive,audit⟩ := channels
  unfold firstRequest at h
  rcases interactive with _ | ⟨r,rest⟩
  · rcases audit with _ | ⟨r,rest⟩
    · cases h
    · cases h
      refine ⟨fun cls => by cases cls <;> rfl,⟨fun h => ?_,fun _ => ?_⟩,rfl⟩
      · exact absurd h (Nat.lt_irrefl 0)
      · exact Nat.zero_le _
  · cases h
    exact ⟨fun cls => by cases cls <;> rfl,⟨fun _ => le_rfl,fun _ => le_rfl⟩,rfl⟩

lemma firstRequest_isSome (h : 0 < channels.total) : ∃ drain, firstRequest channels = some drain := by
  obtain ⟨interactive,audit⟩ := channels
  rcases interactive with _ | ⟨r,rest⟩
  · rcases audit with _ | ⟨r,rest⟩
    · exact absurd h (Nat.lt_irrefl 0)
    · exact ⟨_,rfl⟩
  · exact ⟨_,rfl⟩

/-- What a collected batch holds. -/
lemma filled_of_collect (hsize : 1 ≤ maxBatchSize) (h : collect maxBatchSize channels = some drain) :
    Filled maxBatchSize channels drain := by
  obtain ⟨first,hfirst,rfl⟩ := Option.map_eq_some_iff.mp h
  obtain ⟨hfrom,hbalanced,hlength⟩ := of_firstRequest hfirst
  exact Drain.filled_fill maxBatchSize first hfrom hbalanced (hlength ▸ hsize)

lemma taken_add_waiting (h : From channels drain) (cls : SessionClass) :
    drain.taken cls+drain.waiting cls = (channels.queue cls).length := by
  rw [← h cls, List.length_append]
  rfl

/-- A batch is fair exactly when it is not cut before Audit's last request. -/
lemma fair_iff (h : Filled maxBatchSize channels drain) :
    Fair maxBatchSize channels drain ↔ Uncut maxBatchSize channels := by
  obtain ⟨hfrom,⟨hahead,hbehind⟩,hle,hfull⟩ := h
  have hinteractive : drain.taken .interactive+drain.waiting .interactive =
    channels.interactive.length := taken_add_waiting hfrom .interactive
  have haudit : drain.taken .audit+drain.waiting .audit = channels.audit.length :=
    taken_add_waiting hfrom .audit
  have hlength := drain.length_eq
  unfold Uncut
  constructor
  · rintro ⟨-,hsize,hshare,-⟩ ⟨⟨k,rfl⟩,hmany,hfew⟩
    change _ ≤ drain.taken .audit at hshare
    omega
  · intro huncut
    have hshare : min channels.audit.length (maxBatchSize/5) ≤ drain.taken .audit := by
      by_cases hdvd : 5 ∣ maxBatchSize
      · obtain ⟨k,rfl⟩ := hdvd
        by_cases hmany : 4*(5*k/5) < channels.interactive.length
        · have hfew : ¬ 5*k/5 ≤ channels.audit.length :=
            fun hfew => huncut ⟨Nat.dvd_mul_right 5 k,hmany,hfew⟩
          omega
        · omega
      · omega
    refine ⟨hfrom,?_,hshare,?_⟩
    · unfold Channels.total
      omega
    · change _ ≤ drain.taken .interactive
      omega

/-- A batch of more than five requests, or one that is not cut, takes an Audit request. -/
lemma audit_taken (h : Filled maxBatchSize channels drain) (hsize : 5 ≤ maxBatchSize)
    (hshare : 5 < maxBatchSize ∨ Uncut maxBatchSize channels) (haudit : channels.audit ≠ []) :
    0 < drain.taken .audit := by
  have hpos := List.length_pos_iff.mpr haudit
  obtain ⟨hfrom,⟨hahead,hbehind⟩,hle,hfull⟩ := h
  have hinteractive : drain.taken .interactive+drain.waiting .interactive =
    channels.interactive.length := taken_add_waiting hfrom .interactive
  have haudit : drain.taken .audit+drain.waiting .audit = channels.audit.length :=
    taken_add_waiting hfrom .audit
  have hlength := drain.length_eq
  rcases hshare with hmore | huncut
  · omega
  · by_contra hnone
    refine huncut ⟨?_,?_,?_⟩ <;> omega

end Collect

section Runs
variable {channels : Channels α} {drain : Drain α} {maxBatchSize : ℕ} {r : α}

lemma mem_ofClass {cls : SessionClass} {batch : List (SessionClass × α)}
    (h : r ∈ ofClass cls batch) : (cls,r) ∈ batch := by
  obtain ⟨entry,hmem,rfl⟩ := List.mem_map.mp h
  obtain ⟨hbatch,hcls⟩ := List.mem_filter.mp hmem
  obtain rfl := of_decide_eq_true hcls
  exact hbatch

/-- An Audit request is in the batch or moves up by the Audit requests that are. -/
lemma admitted_or_moved {front back : List α} (h : Drain.From channels drain)
    (haudit : channels.audit = front++r::back) : (.audit,r) ∈ drain.batch ∨
      ∃ front', drain.channels.audit = front'++r::back ∧
        front'.length+drain.taken .audit = front.length := by
  have hsplit : ofClass .audit drain.batch++drain.channels.audit = front++r::back :=
    (h .audit).trans haudit
  rcases List.append_eq_append_iff.mp hsplit with ⟨front',rfl,hrest⟩ | ⟨extra,htaken,hrest⟩
  · right
    refine ⟨front',hrest,?_⟩
    rw [List.length_append, Drain.taken, Nat.add_comm]
  · rcases extra with _ | ⟨first,extra⟩
    · right
      refine ⟨[],hrest.symm,?_⟩
      simp [Drain.taken, htaken]
    · left
      obtain ⟨rfl,-⟩ := List.cons.inj hrest
      exact mem_ofClass (by simp [htaken])

lemma collect_of_audit {front back : List α} (haudit : channels.audit = front++r::back) :
    ∃ drain, collect maxBatchSize channels = some drain := by
  have htotal : 0 < channels.total := by
    simp [Channels.total, haudit]
  obtain ⟨first,hfirst⟩ := firstRequest_isSome htotal
  exact ⟨first.fill maxBatchSize,by rw [collect, hfirst]; rfl⟩

/-- An Audit request is admitted within as many batches as there are Audit requests ahead of it, and
one; by induction on the later arrivals, with its place in the queue going down. -/
lemma audit_admitted (hsize : 5 ≤ maxBatchSize) (arrivals : List (Channels α)) :
    ∀ (channels : Channels α) (front back : List α), channels.audit = front++r::back →
      front.length ≤ arrivals.length →
      (5 < maxBatchSize ∨ ∀ step ∈ iterations maxBatchSize channels arrivals,
        Uncut maxBatchSize step.1) →
      ∃ step ∈ iterations maxBatchSize channels arrivals, (.audit,r) ∈ step.2.batch := by
  induction arrivals with
  | nil =>
    intro channels front back haudit hlength hshare
    obtain ⟨drain,hcollect⟩ := @collect_of_audit _ channels maxBatchSize _ _ _ haudit
    have hfilled := filled_of_collect (by omega) hcollect
    simp only [iterations, hcollect, Option.toList_some, List.map_cons, List.map_nil,
      List.mem_singleton, forall_eq, exists_eq_left] at hshare ⊢
    have htaken := audit_taken hfilled hsize hshare (by simp [haudit])
    rcases admitted_or_moved hfilled.source haudit with hmem | ⟨front',-,hfront⟩
    · exact hmem
    · have hzero : front.length = 0 := Nat.le_zero.mp hlength
      omega
  | cons new later ih =>
    intro channels front back haudit hlength hshare
    obtain ⟨drain,hcollect⟩ := @collect_of_audit _ channels maxBatchSize _ _ _ haudit
    have hfilled := filled_of_collect (by omega) hcollect
    simp only [iterations, hcollect, List.mem_cons, forall_eq_or_imp, exists_eq_or_imp] at hshare ⊢
    have htaken := audit_taken hfilled hsize (hshare.imp_right And.left) (by simp [haudit])
    rcases admitted_or_moved hfilled.source haudit with hmem | ⟨front',haudit',hfront⟩
    · exact .inl hmem
    · right
      refine ih (drain.channels.arrive new) front' (back++new.audit) ?_ ?_
        (hshare.imp_right And.right)
      · simp [Channels.arrive, haudit']
      · rw [List.length_cons] at hlength
        omega

end Runs

/-- A batch keeps the order of the queues, its size and both shares exactly when it is not cut just
before Audit's last request; while no batch is, or with batches of more than five, an Audit request
waits for at most one batch for each Audit request ahead of it. -/
theorem wrr_shares_iff (α : Type) (maxBatchSize : ℕ) (hsize : 1 ≤ maxBatchSize) :
    (∀ channels : Channels α, 0 < channels.total → ∃ drain,
      collect maxBatchSize channels = some drain ∧
        (Fair maxBatchSize channels drain ↔ Uncut maxBatchSize channels)) ∧
    ∀ (channels : Channels α) (front : List α) (r : α) (back : List α)
      (arrivals : List (Channels α)), channels.audit = front++r::back →
      arrivals.length = front.length → 5 ≤ maxBatchSize →
      (5 < maxBatchSize ∨ ∀ step ∈ iterations maxBatchSize channels arrivals,
        Uncut maxBatchSize step.1) →
      ∃ step ∈ iterations maxBatchSize channels arrivals, (.audit,r) ∈ step.2.batch := by
  refine ⟨fun channels htotal => ?_,fun channels front r back arrivals haudit hlength hfive => ?_⟩
  · obtain ⟨first,hfirst⟩ := firstRequest_isSome htotal
    have hcollect : collect maxBatchSize channels = some (first.fill maxBatchSize) := by
      rw [collect, hfirst]
      rfl
    exact ⟨_,hcollect,fair_iff (filled_of_collect hsize hcollect)⟩
  · exact audit_admitted hfive arrivals channels front back haudit hlength.ge

/-- The default batch of eight. -/
theorem wrr_shares_eight :
    (∀ channels : Channels ℕ, 0 < channels.total → ∃ drain, collect 8 channels = some drain ∧
      (Fair 8 channels drain ↔ Uncut 8 channels)) ∧
    ∀ (channels : Channels ℕ) (front : List ℕ) (r : ℕ) (back : List ℕ)
      (arrivals : List (Channels ℕ)), channels.audit = front++r::back →
      arrivals.length = front.length → 5 ≤ 8 →
      (5<8 ∨ ∀ step ∈ iterations 8 channels arrivals, Uncut 8 step.1) →
      ∃ step ∈ iterations 8 channels arrivals, (.audit,r) ∈ step.2.batch :=
  wrr_shares_iff ℕ 8 (by decide)

/-- Five Interactive requests and one for Audit. -/
def crowded : Channels ℕ := ⟨[0,1,2,3,4],[5]⟩

lemma collect_crowded : collect 5 crowded =
    some ⟨[(.interactive,0),(.interactive,1),(.interactive,2),(.interactive,3),(.interactive,4)],
      ⟨[],[5]⟩⟩ := by
  have hturn : (Drain.turn 5 ⟨[(SessionClass.interactive,0)],⟨[1,2,3,4],[5]⟩⟩).2 = true := rfl
  change some (Drain.fill 5 ⟨[(SessionClass.interactive,0)],⟨[1,2,3,4],[5]⟩⟩) = _
  rw [Drain.fill, if_neg (by decide), dif_pos hturn, Drain.fill, if_pos (by decide)]
  rfl

/-- A batch of five holds no Audit request, though one is queued and its share is one. -/
theorem crowded_starves : ∃ drain, collect 5 crowded = some drain ∧ ¬ Fair 5 crowded drain ∧
    ∀ step ∈ iterations 5 crowded [], (.audit,5) ∉ step.2.batch := by
  refine ⟨_,collect_crowded,fun h => ?_,?_⟩
  · have hshare := h.auditShare
    revert hshare
    decide
  · rw [iterations, collect_crowded]
    decide

end MicroExpertRouter.Scheduler
