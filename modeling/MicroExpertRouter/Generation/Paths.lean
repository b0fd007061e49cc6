import MicroExpertRouter.Generation.Decoding

/-! The generation loops of `server.rs`: `generate`, one token or some speculated tokens a turn, and
the stream that is polled for one token at a time. All of them give what so many decode steps give
after the prompt. -/
namespace MicroExpertRouter.Generation
open Scheduler (Row)

/-- What a session keeps: the caches, the cursor and the token that is not ingested yet. -/
structure SessionKv where
  history : List Row
  position : ℕ
  pendingToken : Option UInt32
  deriving DecidableEq, Repr

/-- `fresh_kv_caches` at position zero. -/
def SessionKv.fresh : SessionKv := ⟨[],0,none⟩

/-- The settings a request is generated under. -/
structure Config where
  speculationK : ℕ
  draftEngine : Option DraftEngine

variable {η π : Type} (model : RealModel η π)

/-- Tokens that are only ingested. -/
def ingestTokens (kv : List Row) (pos : ℕ) (tokens : List UInt32) : List Row × ℕ :=
  tokens.foldl (fun at' tid => ((model.forwardTokenHidden at'.1 tid at'.2).2,at'.2+1)) (kv,pos)

/-- What the prompt leaves: the caches, the next position and the first token. -/
structure Prompted where
  kv : List Row
  startPos : ℕ
  first : UInt32

/-- The pending token of the session and the prompt; an empty prompt is refused. -/
def ingestPrompt (session : SessionKv) (promptIds : List UInt32) (params : π) : Option Prompted :=
  let (kv,startPos) := ingestTokens model session.history session.position
    session.pendingToken.toList
  let (kv,finalPromptPos) := ingestTokens model kv startPos promptIds.dropLast
  match promptIds.getLast? with
  | none => none
  | some finalPrompt =>
    let (finalHidden,kv) := model.forwardTokenHidden kv finalPrompt finalPromptPos
    some ⟨kv,finalPromptPos+1,model.sample finalHidden params finalPromptPos⟩

/-- The state of the loops of `generate`. -/
structure Generating where
  kv : List Row
  completionIds : List UInt32
  last : UInt32
  startPos : ℕ

/-- The sequential loop. -/
def decodeLoop (maxTokens : ℕ) (params : π) (self : Generating) : Generating :=
  if self.completionIds.length < maxTokens then
    let (next,kv) := model.decodeStep self.kv self.last self.startPos params
    decodeLoop maxTokens params ⟨kv,self.completionIds++[next],next,self.startPos+1⟩
  else self
termination_by maxTokens-self.completionIds.length
decreasing_by simp only [List.length_append, List.length_cons, List.length_nil]; omega

/-- The accepted tokens that still fit. -/
def pushAccepted (maxTokens : ℕ) : List UInt32 → Generating → Generating
  | [], self => self
  | tok::accepted, self =>
    if maxTokens ≤ self.completionIds.length then self
    else pushAccepted maxTokens accepted
      { self with completionIds := self.completionIds++[tok], startPos := self.startPos+1 }

lemma pushAccepted_fits {maxTokens : ℕ} (accepted : List UInt32) : ∀ self : Generating,
    self.completionIds.length+accepted.length ≤ maxTokens →
      pushAccepted maxTokens accepted self = { self with
        completionIds := self.completionIds++accepted
        startPos := self.startPos+accepted.length } := by
  induction accepted with
  | nil =>
    intro self _
    simp [pushAccepted]
  | cons tok accepted ih =>
    intro self h
    rw [List.length_cons] at h
    rw [pushAccepted, if_neg (by omega), ih _ (by simp; omega)]
    simp
    omega

lemma length_le_pushAccepted (maxTokens : ℕ) (accepted : List UInt32) : ∀ self : Generating,
    self.completionIds.length ≤ (pushAccepted maxTokens accepted self).completionIds.length := by
  induction accepted with
  | nil => exact fun _ => le_rfl
  | cons tok accepted ih =>
    intro self
    rw [pushAccepted]
    split_ifs
    · exact le_rfl
    · refine le_trans ?_ (ih _)
      simp

lemma length_lt_pushAccepted {maxTokens : ℕ} {accepted : List UInt32} {self : Generating}
    (hne : accepted ≠ []) (hroom : self.completionIds.length < maxTokens) :
    self.completionIds.length<(pushAccepted maxTokens accepted self).completionIds.length := by
  obtain ⟨tok,rest,rfl⟩ := List.exists_cons_of_ne_nil hne
  rw [pushAccepted, if_neg (by omega)]
  refine lt_of_lt_of_le ?_ (length_le_pushAccepted maxTokens rest _)
  simp

/-- The speculative loop. -/
def speculativeLoop (maxTokens k : ℕ) (draft : DraftEngine) (self : Generating) : Generating :=
  if _h : self.completionIds.length < maxTokens then
    let stepK := min k (maxTokens-self.completionIds.length)
    let result := model.stepSpeculative draft self.last self.startPos self.kv stepK
    let pushed := pushAccepted maxTokens result.1 { self with kv := result.2 }
    speculativeLoop maxTokens k draft { pushed with last := result.1.getLastD self.last }
  else self
termination_by maxTokens-self.completionIds.length
decreasing_by
  have hlt := @length_lt_pushAccepted maxTokens (model.stepSpeculative draft self.last self.startPos
    self.kv (min k (maxTokens-self.completionIds.length))).1 { self with kv :=
      (model.stepSpeculative draft self.last self.startPos self.kv
        (min k (maxTokens-self.completionIds.length))).2 }
    (RealModel.accepted_ne_nil draft _ _ _ _) _h
  dsimp only at hlt ⊢
  omega

/-- The loop a request takes: only a greedy one is speculated. -/
def generateLoop (config : Config) (maxTokens : ℕ) (params : π) (self : Generating) : Generating :=
  match config.draftEngine with
  | some draft =>
    if 1 < config.speculationK ∧ model.isGreedy params = true then
      speculativeLoop model maxTokens config.speculationK draft self
    else decodeLoop model maxTokens params self
  | none => decodeLoop model maxTokens params self

/-- `generate`: the completion and what the session keeps. -/
def generate (config : Config) (promptIds : List UInt32) (maxTokens : ℕ) (params : π)
    (session : SessionKv) : Option (List UInt32 × SessionKv) :=
  (ingestPrompt model session promptIds params).map fun prompted =>
    let done := generateLoop model config maxTokens params
      ⟨prompted.kv,[prompted.first],prompted.first,prompted.startPos⟩
    (done.completionIds,⟨done.kv,done.startPos,done.completionIds.getLast?⟩)

/-- The state of `stream_tokens` between two polls. -/
structure Stream where
  kv : List Row
  lastToken : UInt32
  position : ℕ
  pendingEmit : Option UInt32
  completionIds : List UInt32
  emitted : ℕ
  maxTokens : ℕ
  finishedEmitted : Bool
  saved : Option SessionKv

namespace Stream

def start (maxTokens : ℕ) (prompted : Prompted) : Stream :=
  ⟨prompted.kv,prompted.first,prompted.startPos,some prompted.first,[],0,maxTokens,false,none⟩

/-- The token of a poll: the one of the prompt first, then one decode step each. -/
def next (params : π) (self : Stream) : UInt32 × Stream :=
  match self.pendingEmit with
  | some n => (n,{ self with pendingEmit := none })
  | none =>
    let (n,kv) := model.decodeStep self.kv self.lastToken self.position params
    (n,{ self with kv, position := self.position+1 })

/-- A poll: a token, or the session is saved and the stream ends. -/
def poll (params : π) (self : Stream) : Option (Option UInt32 × Stream) :=
  if self.finishedEmitted then none
  else if self.maxTokens ≤ self.emitted then
    some (none,{ self with
      finishedEmitted := true
      saved := some ⟨self.kv,self.position,self.completionIds.getLast?⟩ })
  else
    let (token,stream) := self.next model params
    some (some token,{ stream with
      lastToken := token
      completionIds := stream.completionIds++[token]
      emitted := stream.emitted+1 })

/-- The polls that are left. -/
def pollsLeft (self : Stream) : ℕ :=
  (self.maxTokens-self.emitted)+if self.finishedEmitted then 0 else 1

lemma next_kept (params : π) (self : Stream) : (self.next model params).2.emitted = self.emitted ∧
    (self.next model params).2.maxTokens = self.maxTokens ∧
      (self.next model params).2.finishedEmitted = self.finishedEmitted := by
  unfold next
  cases self.pendingEmit <;> exact ⟨rfl,rfl,rfl⟩

lemma pollsLeft_poll {params : π} {self stream : Stream} {chunk : Option UInt32}
    (h : self.poll model params = some (chunk,stream)) : stream.pollsLeft<self.pollsLeft := by
  unfold poll at h
  have hkept := next_kept model params self
  generalize self.next model params = stepped at h hkept
  obtain ⟨hemitted,hmax,hfinished⟩ := hkept
  split_ifs at h with hdone hfull
  · cases h
    simp [pollsLeft, hdone]
  · cases h
    simp [pollsLeft, hemitted, hmax, hfinished, hdone]
    omega

/-- The stream is polled until it ends. -/
def drain (params : π) (self : Stream) : Stream :=
  match _h : self.poll model params with
  | none => self
  | some (_,stream) => stream.drain params
termination_by self.pollsLeft
decreasing_by exact pollsLeft_poll model _h

end Stream

/-- `stream_tokens`, polled to its end. -/
def streamTokens (promptIds : List UInt32) (maxTokens : ℕ) (params : π) (session : SessionKv) :
    Option (List UInt32 × SessionKv) :=
  (ingestPrompt model session promptIds params).bind fun prompted =>
    let done := (Stream.start maxTokens prompted).drain model params
    done.saved.map fun saved => (done.completionIds,saved)

end MicroExpertRouter.Generation
