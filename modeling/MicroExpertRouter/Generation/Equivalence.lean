import MicroExpertRouter.Generation.Paths

/-! All paths of a request give what so many decode steps give after its prompt. -/
namespace MicroExpertRouter.Generation
open Scheduler (Row)

variable {η π : Type} {model : RealModel η π} {params : π}

/-- A request as the prompt and so many decode steps behind it. -/
def respond (model : RealModel η π) (promptIds : List UInt32) (maxTokens : ℕ) (params : π)
    (session : SessionKv) : Option (List UInt32 × SessionKv) :=
  (ingestPrompt model session promptIds params).map fun prompted =>
    let rest := model.decodeMany params (maxTokens-1) prompted.kv prompted.first prompted.startPos
    (prompted.first::rest.1,
      ⟨rest.2,prompted.startPos+(maxTokens-1),(prompted.first::rest.1).getLast?⟩)

section Loops

/-- The state of a loop after so many decode steps. -/
def Generating.advance (model : RealModel η π) (params : π) (n : ℕ) (self : Generating) :
    Generating :=
  let rest := model.decodeMany params n self.kv self.last self.startPos
  ⟨rest.2,self.completionIds++rest.1,rest.1.getLastD self.last,self.startPos+n⟩

lemma getLastD_append {α : Type} (a b : List α) (d : α) :
    (a++b).getLastD d = b.getLastD (a.getLastD d) := by
  cases b using List.reverseRecOn with
  | nil => simp
  | append_singleton b x => simp

lemma advance_add (a b : ℕ) (self : Generating) : self.advance model params (a+b) =
    (self.advance model params a).advance model params b := by
  unfold Generating.advance
  rw [RealModel.decodeMany_add]
  dsimp only
  rw [getLastD_append, List.append_assoc, Nat.add_assoc]

lemma length_advance (n : ℕ) (self : Generating) :
    (self.advance model params n).completionIds.length = self.completionIds.length+n := by
  simp [Generating.advance]

/-- The sequential loop, by induction on the tokens that are left. -/
lemma decodeLoop_eq (maxTokens : ℕ) : ∀ (n : ℕ) (self : Generating),
    maxTokens-self.completionIds.length = n →
      decodeLoop model maxTokens params self = self.advance model params n := by
  intro n
  induction n with
  | zero =>
    intro self h
    rw [decodeLoop, if_neg (by omega)]
    simp [Generating.advance, RealModel.decodeMany]
  | succ n ih =>
    intro self h
    rw [decodeLoop, if_pos (by omega)]
    dsimp only
    rw [ih _ (by simp; omega), Nat.add_comm n 1, advance_add]
    rfl

/-- The speculative loop, by induction on the tokens that are left; each turn takes some of them. -/
lemma speculativeLoop_eq (hgreedy : model.isGreedy params = true) (maxTokens k : ℕ) (hk : 0 < k)
    (draft : DraftEngine) (n : ℕ) : ∀ self : Generating,
    maxTokens-self.completionIds.length = n →
      speculativeLoop model maxTokens k draft self = self.advance model params n := by
  induction n using Nat.strong_induction_on with
  | _ n ih =>
    intro self h
    rw [speculativeLoop]
    by_cases hroom : self.completionIds.length < maxTokens
    · rw [dif_pos hroom]
      dsimp only
      obtain ⟨m,hpos,hm,hstep⟩ := RealModel.stepSpeculative_eq hgreedy draft self.last self.startPos
        self.kv (show 0 < min k (maxTokens-self.completionIds.length) by omega)
      have hlength := @RealModel.length_decodeMany _ _ model params m self.kv
        self.last self.startPos
      rw [hstep, pushAccepted_fits _ _ (by dsimp only; omega), hlength]
      have hturn := ih (n-m) (by omega) (self.advance model params m)
        (by rw [length_advance]; omega)
      have hsplit : n = m+(n-m) := by omega
      rw [hsplit, advance_add, ← hturn]
      rfl
    · rw [dif_neg hroom]
      have hzero : n = 0 := by omega
      simp [hzero, Generating.advance, RealModel.decodeMany]

lemma generateLoop_eq (config : Config) (maxTokens : ℕ) (self : Generating) :
    generateLoop model config maxTokens params self =
      self.advance model params (maxTokens-self.completionIds.length) := by
  unfold generateLoop
  cases config.draftEngine with
  | none => exact decodeLoop_eq maxTokens _ self rfl
  | some draft =>
    dsimp only
    split_ifs with h
    · exact speculativeLoop_eq h.2 maxTokens config.speculationK (by omega) draft _ self rfl
    · exact decodeLoop_eq maxTokens _ self rfl

end Loops

/-- `generate` is a response, whatever it speculates. -/
theorem generate_eq (config : Config) (promptIds : List UInt32) (maxTokens : ℕ)
    (session : SessionKv) :
    generate model config promptIds maxTokens params session =
      respond model promptIds maxTokens params session := by
  unfold generate respond
  congr 1
  ext1 prompted
  rw [generateLoop_eq]
  rfl

section Streams

lemma drain_of_poll {stream next : Stream} {chunk : Option UInt32}
    (h : stream.poll model params = some (chunk,next)) :
    stream.drain model params = next.drain model params := by
  rw [Stream.drain]
  split
  · rename_i hnone
    rw [h] at hnone
    cases hnone
  · rename_i hsome
    rw [h] at hsome
    cases hsome
    rfl

lemma drain_of_finished {stream : Stream} (h : stream.finishedEmitted = true) :
    stream.drain model params = stream := by
  rw [Stream.drain]
  split
  · rfl
  · rename_i hsome
    rw [Stream.poll, if_pos h] at hsome
    cases hsome

/-- A stream behind its first token, by induction on the tokens that are left. -/
lemma drain_eq (maxTokens : ℕ) : ∀ (n : ℕ) (kv : List Row) (last : UInt32) (position emitted : ℕ)
    (ids : List UInt32), maxTokens-emitted = n →
    let stream := Stream.drain model params
      ⟨kv,last,position,none,ids,emitted,maxTokens,false,none⟩
    let rest := model.decodeMany params n kv last position
    stream.completionIds = ids++rest.1 ∧
      stream.saved = some ⟨rest.2,position+n,(ids++rest.1).getLast?⟩ := by
  intro n
  induction n with
  | zero =>
    intro kv last position emitted ids h
    dsimp only
    have hpoll : Stream.poll model params ⟨kv,last,position,none,ids,emitted,maxTokens,false,none⟩ =
        some (none,⟨kv,last,position,none,ids,emitted,maxTokens,true,
          some ⟨kv,position,ids.getLast?⟩⟩) := by
      rw [Stream.poll, if_neg Bool.false_ne_true, if_pos (by dsimp only; omega)]
    rw [drain_of_poll hpoll, drain_of_finished rfl]
    simp [RealModel.decodeMany]
  | succ n ih =>
    intro kv last position emitted ids h
    dsimp only
    obtain ⟨next,kv',hstep⟩ : ∃ next kv', model.decodeStep kv last position params = (next,kv') :=
      ⟨_,_,rfl⟩
    have hpoll : Stream.poll model params ⟨kv,last,position,none,ids,emitted,maxTokens,false,none⟩ =
        some (some next,⟨kv',next,position+1,none,ids++[next],emitted+1,maxTokens,false,none⟩) := by
      rw [Stream.poll, if_neg Bool.false_ne_true, if_neg (by dsimp only; omega)]
      simp [Stream.next, hstep]
    obtain ⟨hids,hsaved⟩ := ih kv' next (position+1) (emitted+1) (ids++[next]) (by omega)
    rw [drain_of_poll hpoll, hids, hsaved, RealModel.decodeMany, hstep]
    simp
    omega

end Streams

/-- A stream that is polled to its end is a response. -/
theorem streamTokens_eq (promptIds : List UInt32) {maxTokens : ℕ} (hmax : 1 ≤ maxTokens)
    (session : SessionKv) : streamTokens model promptIds maxTokens params session =
      respond model promptIds maxTokens params session := by
  unfold streamTokens respond
  rw [Option.map_eq_bind]
  congr 1
  ext1 prompted
  have hpoll : (Stream.start maxTokens prompted).poll model params = some (some prompted.first,
      ⟨prompted.kv,prompted.first,prompted.startPos,none,[prompted.first],1,maxTokens,false,
        none⟩) := by
    rw [Stream.poll, Stream.start]
    dsimp only
    rw [if_neg Bool.false_ne_true, if_neg (by omega)]
    rfl
  obtain ⟨hids,hsaved⟩ := @drain_eq _ _ model params maxTokens (maxTokens-1)
    prompted.kv prompted.first prompted.startPos 1 [prompted.first] rfl
  rw [drain_of_poll hpoll]
  dsimp only at hids hsaved ⊢
  rw [hids, hsaved]
  rfl

end MicroExpertRouter.Generation
