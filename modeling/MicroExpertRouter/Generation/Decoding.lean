import MicroExpertRouter.Scheduler.Registry

/-! The model as a function of the tokens in its KV caches, and the speculative step of `draft.rs`:
however many draft tokens are accepted, it is that many decode steps. -/
namespace MicroExpertRouter.Generation
open Scheduler (Row)

/-- A model whose greedy parameters behave alike. -/
structure RealModel (η π : Type) where
  forward : List Row → UInt32 → ℕ → η
  sample : η → π → ℕ → UInt32
  isGreedy : π → Bool
  greedy : π
  isGreedy_greedy : isGreedy greedy = true
  greedy_alike : ∀ hidden p q pos, isGreedy p = true → isGreedy q = true →
    sample hidden p pos = sample hidden q pos

/-- The small engine that proposes tokens. -/
structure DraftEngine where
  predictNext : UInt32 → UInt32

def DraftEngine.draft (self : DraftEngine) (seedToken : UInt32) : ℕ → List UInt32
  | 0 => []
  | k+1 => self.predictNext seedToken::self.draft (self.predictNext seedToken) k

@[simp] lemma DraftEngine.length_draft (self : DraftEngine) (k : ℕ) : ∀ seedToken,
    (self.draft seedToken k).length = k := by
  induction k with
  | zero => exact fun _ => rfl
  | succ k ih => exact fun seedToken => congrArg (·+1) (ih _)

namespace RealModel
variable {η π : Type} (model : RealModel η π)

def forwardTokenHidden (kv : List Row) (tokenId : UInt32) (pos : ℕ) : η × List Row :=
  (model.forward kv tokenId pos,kv++[⟨tokenId,pos⟩])

def decodeStep (kv : List Row) (tokenId : UInt32) (pos : ℕ) (params : π) : UInt32 × List Row :=
  let (hidden,kv') := model.forwardTokenHidden kv tokenId pos
  (model.sample hidden params pos,kv')

/-- The verifying loop of `step_speculative`. -/
def verify (kv : List Row) (cur : UInt32) (pos : ℕ) : List UInt32 → List UInt32 × List Row
  | [] => ([],kv)
  | draftTok::drafts =>
    let (next,kv') := model.decodeStep kv cur pos model.greedy
    if next ≠ draftTok then ([next],kv')
    else
      let (accepted,kv'') := verify kv' next (pos+1) drafts
      (next::accepted,kv'')

/-- `step_speculative`: the accepted tokens and the caches. -/
def stepSpeculative (draft : DraftEngine) (seedToken : UInt32) (pos : ℕ) (kv : List Row) (k : ℕ) :
    List UInt32 × List Row :=
  let (accepted,kv') := model.verify kv seedToken pos (draft.draft seedToken k)
  if accepted = [] then
    let (next,kv'') := model.decodeStep kv' seedToken pos model.greedy
    ([next],kv'')
  else (accepted,kv')

/-- So many decode steps, one after the other. -/
def decodeMany (params : π) : ℕ → List Row → UInt32 → ℕ → List UInt32 × List Row
  | 0, kv, _, _ => ([],kv)
  | n+1, kv, last, pos =>
    let (next,kv') := model.decodeStep kv last pos params
    let (rest,kv'') := decodeMany params n kv' next (pos+1)
    (next::rest,kv'')

variable {model} {params : π}

@[simp] lemma length_decodeMany (n : ℕ) : ∀ kv last pos,
    (model.decodeMany params n kv last pos).1.length = n := by
  induction n with
  | zero => exact fun _ _ _ => rfl
  | succ n ih => exact fun kv last pos => congrArg (·+1) (ih _ _ _)

/-- Decode steps continue from the last token of the ones before. -/
lemma decodeMany_add (a b : ℕ) : ∀ kv last pos, model.decodeMany params (a+b) kv last pos =
    let first := model.decodeMany params a kv last pos
    let second := model.decodeMany params b first.2 (first.1.getLastD last) (pos+a)
    (first.1++second.1,second.2) := by
  induction a with
  | zero =>
    intro kv last pos
    simp [decodeMany]
  | succ a ih =>
    intro kv last pos
    rw [Nat.add_right_comm, decodeMany, decodeMany]
    dsimp only
    have hpos : pos+1+a = pos+(a+1) := by omega
    rw [ih, hpos]
    dsimp only
    rw [List.getLastD_cons]
    rfl

lemma decodeStep_greedy (hgreedy : model.isGreedy params = true) (kv : List Row)
    (tokenId : UInt32) (pos : ℕ) :
    model.decodeStep kv tokenId pos model.greedy = model.decodeStep kv tokenId pos params := by
  unfold decodeStep
  dsimp only
  rw [model.greedy_alike _ _ params pos model.isGreedy_greedy hgreedy]

/-- The verifying loop makes as many decode steps as it accepts tokens. -/
lemma verify_eq (hgreedy : model.isGreedy params = true) (drafts : List UInt32) : ∀ kv cur pos,
    ∃ m ≤ drafts.length, (drafts ≠ [] → 0 < m) ∧
      model.verify kv cur pos drafts = model.decodeMany params m kv cur pos := by
  induction drafts with
  | nil => exact fun kv cur pos => ⟨0,le_rfl,fun h => absurd rfl h,rfl⟩
  | cons draftTok drafts ih =>
    intro kv cur pos
    unfold verify
    rw [decodeStep_greedy hgreedy]
    dsimp only
    by_cases heq : (model.decodeStep kv cur pos params).1 = draftTok
    · obtain ⟨m,hm,-,hverify⟩ := ih (model.decodeStep kv cur pos params).2
        (model.decodeStep kv cur pos params).1 (pos+1)
      refine ⟨m+1,by simpa using hm,fun _ => Nat.succ_pos m,?_⟩
      rw [if_neg (not_not.mpr heq), hverify]
      rfl
    · refine ⟨1,by simp,fun _ => Nat.one_pos,?_⟩
      rw [if_pos heq]
      rfl

/-- A speculative step is some decode steps, at least one and at most as many as it may draft. -/
theorem stepSpeculative_eq (hgreedy : model.isGreedy params = true) (draft : DraftEngine)
    (seedToken : UInt32) (pos : ℕ) (kv : List Row) {k : ℕ} (hk : 0 < k) : ∃ m, 0 < m ∧ m ≤ k ∧
      model.stepSpeculative draft seedToken pos kv k = model.decodeMany params m kv seedToken pos := by
  obtain ⟨m,hm,hpos,hverify⟩ := verify_eq hgreedy (draft.draft seedToken k) kv seedToken pos
  have hne : draft.draft seedToken k ≠ [] := by
    intro hnil
    have hlength := congrArg List.length hnil
    rw [DraftEngine.length_draft, List.length_nil] at hlength
    omega
  have hmpos := hpos hne
  rw [DraftEngine.length_draft] at hm
  refine ⟨m,hmpos,hm,?_⟩
  have haccepted : (model.decodeMany params m kv seedToken pos).1 ≠ [] := by
    intro hnil
    have hlength := congrArg List.length hnil
    rw [length_decodeMany, List.length_nil] at hlength
    omega
  unfold stepSpeculative
  rw [hverify]
  dsimp only
  rw [if_neg haccepted]

/-- A speculative step always gives a token. -/
lemma accepted_ne_nil (draft : DraftEngine) (seedToken : UInt32) (pos : ℕ) (kv : List Row) (k : ℕ) :
    (model.stepSpeculative draft seedToken pos kv k).1 ≠ [] := by
  unfold stepSpeculative
  dsimp only
  split_ifs with h
  · exact List.cons_ne_nil _ _
  · exact h

end RealModel

end MicroExpertRouter.Generation
