import MicroExpertRouter.Generation.Decoding
import MicroExpertRouter.Lib.Machine
import MicroExpertRouter.Lib.SharedPrefix

/-! `step_speculative` of `draft.rs` with any draft and any verifier: its tokens and KV caches are those
of the greedy steps that it stands for. -/
namespace MicroExpertRouter.Generation
open Scheduler (Row)

/-- How a speculative step ends early. -/
inductive SpeculationFailure (ε : Type)
  | error (e : ε)
  | panic
  deriving DecidableEq, Repr

structure SpeculativeStepResult where
  accepted : List UInt32
  acceptedLen : ℕ
  warmedExperts : ℕ
  deriving DecidableEq, Repr

/-- The main model with greedy sampling: a step changes the KV caches, also when it fails. What it
reads of the engine does not depend on the experts that are warm. -/
structure Verifier (ε κ : Type) where
  step : UInt32 → UInt64 → EStateM ε κ UInt32
  peekExperts : UInt32 → List UInt32
  overflowChecks : Bool

namespace Verifier
variable {ε κ : Type} (self : Verifier ε κ)

/-- `self.step(engine, cur, pos + i, kv, &greedy)`. -/
def stepAt (pos : UInt64) (i : ℕ) (cur : UInt32) : EStateM (SpeculationFailure ε) κ UInt32 := fun kv =>
  if self.overflowChecks ∧ 2^64 ≤ pos.toNat+i then .error .panic kv
  else
    match self.step cur (pos+UInt64.ofNat i) kv with
    | .ok next kv' => .ok next kv'
    | .error e kv' => .error (.error e) kv'

/-- The experts that the peeks at the drafted positions name. -/
def warmUnion (seedToken : UInt32) (drafts : List UInt32) : Finset UInt32 :=
  (drafts.foldl (fun state draftTok => (state.1 ∪ (self.peekExperts state.2).toFinset,draftTok))
    ((∅ : Finset UInt32),seedToken)).1

/-- The loop over the drafts from the `i`-th one on. -/
def verifyDrafts (pos : UInt64) : ℕ → UInt32 → List UInt32 → ℕ → List UInt32 →
    EStateM (SpeculationFailure ε) κ (List UInt32 × ℕ)
  | _, _, accepted, acceptedLen, [] => pure (accepted,acceptedLen)
  | i, cur, accepted, acceptedLen, draftTok::drafts => do
    let next ← self.stepAt pos i cur
    if next ≠ draftTok then pure (accepted++[next],acceptedLen)
    else verifyDrafts pos (i+1) next (accepted++[next]) (acceptedLen+1) drafts

/-- The step on the tokens that were drafted. -/
def stepOnDrafts (seedToken : UInt32) (pos : UInt64) (drafts : List UInt32) :
    EStateM (SpeculationFailure ε) κ SpeculativeStepResult := do
  let verified ← self.verifyDrafts pos 0 seedToken [] 0 drafts
  if verified.1 = [] then do
    let next ← self.stepAt pos 0 seedToken
    pure ⟨[next],verified.2,(self.warmUnion seedToken drafts).card⟩
  else pure ⟨verified.1,verified.2,(self.warmUnion seedToken drafts).card⟩

def stepSpeculative (draft : UInt32 → ℕ → List UInt32) (seedToken : UInt32) (pos : UInt64) (k : ℕ) :
    EStateM (SpeculationFailure ε) κ SpeculativeStepResult :=
  self.stepOnDrafts seedToken pos (draft seedToken k)

/-- So many greedy steps, the first of them the `i`-th from the start. -/
def greedySteps (pos : UInt64) : ℕ → ℕ → UInt32 → EStateM (SpeculationFailure ε) κ (List UInt32)
  | 0, _, _ => pure []
  | n+1, i, cur => do
    let next ← self.stepAt pos i cur
    let rest ← greedySteps pos n (i+1) next
    pure (next::rest)

/-- The tokens of at most so many greedy steps, up to the first that fails. -/
def continuation (pos : UInt64) : ℕ → ℕ → UInt32 → κ → List UInt32
  | 0, _, _, _ => []
  | n+1, i, cur, kv =>
    match self.stepAt pos i cur kv with
    | .ok next kv' => next::continuation pos n (i+1) next kv'
    | .error _ _ => []

variable {self} {pos : UInt64} {i : ℕ} {cur next : UInt32} {kv kv' : κ}

lemma greedySteps_succ (h : self.stepAt pos i cur kv = .ok next kv') {n : ℕ} {tokens : List UInt32}
    {kv'' : κ} (hrest : self.greedySteps pos n (i+1) next kv' = .ok tokens kv'') :
    self.greedySteps pos (n+1) i cur kv = .ok (next::tokens) kv'' := by
  rw [greedySteps, run_bind_ok h, run_bind_ok hrest]
  rfl

lemma continuation_succ (h : self.stepAt pos i cur kv = .ok next kv') (n : ℕ) :
    self.continuation pos (n+1) i cur kv = next::self.continuation pos n (i+1) next kv' := by
  rw [continuation, h]

/-- Greedy steps that all succeed give the continuation. -/
theorem continuation_of_greedySteps {n : ℕ} : ∀ {i cur} {kv : κ} {tokens : List UInt32},
    self.greedySteps pos n i cur kv = .ok tokens kv' → self.continuation pos n i cur kv = tokens := by
  induction n with
  | zero =>
    intro i cur kv tokens h
    cases h
    rfl
  | succ n ih =>
    intro i cur kv tokens h
    cases hstep : self.stepAt pos i cur kv with
    | error e kv'' =>
      rw [greedySteps, run_bind_error hstep] at h
      cases h
    | ok next kv'' =>
      rw [greedySteps, run_bind_ok hstep] at h
      cases hrest : self.greedySteps pos n (i+1) next kv'' with
      | error e kv''' =>
        rw [run_bind_error hrest] at h
        cases h
      | ok rest kv''' =>
        rw [run_bind_ok hrest] at h
        cases h
        rw [continuation_succ hstep, ih hrest]

/-- What the loop does from the `i`-th draft on: it accepts the tokens of some greedy steps, of which
it counts those that begin both the drafts and the continuation. -/
structure Accepts (self : Verifier ε κ) (pos : UInt64) (i : ℕ) (cur : UInt32) (kv kv' : κ)
    (drafts tokens : List UInt32) (matched : ℕ) : Prop where
  steps : self.greedySteps pos tokens.length i cur kv = .ok tokens kv'
  shared : ∀ n, drafts.length ≤ n →
    matched = SharedPrefix.shared drafts (self.continuation pos n i cur kv)
  length : tokens.length = min (matched+1) drafts.length

lemma verifyDrafts_accepts (drafts : List UInt32) : ∀ {i cur kv accepted acceptedLen} {kv' : κ}
    {result : List UInt32 × ℕ},
    self.verifyDrafts pos i cur accepted acceptedLen drafts kv = .ok result kv' →
      ∃ tokens matched, result = (accepted++tokens,acceptedLen+matched) ∧
        Accepts self pos i cur kv kv' drafts tokens matched := by
  induction drafts with
  | nil =>
    intro i cur kv accepted acceptedLen kv' result h
    cases h
    refine ⟨[],0,by rw [List.append_nil, Nat.add_zero],⟨rfl,fun n _ => rfl,rfl⟩⟩
  | cons draftTok drafts ih =>
    intro i cur kv accepted acceptedLen kv' result h
    rw [verifyDrafts] at h
    cases hstep : self.stepAt pos i cur kv with
    | error e kv'' =>
      rw [run_bind_error hstep] at h
      cases h
    | ok next kv'' =>
      rw [run_bind_ok hstep] at h
      by_cases heq : next = draftTok
      · rw [if_neg (not_not.mpr heq)] at h
        obtain ⟨tokens,matched,rfl,hsteps,hmatched,hlength⟩ := ih h
        refine ⟨next::tokens,matched+1,?_,greedySteps_succ hstep hsteps,fun n hn => ?_,?_⟩
        · rw [List.append_assoc, List.singleton_append, Nat.add_assoc, Nat.add_comm 1]
        · rw [List.length_cons] at hn
          obtain ⟨m,rfl⟩ := Nat.exists_eq_succ_of_ne_zero (show n ≠ 0 by omega)
          rw [Nat.succ_eq_add_one, continuation_succ hstep, heq, SharedPrefix.shared_cons_self,
            hmatched m (by omega), heq]
        · rw [List.length_cons, List.length_cons, hlength]
          omega
      · -- the token of the verifier takes the place of the draft
        rw [if_pos heq] at h
        cases h
        refine ⟨[next],0,rfl,greedySteps_succ hstep rfl,fun n hn => ?_,?_⟩
        · rw [List.length_cons] at hn
          obtain ⟨m,rfl⟩ := Nat.exists_eq_succ_of_ne_zero (show n ≠ 0 by omega)
          rw [Nat.succ_eq_add_one, continuation_succ hstep,
            SharedPrefix.shared_cons_ne (Ne.symm heq)]
        · rw [List.length_cons, List.length_cons, List.length_nil]
          omega

/-- A speculative step is as many greedy steps as it accepts tokens, and it counts the drafts that
those steps confirm. -/
theorem stepSpeculative_lossless {draft : UInt32 → ℕ → List UInt32} {seedToken : UInt32} {k : ℕ}
    {result : SpeculativeStepResult}
    (h : self.stepSpeculative draft seedToken pos k kv = .ok result kv') :
    result.accepted ≠ [] ∧
      self.greedySteps pos result.accepted.length 0 seedToken kv = .ok result.accepted kv' ∧
      (∀ n, (draft seedToken k).length ≤ n →
        IsGreatest {m | ∃ front, front <+: draft seedToken k ∧
          front <+: self.continuation pos n 0 seedToken kv ∧ front.length = m} result.acceptedLen) ∧
      result.accepted.length = if draft seedToken k = [] then 1
        else min (result.acceptedLen+1) (draft seedToken k).length := by
  rw [stepSpeculative, stepOnDrafts] at h
  cases hverify : self.verifyDrafts pos 0 seedToken [] 0 (draft seedToken k) kv with
  | error e kv'' =>
    rw [run_bind_error hverify] at h
    cases h
  | ok verified kv'' =>
    rw [run_bind_ok hverify] at h
    obtain ⟨tokens,matched,rfl,hsteps,hmatched,hlength⟩ := verifyDrafts_accepts _ hverify
    rw [List.nil_append, Nat.zero_add] at h
    have hgreatest : ∀ n, (draft seedToken k).length ≤ n →
        IsGreatest {m | ∃ front, front <+: draft seedToken k ∧
          front <+: self.continuation pos n 0 seedToken kv ∧ front.length = m} matched := by
      intro n hn
      rw [hmatched n hn]
      exact SharedPrefix.isGreatest_shared _ _
    by_cases hempty : tokens = []
    · subst hempty
      have hdrafts : draft seedToken k = [] := by
        rw [List.length_nil] at hlength
        exact List.length_eq_zero_iff.mp (by omega)
      cases hsteps
      rw [if_pos rfl] at h
      cases hstep : self.stepAt pos 0 seedToken kv with
      | error e kv'' =>
        rw [run_bind_error hstep] at h
        cases h
      | ok next kv'' =>
        rw [run_bind_ok hstep] at h
        cases h
        exact ⟨List.cons_ne_nil _ _,greedySteps_succ hstep rfl,hgreatest,(if_pos hdrafts).symm⟩
    · rw [if_neg hempty] at h
      cases h
      have hdrafts : draft seedToken k ≠ [] := by
        intro hnil
        rw [hnil, List.length_nil, Nat.min_zero] at hlength
        exact hempty (List.length_eq_zero_iff.mp hlength)
      exact ⟨hempty,hsteps,hgreatest,hlength.trans (if_neg hdrafts).symm⟩

/-- One step of a verifier that counts what it was given. -/
def counting : Verifier String ℕ where
  step := fun cur _ kv => if cur = 9 then .error "no more" kv else .ok (cur+1) (kv+1)
  peekExperts := fun cur => [cur % 4]
  overflowChecks := true

theorem stepSpeculative_lossless_two :
    counting.stepSpeculative (fun _ _ => [6,8,9]) 5 0 3 0 = .ok ⟨[6,7],1,3⟩ 2 ∧
      counting.greedySteps 0 2 0 5 0 = .ok [6,7] 2 :=
  ⟨rfl,(@stepSpeculative_lossless String ℕ counting 0 0 2 (fun _ _ => [6,8,9]) 5 3
    ⟨[6,7],1,3⟩ rfl).2.1⟩

end Verifier

section Caches
variable {η π : Type} {model : RealModel η π} {peekExperts : UInt32 → List UInt32} {checks : Bool}

/-- The model of KV caches that keep their tokens, as a verifier. -/
def RealModel.verifier (model : RealModel η π) (peekExperts : UInt32 → List UInt32) (checks : Bool) :
    Verifier Empty (List Row) where
  step := fun tokenId pos kv =>
    .ok (model.decodeStep kv tokenId pos.toNat model.greedy).1
      (model.decodeStep kv tokenId pos.toNat model.greedy).2
  peekExperts
  overflowChecks := checks

lemma stepAt_verifier {pos : UInt64} {i : ℕ} (hpos : pos.toNat+i<2^64) (cur : UInt32)
    (kv : List Row) : (model.verifier peekExperts checks).stepAt pos i cur kv =
      .ok (model.decodeStep kv cur (pos.toNat+i) model.greedy).1
        (model.decodeStep kv cur (pos.toNat+i) model.greedy).2 := by
  have hplace : (pos+UInt64.ofNat i).toNat = pos.toNat+i := by
    rw [UInt64.toNat_add, UInt64.toNat_ofNat', Nat.add_mod_mod, Nat.mod_eq_of_lt hpos]
  unfold Verifier.stepAt
  rw [if_neg (fun h => absurd h.2 (Nat.not_le.mpr hpos))]
  unfold RealModel.verifier
  dsimp only
  rw [hplace]

/-- The loop of `verify` is this one. -/
lemma verifyDrafts_verifier {pos : UInt64} (drafts : List UInt32) :
    ∀ {i : ℕ} {cur : UInt32} {kv : List Row} {accepted : List UInt32} {acceptedLen : ℕ},
      pos.toNat+i+drafts.length<2^64 → ∃ matched,
        (model.verifier peekExperts checks).verifyDrafts pos i cur accepted acceptedLen drafts kv =
          .ok (accepted++(model.verify kv cur (pos.toNat+i) drafts).1,acceptedLen+matched)
            (model.verify kv cur (pos.toNat+i) drafts).2 := by
  induction drafts with
  | nil =>
    intro i cur kv accepted acceptedLen _
    refine ⟨0,?_⟩
    rw [RealModel.verify, List.append_nil]
    rfl
  | cons draftTok drafts ih =>
    intro i cur kv accepted acceptedLen hpos
    rw [List.length_cons] at hpos
    have hstep := @stepAt_verifier η π model peekExperts checks pos i (by omega) cur kv
    rw [Verifier.verifyDrafts, run_bind_ok hstep, RealModel.verify]
    dsimp only
    by_cases heq : (model.decodeStep kv cur (pos.toNat+i) model.greedy).1 = draftTok
    · obtain ⟨matched,hrest⟩ := @ih (i+1) (model.decodeStep kv cur (pos.toNat+i) model.greedy).1
        (model.decodeStep kv cur (pos.toNat+i) model.greedy).2
        (accepted++[(model.decodeStep kv cur (pos.toNat+i) model.greedy).1]) (acceptedLen+1)
        (by omega)
      refine ⟨matched+1,?_⟩
      rw [if_neg (not_not.mpr heq), if_neg (not_not.mpr heq), hrest, List.append_assoc,
        Nat.add_assoc, Nat.add_comm 1]
      rfl
    · refine ⟨0,?_⟩
      rw [if_pos heq, if_pos heq]
      rfl

/-- The speculative step on KV caches that keep their tokens is an instance. -/
theorem stepSpeculative_verifier (draft : DraftEngine) (seedToken : UInt32) {pos : UInt64} {k : ℕ}
    (hpos : pos.toNat+k<2^64) (kv : List Row) : ∃ acceptedLen warmedExperts,
      (model.verifier peekExperts checks).stepSpeculative draft.draft seedToken pos k kv =
        .ok ⟨(model.stepSpeculative draft seedToken pos.toNat kv k).1,acceptedLen,warmedExperts⟩
          (model.stepSpeculative draft seedToken pos.toNat kv k).2 := by
  obtain ⟨matched,hverify⟩ := @verifyDrafts_verifier η π model peekExperts checks pos
    (draft.draft seedToken k) 0 seedToken kv [] 0 (by rw [DraftEngine.length_draft]; omega)
  rw [List.nil_append, Nat.add_zero, Nat.zero_add] at hverify
  have hstep := @stepAt_verifier η π model peekExperts checks pos 0 (by omega) seedToken
  refine ⟨matched,((model.verifier peekExperts checks).warmUnion seedToken
    (draft.draft seedToken k)).card,?_⟩
  rw [Verifier.stepSpeculative, Verifier.stepOnDrafts, run_bind_ok hverify, RealModel.stepSpeculative]
  dsimp only
  split_ifs with hempty
  · rw [run_bind_ok (hstep _)]
    rfl
  · rfl

end Caches

end MicroExpertRouter.Generation
