import Mathlib.Algebra.BigOperators.Group.Multiset.Basic
import Mathlib.Logic.Hydra
import Mathlib.Tactic

/-! Programs that share a state, one atomic operation at a time, in any order. A logic says what
each operation needs and what it leaves: a resource belongs to one program, so what the shared
state satisfies together with all the resources holds after every step of every program. -/
namespace MicroExpertRouter

/-- A program asks for one operation after the other and goes on with the answers. -/
inductive Program (Op : Type) (Answer : Op → Type) (α : Type)
  | done (a : α)
  | call (op : Op) (next : Answer op → Program Op Answer α)

namespace Program
variable {Op : Type} {Answer : Op → Type} {α β : Type}

def bind : Program Op Answer α → (α → Program Op Answer β) → Program Op Answer β
  | done a, f => f a
  | call op next, f => call op fun answer => (next answer).bind f

instance : Monad (Program Op Answer) where
  pure := done
  bind := bind

@[simp] lemma done_bind (a : α) (f : α → Program Op Answer β) :
    ((done a : Program Op Answer α) >>= f) = f a := rfl

@[simp] lemma call_bind (op : Op) (next : Answer op → Program Op Answer α)
    (f : α → Program Op Answer β) :
    (call op next >>= f) = call op fun answer => next answer >>= f := rfl

instance : LawfulMonad (Program Op Answer) := by
  refine LawfulMonad.mk' _ (fun p => ?_) (fun a f => rfl) (fun p f g => ?_)
  · change p >>= (pure ∘ id) = p
    induction p with
    | done a => rfl
    | call op next ih =>
      rw [call_bind]
      congr 1
      funext answer
      exact ih answer
  · induction p with
    | done a => rfl
    | call op next ih =>
      simp only [call_bind]
      congr 1
      funext answer
      exact ih answer

/-- A program of one operation. -/
def ask (op : Op) : Program Op Answer (Answer op) := call op done

end Program

/-- What the operations need and leave. An answer without anything left cannot occur. A resource
that an operation does not keep may not be held while it waits; a disposable one may be let go. -/
structure Logic (Op : Type) (Answer : Op → Type) (τ : Type) where
  rule : (op : Op) → Multiset τ → (Answer op → Option (Multiset τ)) → Prop
  keeps : Op → τ → Prop
  disposable : τ → Prop

section Ownership
variable {Op : Type} {Answer : Op → Type} {α τ : Type} {logic : Logic Op Answer τ}
  {goal : α → Multiset τ → Prop}

/-- From these resources on, the program does what the logic allows and ends as the goal says. -/
def Owns (logic : Logic Op Answer τ) (goal : α → Multiset τ → Prop) :
    Program Op Answer α → Multiset τ → Prop
  | .done a, held => goal a held
  | .call op next, held => ∃ needs leaves frame junk, logic.rule op needs leaves ∧
      held = needs+frame+junk ∧ (∀ t ∈ frame, logic.keeps op t) ∧
      (∀ t ∈ junk, logic.disposable t) ∧
      ∀ answer left, leaves answer = some left → Owns logic goal (next answer) (left+frame)

/-- An operation under a rule, with everything else kept. -/
lemma Owns.ask {β : Type} {op : Op} {f : Answer op → Program Op Answer β} {goal : β → Multiset τ → Prop}
    {held needs : Multiset τ} {leaves : Answer op → Option (Multiset τ)} (frame : Multiset τ)
    (hrule : logic.rule op needs leaves) (hheld : held = needs+frame)
    (hkeeps : ∀ t ∈ frame, logic.keeps op t)
    (hnext : ∀ answer left, leaves answer = some left → Owns logic goal (f answer) (left+frame)) :
    Owns logic goal (Program.ask op >>= f) held :=
  ⟨needs,leaves,frame,0,hrule,by rw [hheld, add_zero],hkeeps,
    fun _ hmem => absurd hmem (Multiset.notMem_zero _),hnext⟩

/-- An operation that needs nothing. -/
lemma Owns.look {β : Type} {op : Op} {f : Answer op → Program Op Answer β} {goal : β → Multiset τ → Prop}
    {held : Multiset τ} {leaves : Answer op → Option (Multiset τ)} (hrule : logic.rule op 0 leaves)
    (hkeeps : ∀ t ∈ held, logic.keeps op t)
    (hnext : ∀ answer left, leaves answer = some left → Owns logic goal (f answer) (left+held)) :
    Owns logic goal (Program.ask op >>= f) held :=
  .ask held hrule (zero_add _).symm hkeeps hnext

/-- What may be let go does no harm. -/
lemma Owns.more {p : Program Op Answer α} {held : Multiset τ} (t : τ) (ht : logic.disposable t)
    (hgoal : ∀ a held, goal a held → goal a ({t}+held)) (h : Owns logic goal p held) :
    Owns logic goal p ({t}+held) := by
  cases p with
  | done a => exact hgoal a held h
  | call op next =>
    obtain ⟨needs,leaves,frame,junk,hrule,rfl,hkeeps,hjunk,hnext⟩ := h
    refine ⟨needs,leaves,frame,{t}+junk,hrule,by abel,hkeeps,fun u hu => ?_,hnext⟩
    obtain hu | hu := Multiset.mem_add.mp hu
    · rwa [Multiset.mem_singleton.mp hu]
    · exact hjunk u hu

end Ownership

/-- Programs over one shared state. -/
structure Concurrent (σ Op : Type) (Answer : Op → Type) (α : Type) where
  shared : σ
  programs : List (Program Op Answer α)

namespace Concurrent
variable {σ Op Choice α τ : Type} {Answer : Op → Type}

/-- The next operation of one program; nothing when it has none, or has to wait. The choice settles
what the programs do not. -/
def step (exec : σ → (op : Op) → Choice → Option (Answer op × σ))
    (self : Concurrent σ Op Answer α) (turn : ℕ × Choice) : Option (Concurrent σ Op Answer α) :=
  match self.programs[turn.1]? with
  | some (.call op next) => (exec self.shared op turn.2).map fun result =>
      ⟨result.2,self.programs.set turn.1 (next result.1)⟩
  | some (.done _) => none
  | none => none

def run (exec : σ → (op : Op) → Choice → Option (Answer op × σ))
    (self : Concurrent σ Op Answer α) (turns : List (ℕ × Choice)) :
    Option (Concurrent σ Op Answer α) :=
  turns.foldlM (step exec) self

section Steps
variable {exec : σ → (op : Op) → Choice → Option (Answer op × σ)}
  {self next : Concurrent σ Op Answer α} {turn : ℕ × Choice}

/-- What one step does. -/
lemma step_cases (h : self.step exec turn = some next) :
    ∃ op rest answer shared, self.programs[turn.1]? = some (.call op rest) ∧
      exec self.shared op turn.2 = some (answer,shared) ∧
      next = ⟨shared,self.programs.set turn.1 (rest answer)⟩ := by
  unfold step at h
  split at h
  case h_1 op rest hprogram =>
    obtain ⟨⟨answer,shared⟩,hexec,rfl⟩ := Option.map_eq_some_iff.mp h
    exact ⟨op,rest,answer,shared,hprogram,hexec,rfl⟩
  case h_2 => cases h
  case h_3 => cases h

/-- What every step keeps, every run keeps. -/
lemma run_keeps {P : Concurrent σ Op Answer α → Prop}
    (hstep : ∀ self turn next, P self → step exec self turn = some next → P next)
    {turns : List (ℕ × Choice)} (h : P self) (hrun : self.run exec turns = some next) : P next := by
  induction turns generalizing self with
  | nil =>
    cases hrun
    exact h
  | cons turn turns ih =>
    rw [run, List.foldlM_cons] at hrun
    obtain ⟨middle,hmiddle,hrest⟩ := Option.bind_eq_some_iff.mp hrun
    exact ih (hstep self turn middle h hmiddle) hrest

lemma run_append (self : Concurrent σ Op Answer α) (turns more : List (ℕ × Choice)) :
    self.run exec (turns++more) = (self.run exec turns).bind fun next => next.run exec more := by
  rw [run, List.foldlM_append]
  rfl

/-- Every operation brings a program nearer to its end. -/
lemma next_wellFounded : WellFounded fun q p : Program Op Answer α =>
    ∃ op rest answer, p = .call op rest ∧ q = rest answer := by
  refine ⟨fun p => ?_⟩
  induction p with
  | done a => exact ⟨_,fun q ⟨_,_,_,hcall,_⟩ => nomatch hcall⟩
  | call op rest ih =>
    refine ⟨_,?_⟩
    rintro q ⟨op',rest',answer,hcall,rfl⟩
    cases hcall
    exact ih answer

/-- No run goes on forever. -/
lemma step_wellFounded :
    WellFounded fun next self : Concurrent σ Op Answer α => ∃ turn, self.step exec turn = some next := by
  refine Subrelation.wf ?_ (InvImage.wf (fun self : Concurrent σ Op Answer α =>
    (self.programs : Multiset (Program Op Answer α))) next_wellFounded.cutExpand)
  rintro next self ⟨turn,hstep⟩
  obtain ⟨op,rest,answer,shared,hprogram,-,rfl⟩ := step_cases hstep
  refine ⟨{rest answer},.call op rest,fun q hq => ?_,?_⟩
  · rw [Multiset.mem_singleton.mp hq]
    exact ⟨op,rest,answer,rfl,rfl⟩
  · obtain ⟨hi,hget⟩ := List.getElem?_eq_some_iff.mp hprogram
    have hset : turn.1<(self.programs.set turn.1 (rest answer)).length := by rwa [List.length_set]
    have hold := List.getElem_cons_eraseIdx_perm hi
    have hnew := List.getElem_cons_eraseIdx_perm hset
    rw [List.getElem_set_self, List.eraseIdx_set_eq] at hnew
    rw [hget] at hold
    dsimp only
    rw [← Multiset.coe_eq_coe.mpr hold, ← Multiset.coe_eq_coe.mpr hnew, ← Multiset.cons_coe,
      ← Multiset.cons_coe, ← Multiset.singleton_add, ← Multiset.singleton_add]
    abel

/-- With the choices that are allowed every state can be driven to one where all programs have ended
or wait. -/
theorem exhausts (allowed : Choice → Prop) (self : Concurrent σ Op Answer α) :
    ∃ turns last, self.run exec turns = some last ∧ (∀ turn ∈ turns, allowed turn.2) ∧
      ∀ i choice, allowed choice → last.step exec (i,choice) = none := by
  induction self using (@step_wellFounded _ _ _ _ _ exec).induction with
  | _ self ih =>
    by_cases hstuck : ∀ i choice, allowed choice → self.step exec (i,choice) = none
    · exact ⟨[],self,rfl,nofun,hstuck⟩
    · simp only [not_forall] at hstuck
      obtain ⟨i,choice,hallowed,hsome⟩ := hstuck
      obtain ⟨next,hnext⟩ := Option.ne_none_iff_exists'.mp hsome
      obtain ⟨turns,last,hrun,hturns,hlast⟩ := ih next ⟨_,hnext⟩
      refine ⟨(i,choice)::turns,last,?_,List.forall_mem_cons.mpr ⟨hallowed,hturns⟩,hlast⟩
      rw [run, List.foldlM_cons, hnext]
      exact hrun

/-- The operations that keep the shared state within bounds. -/
def within (ok : σ → Prop) [DecidablePred ok] (exec : σ → (op : Op) → Choice → Option (Answer op × σ))
    (s : σ) (op : Op) (choice : Choice) : Option (Answer op × σ) :=
  (exec s op choice).filter fun result => decide (ok result.2)

lemma within_eq_some {ok : σ → Prop} [DecidablePred ok] {s s' : σ} {op : Op} {choice : Choice}
    {answer : Answer op} : within ok exec s op choice = some (answer,s') ↔
      exec s op choice = some (answer,s') ∧ ok s' := by
  rw [within, Option.filter_eq_some_iff, decide_eq_true_iff]

/-- A state within bounds was reached within bounds, where no operation leads back. -/
lemma run_within {ok : σ → Prop} [DecidablePred ok]
    (hback : ∀ s op choice answer s', exec s op choice = some (answer,s') → ok s' → ok s)
    {turns : List (ℕ × Choice)} (hrun : self.run exec turns = some next) (hok : ok next.shared) :
    self.run (within ok exec) turns = some next := by
  have hstep : ∀ {self next : Concurrent σ Op Answer α} {turn : ℕ × Choice},
      self.step exec turn = some next → ok next.shared →
        ok self.shared ∧ self.step (within ok exec) turn = some next := by
    intro self next turn hstep hok
    obtain ⟨op,rest,answer,shared,hprogram,hexec,rfl⟩ := step_cases hstep
    refine ⟨hback _ _ _ _ _ hexec hok,?_⟩
    rw [step, hprogram]
    dsimp only
    rw [within_eq_some.mpr ⟨hexec,hok⟩]
    rfl
  have hall : ok self.shared ∧ self.run (within ok exec) turns = some next := by
    induction turns generalizing self with
    | nil =>
      cases hrun
      exact ⟨hok,rfl⟩
    | cons turn turns ih =>
      rw [run, List.foldlM_cons] at hrun
      obtain ⟨middle,hmiddle,hrest⟩ := Option.bind_eq_some_iff.mp hrun
      obtain ⟨hokMiddle,hrunMiddle⟩ := ih hrest
      obtain ⟨hokSelf,hstepSelf⟩ := hstep hmiddle hokMiddle
      refine ⟨hokSelf,?_⟩
      rw [run, List.foldlM_cons, hstepSelf]
      exact hrunMiddle
  exact hall.2

end Steps

/-- Every program owns resources with which it does what the logic allows, and all of them together
fit the shared state. -/
def Governed (logic : Logic Op Answer τ) (goal : α → Multiset τ → Prop) (Inv : σ → Multiset τ → Prop)
    (self : Concurrent σ Op Answer α) : Prop :=
  ∃ holdings : List (Multiset τ), List.Forall₂ (Owns logic goal) self.programs holdings ∧
    Inv self.shared holdings.sum

section Governing
variable {logic : Logic Op Answer τ} {goal : α → Multiset τ → Prop} {Inv : σ → Multiset τ → Prop}
  {self : Concurrent σ Op Answer α}

/-- One program, its resources, and those of all others. -/
lemma Governed.at (h : Governed logic goal Inv self) {i : ℕ} {p : Program Op Answer α}
    (hp : self.programs[i]? = some p) :
    ∃ held rest, Owns logic goal p held ∧ Inv self.shared (held+rest) := by
  obtain ⟨holdings,howns,hinv⟩ := h
  obtain ⟨hi,rfl⟩ := List.getElem?_eq_some_iff.mp hp
  have hi' : i<holdings.length := howns.length_eq ▸ hi
  refine ⟨holdings[i],(holdings.eraseIdx i).sum,howns.get hi hi',?_⟩
  have hsum : holdings[i]+(holdings.eraseIdx i).sum = holdings.sum := by
    rw [← List.sum_cons]
    exact (List.getElem_cons_eraseIdx_perm hi').sum_eq
  rwa [hsum]

/-- Every resource is with one of the programs. -/
lemma Governed.owners (h : Governed logic goal Inv self) : ∃ all, Inv self.shared all ∧
    ∀ t ∈ all, ∃ (i : ℕ) (p : Program Op Answer α) (held : Multiset τ), self.programs[i]? = some p ∧
      Owns logic goal p held ∧ t ∈ held := by
  obtain ⟨holdings,howns,hinv⟩ := h
  refine ⟨holdings.sum,hinv,?_⟩
  clear hinv
  generalize self.programs = programs at howns ⊢
  induction howns with
  | nil => exact fun t ht => absurd ht (Multiset.notMem_zero t)
  | @cons p held programs holdings hhead htail ih =>
    intro t ht
    rw [List.sum_cons] at ht
    obtain ht | ht := Multiset.mem_add.mp ht
    · exact ⟨0,p,held,rfl,hhead,ht⟩
    · obtain ⟨i,q,other,hq,hother,hmem⟩ := ih t ht
      exact ⟨i+1,q,other,hq,hother,hmem⟩

/-- Two programs have nothing in common. -/
lemma Governed.pair (h : Governed logic goal Inv self) {i j : ℕ} (hij : i ≠ j)
    {p q : Program Op Answer α} (hp : self.programs[i]? = some p)
    (hq : self.programs[j]? = some q) :
    ∃ held other rest, Owns logic goal p held ∧ Owns logic goal q other ∧
      Inv self.shared (held+other+rest) := by
  obtain ⟨holdings,howns,hinv⟩ := h
  obtain ⟨hi,rfl⟩ := List.getElem?_eq_some_iff.mp hp
  obtain ⟨hj,rfl⟩ := List.getElem?_eq_some_iff.mp hq
  have hi' : i<holdings.length := howns.length_eq ▸ hi
  have hj' : j<holdings.length := howns.length_eq ▸ hj
  have hperm := List.getElem_cons_eraseIdx_perm hi'
  obtain ⟨k,hk⟩ : ∃ k, (holdings.eraseIdx i)[k]? = some holdings[j] := by
    rcases Nat.lt_or_gt_of_ne hij with hlt | hgt
    · refine ⟨j-1,?_⟩
      rw [List.getElem?_eraseIdx, if_neg (by omega), Nat.sub_add_cancel (by omega)]
      exact List.getElem?_eq_getElem hj'
    · refine ⟨j,?_⟩
      rw [List.getElem?_eraseIdx, if_pos hgt]
      exact List.getElem?_eq_getElem hj'
  obtain ⟨hk,hget⟩ := List.getElem?_eq_some_iff.mp hk
  refine ⟨holdings[i],holdings[j],((holdings.eraseIdx i).eraseIdx k).sum,howns.get hi hi',
    howns.get hj hj',?_⟩
  have hrest := (List.getElem_cons_eraseIdx_perm hk).sum_eq
  have hall := hperm.sum_eq
  rw [List.sum_cons] at hrest hall
  rwa [add_assoc, ← hget, hrest, hall]

/-- Before an operation its program owns what the rule needs. -/
lemma Governed.calls (h : Governed logic goal Inv self) {i : ℕ} {op : Op}
    {next : Answer op → Program Op Answer α} (hp : self.programs[i]? = some (.call op next)) :
    ∃ needs leaves rest, logic.rule op needs leaves ∧ Inv self.shared (needs+rest) := by
  obtain ⟨held,rest,⟨needs,leaves,frame,junk,hrule,rfl,-⟩,hinv⟩ := h.at hp
  refine ⟨needs,leaves,frame+junk+rest,hrule,?_⟩
  convert hinv using 1
  abel

lemma Governed.calls_pair (h : Governed logic goal Inv self) {i j : ℕ} (hij : i ≠ j) {op other : Op}
    {next : Answer op → Program Op Answer α} {next' : Answer other → Program Op Answer α}
    (hp : self.programs[i]? = some (.call op next))
    (hq : self.programs[j]? = some (.call other next')) :
    ∃ needs leaves needs' leaves' rest, logic.rule op needs leaves ∧ logic.rule other needs' leaves' ∧
      Inv self.shared (needs+needs'+rest) := by
  obtain ⟨held,held',rest,⟨needs,leaves,frame,junk,hrule,rfl,-⟩,
    ⟨needs',leaves',frame',junk',hrule',rfl,-⟩,hinv⟩ := h.pair hij hp hq
  refine ⟨needs,leaves,needs',leaves',frame+junk+(frame'+junk'+rest),hrule,hrule',?_⟩
  convert hinv using 1
  abel

lemma forall₂_set {β γ : Type} {R : β → γ → Prop} {xs : List β} {ys : List γ} {x : β} {y : γ}
    (h : List.Forall₂ R xs ys) (i : ℕ) (hxy : R x y) : List.Forall₂ R (xs.set i x) (ys.set i y) := by
  induction h generalizing i with
  | nil => exact .nil
  | cons hhead htail ih =>
    cases i with
    | zero => exact .cons hxy htail
    | succ i => exact .cons hhead (ih i)

/-- The rules are right: an operation takes what its rule needs and leaves what its rule says. -/
def Sound (logic : Logic Op Answer τ) (exec : σ → (op : Op) → Choice → Option (Answer op × σ))
    (Inv : σ → Multiset τ → Prop) : Prop :=
  ∀ s op choice answer s' needs leaves rest, logic.rule op needs leaves → Inv s (needs+rest) →
    exec s op choice = some (answer,s') → ∃ left, leaves answer = some left ∧ Inv s' (left+rest)

variable {exec : σ → (op : Op) → Choice → Option (Answer op × σ)}

theorem Governed.step {next : Concurrent σ Op Answer α} {turn : ℕ × Choice}
    (hsound : Sound logic exec Inv)
    (hlose : ∀ s junk rest, (∀ t ∈ junk, logic.disposable t) → Inv s (junk+rest) → Inv s rest)
    (h : Governed logic goal Inv self) (hstep : self.step exec turn = some next) :
    Governed logic goal Inv next := by
  obtain ⟨op,rest,answer,shared,hprogram,hexec,rfl⟩ := step_cases hstep
  obtain ⟨holdings,howns,hinv⟩ := h
  obtain ⟨hi,hget⟩ := List.getElem?_eq_some_iff.mp hprogram
  have hi' : turn.1<holdings.length := howns.length_eq ▸ hi
  have hown := howns.get hi hi'
  simp only [List.get_eq_getElem] at hown
  rw [hget] at hown
  obtain ⟨needs,leaves,frame,junk,hrule,hheld,-,hjunk,hnext⟩ := hown
  have hsum := (List.getElem_cons_eraseIdx_perm hi').sum_eq
  rw [List.sum_cons, hheld] at hsum
  have hcut : Inv self.shared (needs+(frame+(holdings.eraseIdx turn.1).sum)) := by
    refine hlose _ junk _ hjunk ?_
    rw [← hsum] at hinv
    convert hinv using 1
    abel
  obtain ⟨left,hleft,hafter⟩ := hsound _ _ _ _ _ _ _ _ hrule hcut hexec
  refine ⟨holdings.set turn.1 (left+frame),?_,?_⟩
  · exact forall₂_set howns _ (hnext answer left hleft)
  · have hset : (holdings.set turn.1 (left+frame)).sum =
        left+frame+(holdings.eraseIdx turn.1).sum := by
      have hi'' : turn.1<(holdings.set turn.1 (left+frame)).length := by rwa [List.length_set]
      have hperm := (List.getElem_cons_eraseIdx_perm hi'').sum_eq
      rw [List.sum_cons, List.getElem_set_self, List.eraseIdx_set_eq] at hperm
      exact hperm.symm
    rw [hset]
    convert hafter using 1
    abel

/-- However the programs take turns, what they own and the shared state go together. -/
theorem Governed.run {last : Concurrent σ Op Answer α} {turns : List (ℕ × Choice)}
    (hsound : Sound logic exec Inv)
    (hlose : ∀ s junk rest, (∀ t ∈ junk, logic.disposable t) → Inv s (junk+rest) → Inv s rest)
    (h : Governed logic goal Inv self) (hrun : self.run exec turns = some last) :
    Governed logic goal Inv last :=
  run_keeps (fun _ _ _ hgoverned hstep => hgoverned.step hsound hlose hstep) h hrun

/-- Where the operations keep within bounds, it is enough that the rules are right there. -/
theorem Governed.run_bounded {ok : σ → Prop} [DecidablePred ok] {last : Concurrent σ Op Answer α}
    {turns : List (ℕ × Choice)} (hsound : Sound logic (within ok exec) Inv)
    (hlose : ∀ s junk rest, (∀ t ∈ junk, logic.disposable t) → Inv s (junk+rest) → Inv s rest)
    (hback : ∀ s op choice answer s', exec s op choice = some (answer,s') → ok s' → ok s)
    (h : Governed logic goal Inv self) (hrun : self.run exec turns = some last)
    (hok : ok last.shared) : Governed logic goal Inv last :=
  h.run hsound hlose (run_within hback hrun hok)

/-- Programs that begin with nothing. -/
lemma Governed.start (howns : ∀ p ∈ self.programs, Owns logic goal p 0) (hinv : Inv self.shared 0) :
    Governed logic goal Inv self := by
  refine ⟨List.replicate self.programs.length 0,?_,?_⟩
  · rw [List.forall₂_iff_get]
    refine ⟨(List.length_replicate ..).symm,fun i hi _ => ?_⟩
    rw [List.get_eq_getElem, List.get_eq_getElem, List.getElem_replicate]
    exact howns _ (List.getElem_mem hi)
  · rw [List.sum_replicate, smul_zero]
    exact hinv

end Governing

end Concurrent

end MicroExpertRouter
