import MicroExpertRouter.RateLimit.Limiter

/-! What a rate limiter grants: a bucket is credited for the time between its updates, a second time if
an update with an earlier time comes between two. -/
namespace MicroExpertRouter.RateLimit

section Credit

@[simp] lemma seconds_zero : seconds 0 = 0 := by simp [seconds]

lemma seconds_add (a b : ℕ) : seconds (a+b) = seconds a+seconds b := by
  unfold seconds
  push_cast
  ring

lemma seconds_mono {a b : ℕ} (h : a ≤ b) : seconds a ≤ seconds b := by
  unfold seconds
  have hcast : (a : ℚ) ≤ b := by exact_mod_cast h
  gcongr

/-- The time from each update to the next, if that is later. -/
def credited : List ℕ → ℕ
  | a::b::times => (b-a)+credited (b::times)
  | _ => 0

lemma credited_concat (times : List ℕ) : ∀ {last : ℕ}, times.getLast? = some last → ∀ now,
    credited (times++[now]) = credited times+(now-last) := by
  induction times with
  | nil =>
    intro last h
    cases h
  | cons a times ih =>
    intro last h now
    cases times with
    | nil =>
      obtain rfl := Option.some.inj h
      simp [credited]
    | cons b times =>
      have hrest := ih (by simpa using h) now
      simp only [List.cons_append, credited] at hrest ⊢
      omega

/-- In order, the time from the first update to the last one. -/
lemma credited_of_pairwise (times : List ℕ) : ∀ {first : ℕ}, (first::times).Pairwise (· ≤ ·) →
    ∃ last ∈ first::times, credited (first::times)+first = last := by
  induction times with
  | nil => exact fun {first} _ => ⟨first,List.mem_singleton_self _,Nat.zero_add _⟩
  | cons b times ih =>
    intro first h
    obtain ⟨last,hlast,hcredited⟩ := ih h.of_cons
    have hle : first ≤ b := List.rel_of_pairwise_cons h List.mem_cons_self
    refine ⟨last,List.mem_cons_of_mem _ hlast,?_⟩
    rw [credited]
    omega

end Credit

section Budget
variable {κ : Type} [DecidableEq κ] {system : System κ} {key : κ}

/-- What a bucket and the answers of its key have in common. -/
structure Spent (key : κ) (system : System κ) : Prop where
  fresh : system.limiter.buckets key = none → system.answersFor key = []
  last : ∀ bucket, system.limiter.buckets key = some bucket →
    (system.timesFor key).getLast? = some bucket.lastRefill
  nonneg : ∀ bucket, system.limiter.buckets key = some bucket → 0 ≤ bucket.tokens
  bound : ∀ bucket, system.limiter.buckets key = some bucket →
    system.granted key+bucket.tokens ≤ system.limiter.burst.toNat+
      seconds (credited (system.timesFor key))*system.limiter.rps.toNat

lemma spent_new (rps burst : UInt32) (clock : ℕ) (key : κ) : Spent key (.new rps burst clock) := by
  refine ⟨fun _ => rfl,?_,?_,?_⟩
  all_goals
    intro bucket h
    cases h

lemma Spent.of_alike {other : System κ} (h : Spent key system) (halike : Alike key other system) :
    Spent key other := by
  have htimes : other.timesFor key = system.timesFor key :=
    congrArg (List.map Answered.now) halike.answers
  have hgranted : other.granted key = system.granted key :=
    congrArg (List.countP Answered.allowed) halike.answers
  obtain ⟨hfresh,hlast,hnonneg,hbound⟩ := h
  refine ⟨?_,?_,?_,?_⟩
  · rw [halike.bucket, halike.answers]
    exact hfresh
  · rw [halike.bucket, htimes]
    exact hlast
  · rw [halike.bucket]
    exact hnonneg
  · rw [halike.bucket, htimes, hgranted, halike.burst, halike.rps]
    exact hbound

/-- The answers of a key behind an update of its own. -/
lemma answersFor_update {call now : ℕ} (hpending : system.pending key call = some now) :
    (system.step (.update key call)).answersFor key = system.answersFor key++
      [⟨key,now,system.limiter.refilled (system.limiter.entry key now) now,
        (system.limiter.allow key now).1⟩] := by
  rw [step_update hpending]
  simp [System.answersFor]

/-- A key without a bucket has had no update. -/
lemma Spent.unseen (h : Spent key system) (hbucket : system.limiter.buckets key = none) :
    system.granted key = 0 ∧ system.timesFor key = [] := by
  have hanswers := h.fresh hbucket
  exact ⟨by simp [System.granted, hanswers],by simp [System.timesFor, hanswers]⟩

/-- The tokens of an update are what was left and what it is credited. -/
lemma Spent.refilled (h : Spent key system) (now : ℕ) :
    0 ≤ system.limiter.refilled (system.limiter.entry key now) now ∧
      system.granted key+system.limiter.refilled (system.limiter.entry key now) now ≤
        system.limiter.burst.toNat+
          seconds (credited (system.timesFor key++[now]))*system.limiter.rps.toNat := by
  unfold RateLimiter.refilled RateLimiter.entry
  cases hbucket : system.limiter.buckets key with
  | none =>
    obtain ⟨hgranted,htimes⟩ := h.unseen hbucket
    simp [hgranted, htimes, credited]
  | some bucket =>
    have hnonneg := h.nonneg bucket hbucket
    have hbound := h.bound bucket hbucket
    have hcredit : 0 ≤ seconds (now-bucket.lastRefill)*system.limiter.rps.toNat := by
      have := seconds_mono (Nat.zero_le (now-bucket.lastRefill))
      rw [seconds_zero] at this
      positivity
    rw [credited_concat _ (h.last bucket hbucket), seconds_add, add_mul]
    dsimp only [Option.getD_some]
    constructor
    · apply le_min
      · linarith
      · positivity
    · have hmin := min_le_left
        (bucket.tokens+seconds (now-bucket.lastRefill)*system.limiter.rps.toNat)
        (system.limiter.burst.toNat : ℚ)
      linarith

/-- One step of anyone. -/
lemma Spent.step (h : Spent key system) (henabled : system.limiter.enabled = true)
    (action : Step κ) : Spent key (system.step action) := by
  cases hconcerns : action.concerns key with
  | false => exact h.of_alike ((Alike.refl key system).foreign hconcerns)
  | true =>
    cases action with
    | tick nanos => exact ⟨h.fresh,h.last,h.nonneg,h.bound⟩
    | read own call =>
      unfold System.step
      dsimp only
      cases system.pending own call with
      | some now => exact h
      | none => exact ⟨h.fresh,h.last,h.nonneg,h.bound⟩
    | update own call =>
      obtain rfl := of_decide_eq_true hconcerns
      cases hpending : system.pending own call with
      | none =>
        unfold System.step
        dsimp only
        rw [hpending]
        exact h
      | some now =>
        obtain ⟨hnonneg,hbound⟩ := h.refilled now
        obtain ⟨hallowed,hbucket⟩ := RateLimiter.allow_of_enabled system.limiter own now henabled
        have hanswers := answersFor_update hpending
        have htimes : (system.step (.update own call)).timesFor own = system.timesFor own++[now] := by
          simp [System.timesFor, hanswers]
        have hgranted : (system.step (.update own call)).granted own = system.granted own+
            if 1 ≤ system.limiter.refilled (system.limiter.entry own now) now then 1 else 0 := by
          rw [System.granted, hanswers, List.countP_append, hallowed]
          simp [System.granted, List.countP_cons]
        have hafter : (system.step (.update own call)).limiter = (system.limiter.allow own now).2 := by
          rw [step_update hpending]
        refine ⟨?_,?_,?_,?_⟩
        · intro hnone
          rw [hafter, hbucket] at hnone
          cases hnone
        · intro bucket hsome
          rw [hafter, hbucket] at hsome
          obtain rfl := Option.some.inj hsome
          rw [htimes]
          simp
        · intro bucket hsome
          rw [hafter, hbucket] at hsome
          obtain rfl := Option.some.inj hsome
          dsimp only
          split_ifs <;> linarith
        · intro bucket hsome
          rw [hafter, hbucket] at hsome
          obtain rfl := Option.some.inj hsome
          rw [hgranted, htimes, hafter, RateLimiter.allow_burst, RateLimiter.allow_rps]
          push_cast
          split_ifs <;> linarith

lemma settings_step (system : System κ) (action : Step κ) :
    (system.step action).limiter.rps = system.limiter.rps ∧
      (system.step action).limiter.burst = system.limiter.burst := by
  cases action with
  | tick nanos => exact ⟨rfl,rfl⟩
  | read key call =>
    unfold System.step
    dsimp only
    cases system.pending key call <;> exact ⟨rfl,rfl⟩
  | update key call =>
    cases hpending : system.pending key call with
    | none => simp [System.step, hpending]
    | some now => simp [step_update hpending]

lemma settings_run (system : System κ) (actions : List (Step κ)) :
    (system.run actions).limiter.rps = system.limiter.rps ∧
      (system.run actions).limiter.burst = system.limiter.burst := by
  induction actions using List.reverseRecOn with
  | nil => exact ⟨rfl,rfl⟩
  | append_singleton actions action ih =>
    rw [run_concat]
    have hstep := settings_step (system.run actions) action
    exact ⟨hstep.1.trans ih.1,hstep.2.trans ih.2⟩

lemma enabled_run (h : system.limiter.enabled = true) (actions : List (Step κ)) :
    (system.run actions).limiter.enabled = true := by
  unfold RateLimiter.enabled at h ⊢
  rwa [(settings_run system actions).1]

/-- Any run, by induction on its steps. -/
lemma Spent.run (h : Spent key system) (henabled : system.limiter.enabled = true)
    (actions : List (Step κ)) : Spent key (system.run actions) := by
  induction actions using List.reverseRecOn with
  | nil => exact h
  | append_singleton actions action ih =>
    rw [run_concat]
    exact ih.step (enabled_run henabled actions) action

/-- A limiter grants what it is credited for. -/
lemma Spent.granted_le (h : Spent key system) : (system.granted key : ℚ) ≤
    system.limiter.burst.toNat+
      seconds (credited (system.timesFor key))*system.limiter.rps.toNat := by
  cases hbucket : system.limiter.buckets key with
  | none =>
    obtain ⟨hgranted,htimes⟩ := h.unseen hbucket
    simp [hgranted, htimes, credited]
  | some bucket =>
    have hnonneg := h.nonneg bucket hbucket
    have hbound := h.bound bucket hbucket
    linarith

end Budget

section Order
variable {κ : Type} [DecidableEq κ] {system : System κ} {key : κ}

/-- No update of the key is by a call that read the clock before the last one that was applied. -/
def InOrder (key : κ) (system : System κ) (actions : List (Step κ)) : Prop :=
  ∀ front call back, actions = front++.update key call::back →
    ∀ now ∈ (system.run front).pending key call,
      ∀ bucket ∈ (system.run front).limiter.buckets key, bucket.lastRefill ≤ now

lemma InOrder.init {actions : List (Step κ)} {action : Step κ}
    (h : InOrder key system (actions++[action])) : InOrder key system actions :=
  fun front call back hsplit => h front call (back++[action]) (by rw [hsplit]; simp)

/-- Times in order, none of which is after the last refill. -/
structure Ordered (key : κ) (system : System κ) : Prop where
  times : (system.timesFor key).Pairwise (· ≤ ·)
  last : ∀ bucket ∈ system.limiter.buckets key, ∀ time ∈ system.timesFor key,
    time ≤ bucket.lastRefill

lemma Ordered.of_alike {other : System κ} (h : Ordered key system)
    (halike : Alike key other system) : Ordered key other := by
  have htimes : other.timesFor key = system.timesFor key :=
    congrArg (List.map Answered.now) halike.answers
  obtain ⟨hordered,hlast⟩ := h
  refine ⟨?_,?_⟩
  · rwa [htimes]
  · rwa [htimes, halike.bucket]

lemma Ordered.step (h : Ordered key system) (hspent : Spent key system)
    (henabled : system.limiter.enabled = true) {action : Step κ}
    (hnow : ∀ call, action = .update key call → ∀ now ∈ system.pending key call,
      ∀ bucket ∈ system.limiter.buckets key, bucket.lastRefill ≤ now) :
    Ordered key (system.step action) := by
  cases hconcerns : action.concerns key with
  | false => exact h.of_alike ((Alike.refl key system).foreign hconcerns)
  | true =>
    cases action with
    | tick nanos => exact ⟨h.times,h.last⟩
    | read own call =>
      unfold System.step
      dsimp only
      cases system.pending own call with
      | some now => exact h
      | none => exact ⟨h.times,h.last⟩
    | update own call =>
      obtain rfl := of_decide_eq_true hconcerns
      cases hpending : system.pending own call with
      | none =>
        unfold System.step
        dsimp only
        rw [hpending]
        exact h
      | some now =>
        have hearlier : ∀ time ∈ system.timesFor own, time ≤ now := by
          intro time htime
          cases hbucket : system.limiter.buckets own with
          | none =>
            rw [System.timesFor, hspent.fresh hbucket] at htime
            simp at htime
          | some bucket =>
            exact (h.last bucket hbucket time htime).trans
              (hnow call rfl now hpending bucket hbucket)
        obtain ⟨-,hafter⟩ := RateLimiter.allow_of_enabled system.limiter own now henabled
        have htimes : (system.step (.update own call)).timesFor own = system.timesFor own++[now] := by
          simp [System.timesFor, answersFor_update hpending]
        refine ⟨?_,?_⟩
        · rw [htimes, List.pairwise_append]
          exact ⟨h.times,List.pairwise_singleton _ _,by simpa using hearlier⟩
        · rw [htimes, step_update hpending]
          intro bucket hbucket time htime
          rw [hafter] at hbucket
          obtain rfl := Option.some.inj hbucket
          obtain hold | hnew := List.mem_append.mp htime
          · exact hearlier time hold
          · exact (List.mem_singleton.mp hnew).le

lemma Ordered.run (rps burst : UInt32) (clock : ℕ)
    (henabled : (System.new rps burst clock : System κ).limiter.enabled = true)
    (actions : List (Step κ)) (h : InOrder key (.new rps burst clock) actions) :
    Ordered key ((System.new rps burst clock).run actions) := by
  induction actions using List.reverseRecOn with
  | nil => exact ⟨List.Pairwise.nil,by simp [System.run, System.timesFor, System.answersFor, System.new]⟩
  | append_singleton actions action ih =>
    have hspent := (spent_new rps burst clock key).run henabled actions
    rw [run_concat]
    refine (ih h.init).step hspent (enabled_run henabled actions) fun call haction => ?_
    exact h actions call [] (by rw [haction])

/-- The time from the first to the last clock value of the answered calls of a key. -/
def System.spread (self : System κ) (key : κ) : ℕ :=
  (self.timesFor key).max?.getD 0-(self.timesFor key).min?.getD 0

lemma Ordered.credited_le (h : Ordered key system) :
    credited (system.timesFor key) ≤ system.spread key := by
  unfold System.spread
  obtain ⟨htimes,-⟩ := h
  cases hlist : system.timesFor key with
  | nil => exact Nat.zero_le _
  | cons first times =>
    rw [hlist] at htimes
    obtain ⟨last,hlast,hcredited⟩ := credited_of_pairwise times htimes
    have hmax : last ≤ (first::times).max?.getD 0 := List.le_max?_getD_of_mem hlast
    have hmin : (first::times).min?.getD 0 ≤ first :=
      List.min?_getD_le_of_mem List.mem_cons_self
    omega

end Order

section Guarantee
variable {κ : Type} [DecidableEq κ]

lemma refused_without_token (system : System κ) (actions : List (Step κ))
    (h : ∀ answer ∈ system.answered, answer.allowed = false → answer.available<1) :
    ∀ answer ∈ (system.run actions).answered, answer.allowed = false → answer.available<1 := by
  induction actions using List.reverseRecOn with
  | nil => exact h
  | append_singleton actions action ih =>
    rw [run_concat]
    cases action with
    | tick nanos => exact ih
    | read key call =>
      unfold System.step
      dsimp only
      cases (system.run actions).pending key call <;> exact ih
    | update key call =>
      cases hpending : (system.run actions).pending key call with
      | none =>
        unfold System.step
        dsimp only
        rw [hpending]
        exact ih
      | some now =>
        rw [step_update hpending]
        intro answer hanswer hrefused
        obtain hold | hnew := List.mem_append.mp hanswer
        · exact ih answer hold hrefused
        · rw [List.mem_singleton.mp hnew] at hrefused ⊢
          exact RateLimiter.refused _ _ _ hrefused

/-- An enabled limiter keeps its budget if each bucket is updated in the order of the clock. Always,
a key's answers are those of a run without the other keys, and a call is refused only without a
whole token. -/
theorem budget_kept (rps burst : UInt32) (clock : ℕ) (actions : List (Step κ)) (key : κ) :
    (0 < rps → InOrder key (.new rps burst clock) actions →
      (((System.new rps burst clock).run actions).granted key : ℚ) ≤
        (RateLimiter.new rps burst : RateLimiter κ).burst.toNat+
          rps.toNat*seconds (((System.new rps burst clock).run actions).spread key)) ∧
    ((System.new rps burst clock).run actions).answersFor key =
      ((System.new rps burst clock).run (actions.filter (Step.concerns key))).answersFor key ∧
    ∀ answer ∈ ((System.new rps burst clock : System κ).run actions).answered,
      answer.allowed = false → answer.available<1 := by
  refine ⟨fun hrps horder => ?_,(answers_apart _ key actions).answers,
    refused_without_token _ actions (by simp [System.new])⟩
  have henabled : (System.new rps burst clock : System κ).limiter.enabled = true :=
    decide_eq_true hrps
  have hspent := ((spent_new rps burst clock key).run henabled actions).granted_le
  obtain ⟨hkeptRps,hkeptBurst⟩ := settings_run (System.new rps burst clock) actions
  have hcredited := seconds_mono (Ordered.run rps burst clock henabled actions horder).credited_le
  have hscaled := mul_le_mul_of_nonneg_right hcredited (Nat.cast_nonneg' rps.toNat (α := ℚ))
  rw [hkeptRps, hkeptBurst] at hspent
  rw [mul_comm (rps.toNat : ℚ)]
  exact hspent.trans (add_le_add_right hscaled _)

/-- A call of one key while another key's call waits. -/
theorem budget_kept_once :
    let actions : List (Step String) := [.read "b" 0,.read "a" 0,.update "a" 0]
    (((System.new 1 1 0).run actions).granted "a" : ℚ) ≤
      (RateLimiter.new 1 1 : RateLimiter String).burst.toNat+
        (1 : UInt32).toNat*seconds (((System.new 1 1 0).run actions).spread "a") := by
  intro actions
  refine (budget_kept 1 1 0 actions "a").1 (by decide) ?_
  intro front call back hsplit now _ bucket hbucket
  have hfront : front = [.read "b" 0,.read "a" 0] := by
    rcases front with _ | ⟨x,_ | ⟨y,_ | ⟨z,front⟩⟩⟩
    all_goals simp [actions] at hsplit ⊢
    obtain ⟨rfl,rfl,-⟩ := hsplit
    exact ⟨rfl,rfl⟩
  have hfresh : ((System.new 1 1 0).run [.read "b" 0,.read "a" 0]).limiter.buckets "a" = none := rfl
  rw [hfront, hfresh] at hbucket
  cases hbucket

/-- A second call that read the clock first and updates last has the same second credited twice. -/
theorem reordered_updates_overspend :
    let actions : List (Step String) := [.read "a" 0,.read "a" 1,.update "a" 0,.tick 1000000000,
      .read "a" 2,.update "a" 2,.update "a" 1,.read "a" 3,.update "a" 3]
    ¬ (((System.new 1 1 0).run actions).granted "a" : ℚ) ≤
      (RateLimiter.new 1 1 : RateLimiter String).burst.toNat+
        (1 : UInt32).toNat*seconds (((System.new 1 1 0).run actions).spread "a") := by
  decide +kernel

end Guarantee

end MicroExpertRouter.RateLimit
