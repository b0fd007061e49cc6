import MicroExpertRouter.Fetch.Guarantees

/-! Whether the engine goes on: no operation fails, only a wait for a buffer or for a leader stops a
task, and each of them ends by what another task still has to do. One registration comes too late:
that of a follower whose leader has sent its notification already, while another leads the same
expert. -/
namespace MicroExpertRouter.Fetch
open RamCache

section Operations
variable {first core : EngineCore} {needs rest : Multiset Token} {op : Op} {choice : Choice}
  {leaves : Answer op → Option (Multiset Token)} {shadowSlots : ℕ}

/-- What waits: for a primary buffer, or for a call that has not come since the registration. -/
def Waits (core : EngineCore) (op : Op) : Prop :=
  (op = .acquire ∧ core.pool.free = []) ∨ ∃ n seen, op = .await n seen ∧ core.calls n ≤ seen

lemma get_isSome (core : EngineCore) (id : ℕ) : (core.get id).isSome := by
  have hstep : core.ram.step (.get id) =
      some (core.ram.store (core.ram.cache.get id).1,.found (core.ram.cache.get id).2) := rfl
  unfold EngineCore.get
  rw [hstep]
  cases (core.ram.cache.get id).2 <;> rfl

lemma insert_isSome (core : EngineCore) (colder : ℕ → ℕ → Bool) (id : ℕ) (buffer : Buffer) :
    (core.insert colder id buffer).isSome := by
  have hstep : core.ram.step (.insert colder (EngineCore.asResident id buffer)) =
      some (core.ram.store (core.ram.cache.insert colder (EngineCore.asResident id buffer)).1,
        .inserted (core.ram.cache.insert colder (EngineCore.asResident id buffer)).2) := rfl
  unfold EngineCore.insert
  rw [hstep]
  cases (core.ram.cache.insert colder (EngineCore.asResident id buffer)).2 <;> rfl

lemma tryReserveExactDemand_isSome {held : Multiset Token} (h : Fits first core held) (ids : List ℕ) :
    (core.tryReserveExactDemand ids).isSome := by
  have hstep : core.ram.step (.tryReserveExactDemand ids) = core.ram.tryReserve ids := rfl
  unfold EngineCore.tryReserveExactDemand
  rw [hstep, System.tryReserve]
  obtain ⟨error,hspec⟩ | ⟨requests,plan,emptied,victims,hplan,hspec⟩ :=
    tryReserveExactDemand_spec h.accounted.rooms ids
  · rw [hspec]
    rfl
  · rw [hspec]
    rfl

lemma commit_isSome {held : Multiset Token} {ticket : ℕ} {pending : List ℕ}
    (h : Fits first core ({.reservation ticket pending}+held)) (id : ℕ) (buffer : Buffer) :
    (core.commit ticket id buffer).isSome := by
  have hreservations := h.reservations
  rw [Multiset.add_bind, Multiset.singleton_bind] at hreservations
  obtain ⟨r,-,hr,-⟩ := hreservations.live
  obtain ⟨next,result,hcommit,-⟩ := h.accounted.commit hr (EngineCore.asResident id buffer)
  have hstep : core.ram.step (.commit (core.tickets.idxOf ticket) (EngineCore.asResident id buffer)) =
      some (next,.committed result) := hcommit
  unfold EngineCore.commit
  rw [hstep]
  obtain _ | (_ | _) := result <;> rfl

lemma dropReservation_isSome {held : Multiset Token} {ticket : ℕ} {pending : List ℕ}
    (h : Fits first core ({.reservation ticket pending}+held)) : (core.dropReservation ticket).isSome := by
  have hreservations := h.reservations
  rw [Multiset.add_bind, Multiset.singleton_bind] at hreservations
  obtain ⟨r,-,hr,-⟩ := hreservations.live
  have hstep : core.ram.step (.drop (core.tickets.idxOf ticket)) =
      some (core.ram.drop (core.tickets.idxOf ticket),.unit) := rfl
  unfold EngineCore.dropReservation
  dsimp only
  rw [hr, hstep]
  rfl

lemma releaseSlots_isSome {held : Multiset Token} (h : Fits first core held) (layer remaining : ℕ) :
    (core.releaseSlots layer remaining).isSome := by
  obtain ⟨next,hrelease,-⟩ := h.accounted.release (core.ram.falling.idxOf (layer,remaining))
  have hstep : core.ram.step (.release (core.ram.falling.idxOf (layer,remaining))) = some (next,.unit) := by
    change (core.ram.release _).map _ = _
    rw [hrelease]
    rfl
  unfold EngineCore.releaseSlots
  rw [hstep]
  rfl

/-- An operation that its task may ask for does not fail. -/
lemma exec_isSome (hrule : Rule shadowSlots op needs leaves) (h : Fits first core (needs+rest))
    (hgo : choice.goesOn = true) : (core.exec op choice).isSome ∨ Waits core op := by
  cases hrule with
  | get id => exact .inl (get_isSome core id)
  | getUnderGuard id notify missing => exact .inl (get_isSome core id)
  | insert id notify missing b => exact .inl (insert_isSome core choice.colder id b)
  | tryReserveExactDemand ids => exact .inl (tryReserveExactDemand_isSome h ids)
  | commit ticket id notify pending b =>
    rw [add_assoc, add_assoc] at h
    exact .inl (commit_isSome h id b)
  | dropReservation ticket pending => exact .inl (dropReservation_isSome h)
  | releaseSlots layer remaining => exact .inl (releaseSlots_isSome h layer remaining)
  | acquire =>
    cases hfree : core.pool.free with
    | nil => exact .inr (.inl ⟨rfl,hfree⟩)
    | cons b free =>
      left
      change (if choice.goesOn then core.acquire else some (none,core)).isSome
      rw [if_pos hgo, EngineCore.acquire, BufferPool.tryAcquire, hfree]
      rfl
  | await n seen =>
    by_cases hcalls : core.calls n ≤ seen
    · exact .inr (.inr ⟨n,seen,rfl,hcalls⟩)
    · left
      change (if choice.goesOn then if seen<core.calls n then some (some (),core) else none
        else some (none,core)).isSome
      rw [if_pos hgo, if_pos (by omega)]
      rfl
  | _ => exact .inl rfl

end Operations

/-- A first leader is cancelled after a follower saw its guard; a second one claims the expert before
the follower registers with the notification of the first. -/
def lateRegistration : List (ℕ × Choice) :=
  [goOn 0 0,goOn 0 0,goOn 1 0,goOn 1 0,goOn 0 0,holdBack 0,holdBack 0,goOn 0 0,goOn 0 0,goOn 2 0,
    goOn 2 0,goOn 1 0,goOn 1 0,goOn 1 0]

/-- The second leader reads its expert and ends. -/
def secondLeader : List (ℕ × Choice) :=
  [goOn 2 0,holdBack 2]++List.replicate 8 (goOn 2 0)

section Runs
variable {perLayerCaps : List ℕ} {expertsPerLayer primarySlots shadowSlots maxConcurrentPrefetches : ℕ}
  {costAwareEviction : Bool} {cache : MultiLayerExpertCache} {requests : List Request}
  {turns : List (ℕ × Choice)} {engine : Engine} {holding : Bool}

/-- Without cancelled awaits no task can do anything. -/
def Engine.Stuck (self : Engine) : Prop :=
  ∀ i choice, choice.goesOn = true → self.step EngineCore.exec (i,choice) = none

lemma stuck_of_waits (h : ∀ i op, engine.next i = some op → Waits engine.shared op) : engine.Stuck := by
  intro i choice hgo
  unfold Concurrent.step
  split
  case h_1 op rest hprogram =>
    have hnext : engine.next i = some op := by
      unfold Engine.next
      rw [hprogram]
    obtain ⟨rfl,hfree⟩ | ⟨n,seen,rfl,hcalls⟩ := h i op hnext
    · change (if choice.goesOn then engine.shared.acquire else some (none,engine.shared)).map _ = none
      rw [if_pos hgo, EngineCore.acquire, BufferPool.tryAcquire, hfree]
      rfl
    · change (if choice.goesOn then if seen<engine.shared.calls n then some (some (),engine.shared)
        else none else some (none,engine.shared)).map _ = none
      rw [if_pos hgo, if_neg (by omega)]
      rfl
  case h_2 => rfl
  case h_3 => rfl

/-- What a task may own while it waits. -/
def Token.Patient (holding : Bool) : Token → Prop
  | .watch _ _ => True
  | .claim _ _ _ => True
  | .resident _ _ => holding = true
  | _ => False

/-- The calls of a notification are its only one, or none so far. -/
lemma calls_le_one {calls : ℕ → ℕ} {nextNotify n : ℕ} {issued : Multiset ℕ} {watches : Multiset (ℕ × ℕ)}
    (h : Wakes calls nextNotify issued watches) : calls n ≤ 1 := by
  by_cases hfresh : nextNotify ≤ n
  · exact (h.fresh n hfresh).le.trans (Nat.zero_le 1)
  · by_cases hissued : n ∈ issued
    · exact (h.pending n hissued).2.le.trans (Nat.zero_le 1)
    · exact (h.fired n (by omega) hissued).le

lemma watch_of_junk {junk : Multiset Token}
    (hjunk : ∀ t ∈ junk, (logic shadowSlots holding).disposable t) {t : Token} (ht : t ∈ junk) :
    ∃ n seen, t = .watch n seen := by
  have hdisposable := hjunk t ht
  cases t with
  | watch n seen => exact ⟨n,seen,rfl⟩
  | _ => exact hdisposable.elim

/-- Who waits for a leader owns residents at most. -/
lemma owned_at_await {n seen : ℕ} {rest : Answer (.await n seen) → Task Report} {held : Multiset Token}
    (howns : Owns (logic shadowSlots holding) Settled (.call (.await n seen) rest) held) {t : Token}
    (ht : t ∈ held) : (∃ m s, t = .watch m s) ∨ holding = true ∧ ∃ id b, t = .resident id b := by
  obtain ⟨needs,leaves,frame,junk,hrule,rfl,hkeeps,hjunk,-⟩ := howns
  cases hrule with
  | await =>
    obtain hmem | hmem := Multiset.mem_add.mp ht
    · obtain hmem | hmem := Multiset.mem_add.mp hmem
      · exact .inl ⟨n,seen,Multiset.mem_singleton.mp hmem⟩
      · have hkept := hkeeps t hmem
        cases t with
        | watch m s => exact .inl ⟨m,s,rfl⟩
        | resident id b => exact .inr ⟨hkept,id,b,rfl⟩
        | _ => exact hkept.elim
    · exact .inl (watch_of_junk hjunk hmem)

/-- Who waits for a buffer may lead besides. -/
lemma owned_at_acquire {rest : Answer .acquire → Task Report} {held : Multiset Token}
    (howns : Owns (logic shadowSlots holding) Settled (.call .acquire rest) held) {t : Token}
    (ht : t ∈ held) : t.Patient holding := by
  obtain ⟨needs,leaves,frame,junk,hrule,rfl,hkeeps,hjunk,-⟩ := howns
  cases hrule with
  | acquire =>
    obtain hmem | hmem := Multiset.mem_add.mp ht
    · rw [zero_add] at hmem
      have hkept := hkeeps t hmem
      cases t with
      | watch n seen => trivial
      | claim id n missing => trivial
      | resident id b => exact hkept
      | _ => exact hkept.elim
    · obtain ⟨n,seen,rfl⟩ := watch_of_junk hjunk hmem
      trivial

/-- Who waits has no buffers; who waits for a leader leads nobody. -/
lemma patient_of_waits {core : EngineCore} {op : Op} {rest : Answer op → Task Report}
    {held : Multiset Token} (howns : Owns (logic shadowSlots holding) Settled (.call op rest) held)
    (hwaits : Waits core op) {t : Token} (ht : t ∈ held) :
    t.Patient holding ∧ (op ≠ .acquire → ∀ id n missing, t ≠ .claim id n missing) := by
  obtain ⟨rfl,-⟩ | ⟨n,seen,rfl,-⟩ := hwaits
  · exact ⟨owned_at_acquire howns ht,fun hne => absurd rfl hne⟩
  · obtain ⟨m,s,rfl⟩ | ⟨hholding,id,b,rfl⟩ := owned_at_await howns ht
    · exact ⟨trivial,fun _ _ _ _ heq => nomatch heq⟩
    · exact ⟨hholding,fun _ _ _ _ heq => nomatch heq⟩

lemma watch_of_settled {report : Report} {held : Multiset Token}
    (howns : Owns (logic shadowSlots holding) Settled (.done report) held) {t : Token} (ht : t ∈ held) :
    ∃ n seen, t = .watch n seen :=
  howns.1 t ht

section Stuck
variable {first : EngineCore} (hgoverned : engine.Governed (logic shadowSlots holding) Settled (Fits first))
  (hstuck : engine.Stuck)
include hgoverned hstuck

lemma waits_of_stuck {i : ℕ} {op : Op} (hi : engine.next i = some op) : Waits engine.shared op := by
  obtain ⟨rest,hp⟩ := next_eq_some hi
  obtain ⟨needs,leaves,others,hrule,hfits⟩ := hgoverned.calls hp
  have hnone := hstuck i ⟨0,fun _ _ => false,true,.ok 0⟩ rfl
  obtain hsome | hwaits := @exec_isSome _ _ _ _ _ ⟨0,fun _ _ => false,true,.ok 0⟩ _ _ hrule hfits rfl
  · obtain ⟨⟨answer,core⟩,hexec⟩ := Option.isSome_iff_exists.mp hsome
    unfold Concurrent.step at hnone
    rw [hp] at hnone
    dsimp only at hnone
    rw [hexec] at hnone
    cases hnone
  · exact hwaits

/-- In a stuck engine tasks own what they may own while they wait. -/
lemma patient_of_stuck : ∃ all, Fits first engine.shared all ∧ (∀ t ∈ all, t.Patient holding) ∧
    ((∀ i, engine.next i ≠ some .acquire) → all.bind Token.issued = 0) := by
  obtain ⟨all,hfits,howners⟩ := hgoverned.owners
  have hall : ∀ t ∈ all, t.Patient holding ∧ ((∀ i, engine.next i ≠ some .acquire) →
      ∀ id n missing, t ≠ .claim id n missing) := by
    intro t ht
    obtain ⟨i,p,held,hp,howns,hmem⟩ := howners t ht
    cases p with
    | done report =>
      obtain ⟨n,seen,rfl⟩ := watch_of_settled howns hmem
      exact ⟨trivial,fun _ _ _ _ heq => nomatch heq⟩
    | call op rest =>
      have hi : engine.next i = some op := by
        unfold Engine.next
        rw [hp]
      obtain ⟨hpatient,hclaim⟩ := patient_of_waits howns (waits_of_stuck hgoverned hstuck hi) hmem
      exact ⟨hpatient,fun hnone => hclaim fun heq => hnone i (heq ▸ hi)⟩
  refine ⟨all,hfits,fun t ht => (hall t ht).1,fun hnone => ?_⟩
  rw [Multiset.bind_congr (g := fun _ => 0), Multiset.bind_zero]
  intro t ht
  obtain ⟨hpatient,hclaim⟩ := hall t ht
  cases t with
  | claim id n missing => exact absurd rfl (hclaim hnone id n missing)
  | firing n => exact hpatient.elim
  | _ => rfl

/-- When nobody waits for a buffer, the followers that are left wait for calls of the past. -/
lemma late_of_stuck (hnone : ∀ i, engine.next i ≠ some .acquire) {i : ℕ} {op : Op}
    (hi : engine.next i = some op) : ∃ n, op = .await n 1 ∧ engine.shared.calls n = 1 := by
  obtain ⟨all,hfits,-,hissued⟩ := patient_of_stuck hgoverned hstuck
  obtain ⟨rfl,-⟩ | ⟨n,seen,rfl,hcalls⟩ := waits_of_stuck hgoverned hstuck hi
  · exact absurd hi (hnone i)
  · obtain ⟨rest,hp⟩ := next_eq_some hi
    obtain ⟨needs,leaves,others,hrule,hneeds⟩ := hgoverned.calls hp
    cases hrule with
    | await =>
      have hwatched := hneeds.wakes.watched (n,seen) (by
        rw [Multiset.add_bind, Multiset.singleton_bind]
        exact Multiset.mem_add.mpr (.inl (Multiset.mem_singleton_self _)))
      have hfired := hfits.wakes.fired n hwatched.1 (by
        rw [hissued hnone]
        exact Multiset.notMem_zero n)
      have hseen : seen = 1 := by
        have hle := hwatched.2
        dsimp only at hle
        omega
      exact ⟨n,by rw [hseen],hfired⟩

/-- In a stuck engine no buffer is with a task: what is not free is behind a resident. -/
lemma behind_of_stuck (hfree : engine.shared.pool.free = []) :
    ∃ arcs : Multiset Buffer, (∀ b, engine.shared.holders b = arcs.count b) ∧
      (engine.shared.pool.shadow : Multiset Buffer)+arcs.dedup =
        allBuffers first.pool.primarySlots first.pool.shadowSlots ∧
      (∀ b ∈ engine.shared.pool.shadow, b.slot = .shadow) ∧
      (holding = false → arcs = engine.shared.cachedBuffers) := by
  obtain ⟨all,hfits,hpatient,-⟩ := patient_of_stuck hgoverned hstuck
  have hraw : all.bind Token.raw = 0 := by
    rw [Multiset.bind_congr (g := fun _ => 0), Multiset.bind_zero]
    intro t ht
    have hkept := hpatient t ht
    cases t with
    | buffer b => exact hkept.elim
    | filled id b => exact hkept.elim
    | _ => rfl
  have hwhole := hfits.buffers.whole
  rw [hraw, hfree, add_zero, hfits.slots.1, hfits.slots.2] at hwhole
  refine ⟨_,hfits.buffers.counted,?_,hfits.buffers.shadow,fun hholding => ?_⟩
  · rw [← hwhole]
    exact congrArg (·+_) (zero_add _).symm
  · rw [Multiset.bind_congr (g := fun _ => 0), Multiset.bind_zero, zero_add]
    intro t ht
    have hkept := hpatient t ht
    cases t with
    | resident id b =>
      rw [hholding] at hkept
      cases hkept
    | _ => rfl

end Stuck

lemma capacity_two {cache : MultiLayerExpertCache}
    (hcache : MultiLayerExpertCache.withCapacities [2] 8 = some cache) : cache.capacity = 2 := by
  have htwo : (MultiLayerExpertCache.withCapacities [2] 8).map MultiLayerExpertCache.capacity = some 2 := by
    decide
  rw [hcache] at htwo
  exact Option.some.inj htwo

/-- The late follower at the end. -/
lemma late_engine : ∃ cache engine, MultiLayerExpertCache.withCapacities [2] 8 = some cache ∧
    (Engine.start (.new cache 3 1 1 false) [.fetch 0,.fetch 0,.fetch 0]).run EngineCore.exec
      (lateRegistration++secondLeader) = some engine ∧
    Engine.next engine 1 = some (.await 0 1) ∧ Engine.Stuck engine := by
  obtain ⟨cache,engine,hcache,hrun,hview⟩ := @of_smallRun [.fetch 0,.fetch 0,.fetch 0]
    (lateRegistration++secondLeader) _ (fun engine => (engine.next 0,engine.next 1,engine.next 2,
      engine.programs.length,engine.shared.calls 0)) (none,some (.await 0 1),none,3,1) rfl
  simp only [Prod.mk.injEq] at hview
  obtain ⟨hfirst,hsecond,hthird,hlength,hcalls⟩ := hview
  refine ⟨cache,engine,hcache,hrun,hsecond,stuck_of_waits fun i op hi => ?_⟩
  obtain _ | _ | _ | i := i
  · rw [hfirst] at hi
    cases hi
  · rw [hsecond] at hi
    cases hi
    exact .inr ⟨0,1,rfl,hcalls.le⟩
  · rw [hthird] at hi
    cases hi
  · unfold Engine.next at hi
    rw [List.getElem?_eq_none (by omega)] at hi
    cases hi

variable (hcache : MultiLayerExpertCache.withCapacities perLayerCaps expertsPerLayer = some cache)
  (hrun : (Engine.start (.new cache primarySlots shadowSlots maxConcurrentPrefetches costAwareEviction)
    requests).run EngineCore.exec turns = some engine)
include hcache hrun

/-- Fetches and prefetches alone never wait for a buffer in vain: with a primary buffer more than
the cache has room for, only followers that registered too late do not end. -/
lemma no_deadlock (hrequests : ∀ request ∈ requests, request.holds = false)
    (hroom : cache.capacity<primarySlots) (hstuck : engine.Stuck) {i : ℕ} {op : Op}
    (hi : engine.next i = some op) : ∃ n, op = .await n 1 ∧ engine.shared.calls n = 1 := by
  have hgoverned := @governed _ _ primarySlots shadowSlots maxConcurrentPrefetches costAwareEviction _ _ _ _
    false hcache (fun request hmem hholds => by rw [hrequests request hmem] at hholds; cases hholds) hrun
  refine late_of_stuck hgoverned hstuck (fun j hj => ?_) hi
  have hfree : engine.shared.pool.free = [] := by
    obtain ⟨-,hfree⟩ | ⟨n,seen,hop,-⟩ := waits_of_stuck hgoverned hstuck hj
    · exact hfree
    · cases hop
  obtain ⟨arcs,-,hwhole,hshadow,harcs⟩ := behind_of_stuck hgoverned hstuck hfree
  rw [harcs rfl] at hwhole
  change _ = allBuffers primarySlots shadowSlots at hwhole
  obtain ⟨holdings,-,hfits⟩ := hgoverned
  have hcached : primarySlots ≤ engine.shared.ram.cache.len := by
    have hcount := congrArg (Multiset.countP fun b : Buffer => b.slot = .primary) hwhole
    rw [Multiset.countP_add, allBuffers, Multiset.countP_add, Multiset.countP_map,
      Multiset.filter_eq_self.mpr fun _ _ => rfl, Multiset.card_range,
      Multiset.countP_eq_zero.mpr fun b hb hslot => by
        have hother := hshadow b hb
        rw [hslot] at hother
        cases hother] at hcount
    calc primarySlots ≤ Multiset.countP (fun b : Buffer => b.slot = .primary)
          engine.shared.cachedBuffers.dedup := by omega
      _ ≤ Multiset.card engine.shared.cachedBuffers.dedup := Multiset.countP_le_card _ _
      _ ≤ Multiset.card engine.shared.cachedBuffers := Multiset.card_le_card (Multiset.dedup_le _)
      _ = engine.shared.ram.cache.len := by
        rw [EngineCore.cachedBuffers, Multiset.card_map, card_residents]
  have hcapacity : engine.shared.ram.cache.len ≤ cache.capacity := by
    rw [MultiLayerExpertCache.len, MultiLayerExpertCache.capacity,
      show engine.shared.ram.cache.numLayers = cache.numLayers from hfits.accounted.numLayers]
    refine Finset.sum_le_sum fun layer hlayer => ?_
    have hlt := Finset.mem_range.mp hlayer
    have hcap := hfits.accounted.capacity layer
    have hroom := hfits.accounted.room layer hlt
    have hsame : ((cache.setCostAware costAwareEviction).caches layer).capacity =
        (cache.caches layer).capacity := by
      unfold MultiLayerExpertCache.setCostAware
      dsimp only
      split_ifs
      rfl
    change _ = ((cache.setCostAware costAwareEviction).caches layer).capacity at hcap
    omega
  omega

/-- A follower that registered too late stays where it is in every continuation, until its await is
cancelled. -/
theorem late_stays {i n seen : ℕ} (hi : engine.next i = some (.await n seen)) (hlate : 0<seen)
    {more : List (ℕ × Choice)} {later : Engine} (hmore : engine.run EngineCore.exec more = some later)
    (hgoes : ∀ turn ∈ more, turn.1 = i → turn.2.goesOn = true) :
    later.programs[i]? = engine.programs[i]? := by
  induction more generalizing turns engine with
  | nil =>
    cases hmore
    rfl
  | cons turn more ih =>
    obtain ⟨hgo,hrest⟩ := List.forall_mem_cons.mp hgoes
    rw [Concurrent.run, List.foldlM_cons] at hmore
    obtain ⟨middle,hstep,hmore⟩ := Option.bind_eq_some_iff.mp hmore
    have hall : (Engine.start (.new cache primarySlots shadowSlots maxConcurrentPrefetches
        costAwareEviction) requests).run EngineCore.exec (turns++[turn]) = some middle := by
      rw [Concurrent.run_append, hrun]
      change (Concurrent.step EngineCore.exec engine turn).bind _ = _
      rw [hstep]
      rfl
    have hsame : middle.programs[i]? = engine.programs[i]? := by
      obtain ⟨op,rest,answer,shared,hprogram,hexec,rfl⟩ := Concurrent.step_cases hstep
      refine List.getElem?_set_ne fun hturn => ?_
      -- its own turn would need a call after the registration
      have hop : op = .await n seen := by
        unfold Engine.next at hi
        rw [← hturn, hprogram] at hi
        exact Option.some.inj hi
      subst hop
      obtain ⟨needs,leaves,others,hrule,hfits⟩ :=
        (governed true hcache (fun _ _ _ => rfl) hrun).calls hprogram
      have hcalls := @calls_le_one _ _ n _ _ hfits.wakes
      change (if turn.2.goesOn then if seen<engine.shared.calls n then some (some (),engine.shared)
        else none else some (none,engine.shared)) = _ at hexec
      rw [if_pos (hgo hturn), if_neg (by omega)] at hexec
      cases hexec
    have hnext : Engine.next middle i = some (.await n seen) := by
      rw [← hi]
      unfold Engine.next
      rw [hsame]
    rw [ih hall hnext hmore hrest, hsame]

omit hcache hrun in
theorem late_stays_second : ∃ engine later : Engine, engine.next 1 = some (.await 0 1) ∧
    engine.run EngineCore.exec secondLeader = some later ∧
    later.programs[1]? = engine.programs[1]? := by
  obtain ⟨cache,engine,hcache,hrun,hview⟩ := @of_smallRun [.fetch 0,.fetch 0,.fetch 0]
    lateRegistration _ (fun engine => (engine.next 1,(engine.run EngineCore.exec secondLeader).isSome))
    (some (.await 0 1),true) rfl
  obtain ⟨hsecond,hsome⟩ := Prod.mk.inj hview
  obtain ⟨later,hmore⟩ := Option.isSome_iff_exists.mp hsome
  exact ⟨engine,later,hsecond,hmore,late_stays hcache hrun hsecond Nat.one_pos hmore (by decide)⟩

end Runs

end MicroExpertRouter.Fetch
