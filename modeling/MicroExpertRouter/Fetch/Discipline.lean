import MicroExpertRouter.Fetch.Soundness

/-! Every task of the engine does what the ownership logic allows: it reads under a guard and into a
buffer of its own, waits for a leader without guards and buffers, and ends owning nothing. The
sequential source and the batch bring the residents of a demand set in request order, and once its
positions are reserved a batch that reads all its bytes commits all its experts. -/
namespace MicroExpertRouter.Fetch
open RamCache

section Programs
variable {shadowSlots : ℕ} {holding : Bool} {α : Type} {goal : α → Multiset Token → Prop}
  {frame : Multiset Token} {id notify ticket : ℕ} {missing : Bool}

/-- What a task may own while it waits for a leader. -/
def Idle (holding : Bool) (frame : Multiset Token) : Prop :=
  ∀ n seen, ∀ t ∈ frame, (logic 0 holding).keeps (.await n seen) t

lemma Idle.acquire (h : Idle holding frame) :
    ∀ t ∈ frame, (logic shadowSlots holding).keeps .acquire t := by
  intro t ht
  have hkeeps := h 0 0 t ht
  cases t with
  | watch n seen => trivial
  | resident id b => exact hkeeps
  | _ => exact hkeeps.elim

/-- Guards are given up with all who wait for them woken. -/
lemma owns_dropGuard {f : Unit → Task α} (hnext : Owns (logic shadowSlots holding) goal (f ()) frame) :
    Owns (logic shadowSlots holding) goal (dropGuard id notify >>= f)
      ({.claim id notify missing}+frame) := by
  rw [dropGuard, bind_assoc]
  refine Owns.ask _ (.removeClaim id notify missing) rfl (fun _ _ => trivial) ?_
  rintro ⟨⟩ left ⟨⟩
  refine Owns.ask _ (.notifyWaiters notify) rfl (fun _ _ => trivial) ?_
  rintro ⟨⟩ left ⟨⟩
  rwa [zero_add]

lemma owns_dropGuards {f : Unit → Task α} (guards : List (ℕ × ℕ × Bool))
    (hnext : Owns (logic shadowSlots holding) goal (f ()) frame) :
    Owns (logic shadowSlots holding) goal (dropGuards (guards.map fun g => (g.1,g.2.1)) >>= f)
      (claimTokens guards+frame) := by
  induction guards with
  | nil =>
    rw [claimTokens_nil, zero_add]
    exact hnext
  | cons guard guards ih =>
    rw [List.map_cons, dropGuards, bind_assoc, claimTokens_cons, add_assoc]
    exact owns_dropGuard ih

lemma owns_dropBuffers {f : Unit → Task α} (buffers : List Buffer)
    (hnext : Owns (logic shadowSlots holding) goal (f ()) frame) :
    Owns (logic shadowSlots holding) goal (dropBuffers buffers >>= f)
      (bufferTokens buffers+frame) := by
  induction buffers with
  | nil =>
    rw [bufferTokens_nil, zero_add]
    exact hnext
  | cons buffer buffers ih =>
    rw [dropBuffers, bind_assoc, bufferTokens_cons, add_assoc]
    refine Owns.ask _ (.dropBuffer buffer) rfl (fun _ _ => trivial) ?_
    rintro ⟨⟩ left ⟨⟩
    rwa [zero_add]

lemma owns_dropResidents {f : Unit → Task α} (residents : List (ℕ × Buffer))
    (hnext : Owns (logic shadowSlots holding) goal (f ()) frame) :
    Owns (logic shadowSlots holding) goal (dropResidents residents >>= f)
      (residentTokens residents+frame) := by
  induction residents with
  | nil =>
    rw [residentTokens_nil, zero_add]
    exact hnext
  | cons resident residents ih =>
    rw [dropResidents, bind_assoc, residentTokens_cons, add_assoc]
    refine Owns.ask _ (.dropResident resident.1 resident.2) rfl (fun _ _ => trivial) ?_
    rintro ⟨⟩ left ⟨⟩
    rwa [zero_add]

lemma owns_releaseAll {f : Unit → Task α} (guards : List (ℕ × ℕ))
    (hnext : Owns (logic shadowSlots holding) goal (f ()) frame) :
    Owns (logic shadowSlots holding) goal (releaseAll guards >>= f) (slotTokens guards+frame) := by
  induction guards with
  | nil =>
    rw [slotTokens_nil, zero_add]
    exact hnext
  | cons guard guards ih =>
    rw [releaseAll, bind_assoc, slotTokens_cons, add_assoc]
    refine Owns.ask _ (.releaseSlots guard.1 guard.2) rfl (fun _ _ => trivial) ?_
    rintro ⟨⟩ left ⟨⟩
    rwa [zero_add]

lemma owns_dropReservation {f : Unit → Task α} (pending : List ℕ)
    (hnext : Owns (logic shadowSlots holding) goal (f ()) frame) :
    Owns (logic shadowSlots holding) goal (dropReservation ticket >>= f)
      ({.reservation ticket pending}+frame) := by
  rw [dropReservation, bind_assoc]
  refine Owns.ask _ (.dropReservation ticket pending) rfl (fun _ _ => trivial) ?_
  rintro guards left ⟨⟩
  exact owns_releaseAll guards hnext

lemma owns_makeRoom {f : Unit → Task α} (hnext : Owns (logic shadowSlots holding) goal (f ()) frame) :
    Owns (logic shadowSlots holding) goal (makeRoom >>= f) frame := by
  rw [makeRoom, bind_assoc]
  refine Owns.look .full (fun _ _ => trivial) ?_
  rintro (_ | _) left ⟨⟩
  · rw [zero_add]
    exact hnext
  · rw [zero_add]
    simp only [bind_assoc]
    refine Owns.look .evictLru (fun _ _ => trivial) ?_
    rintro (_ | ⟨victim,buffer⟩) left ⟨⟩
    · rw [Option.map_none, Option.getD_none, zero_add]
      exact hnext
    · refine Owns.ask _ (.dropResident victim buffer) rfl (fun _ _ => trivial) ?_
      rintro ⟨⟩ left ⟨⟩
      rwa [zero_add]

/-- A leader reads what is missing; when that fails it is missing still. -/
lemma owns_fetchOnce {f : Option (Except FetchOnceError Buffer) → Task α} (hidle : Idle holding frame)
    (hok : ∀ b missing, Owns (logic shadowSlots holding) goal (f (some (.ok b)))
      ({.claim id notify missing}+({.resident id b}+frame)))
    (hfail : ∀ result, (∀ b, result ≠ some (.ok b)) → Owns (logic shadowSlots holding) goal (f result)
      ({.claim id notify true}+frame)) :
    Owns (logic shadowSlots holding) goal (fetchOnce id >>= f) ({.claim id notify true}+frame) := by
  rw [fetchOnce, bind_assoc]
  refine owns_makeRoom ?_
  simp only [bind_assoc]
  refine Owns.look .acquire (fun t ht => ?_) ?_
  · obtain ht | ht := Multiset.mem_add.mp ht
    · rw [Multiset.mem_singleton.mp ht]
      trivial
    · exact hidle.acquire t ht
  rintro (_ | b) left hleft
  · cases hleft
    rw [zero_add]
    exact hfail none nofun
  dsimp only at hleft
  split_ifs at hleft with hslot
  cases hleft
  simp only [bind_assoc]
  refine Owns.ask frame (.readDemand id notify b hslot) (by abel) (fun _ _ => trivial) ?_
  have hdrop : ∀ result, (∀ b, result ≠ some (.ok b)) → Owns (logic shadowSlots holding) goal
      (ask (.dropBuffer b) >>= fun _ => f result)
      ({.claim id notify true}+{.buffer b}+frame) := by
    intro result hresult
    refine Owns.ask ({.claim id notify true}+frame) (.dropBuffer b) (by abel) (fun _ _ => trivial) ?_
    rintro ⟨⟩ left ⟨⟩
    rw [zero_add]
    exact hfail result hresult
  rintro (_ | message | _) left ⟨⟩
  · simp only [bind_assoc]
    exact hdrop none nofun
  · simp only [bind_assoc]
    exact hdrop (some (.error (.io message))) nofun
  simp only [bind_assoc]
  refine Owns.ask ({.claim id notify true}+frame) (.newResident id b) (by rw [readLeaves]; abel)
    (fun _ _ => trivial) ?_
  rintro ⟨⟩ left ⟨⟩
  refine Owns.ask frame (.insert id notify true b) (by abel) (fun _ _ => trivial) ?_
  rintro (_ | _ | ⟨evicted,other⟩) left ⟨⟩
  · rw [insertLeaves, add_assoc]
    exact hok b true
  · rw [insertLeaves, Option.map_none, Option.getD_none, add_zero, add_assoc]
    exact hok b false
  · simp only [bind_assoc]
    refine Owns.ask ({.claim id notify false}+({.resident id b}+frame)) (.dropResident evicted other)
      (by rw [insertLeaves, Option.map_some, Option.getD_some]; abel) (fun _ _ => trivial) ?_
    rintro ⟨⟩ left ⟨⟩
    rw [zero_add]
    exact hok b false

/-- The `Arc` that a result brings. -/
def arcOf {ε : Type} (id : ℕ) : Option (Except ε Buffer) → Multiset Token
  | some (.ok b) => {.resident id b}
  | some (.error _) => 0
  | none => 0

lemma owns_attempts {f : Option (Except ExpertReadError Buffer) → Task α} (left : ℕ)
    (lastErr : Option String) (hidle : Idle holding frame)
    (hnext : ∀ result missing, Owns (logic shadowSlots holding) goal (f result)
      ({.claim id notify missing}+(arcOf id result+frame))) :
    Owns (logic shadowSlots holding) goal (attempts id left lastErr >>= f)
      ({.claim id notify true}+frame) := by
  induction left generalizing lastErr with
  | zero =>
    rw [attempts]
    have hlast := hnext (some (.error (.io id maxAttempts (lastErr.getD "unknown")))) true
    rwa [arcOf, zero_add] at hlast
  | succ left ih =>
    rw [attempts, bind_assoc]
    refine owns_fetchOnce hidle (fun b missing => hnext (some (.ok b)) missing) fun result hfail => ?_
    have hdone : ∀ result, arcOf id result = 0 → Owns (logic shadowSlots holding) goal (f result)
        ({.claim id notify true}+frame) := by
      intro result hzero
      have hresult := hnext result true
      rwa [hzero, zero_add] at hresult
    obtain _ | (_ | message) | b := result
    · exact hdone none rfl
    · exact hdone (some (.error (.poolStarved id))) rfl
    · dsimp only
      split_ifs with hleft
      · exact ih (some message)
      · simp only [bind_assoc]
        refine Owns.look .sleep (fun _ _ => trivial) ?_
        rintro (_ | _) rest ⟨⟩
        · rw [zero_add]
          exact hdone none rfl
        · rw [zero_add]
          exact ih (some message)
    · exact absurd rfl (hfail b)

/-- A leader answers without its guard. -/
lemma owns_lead {f : Option (Except ExpertReadError Buffer) → Task α} (hidle : Idle holding frame)
    (hnext : ∀ result, Owns (logic shadowSlots holding) goal (f result) (arcOf id result+frame)) :
    Owns (logic shadowSlots holding) goal (lead id notify >>= f) ({.claim id notify missing}+frame) := by
  rw [lead, bind_assoc]
  refine Owns.ask frame (.getUnderGuard id notify missing) rfl (fun _ _ => trivial) ?_
  rintro (_ | b) left ⟨⟩
  · simp only [bind_assoc]
    refine owns_attempts maxAttempts none hidle fun result missing => ?_
    exact owns_dropGuard (hnext result)
  · rw [Option.map_some, Option.getD_some, add_assoc]
    simp only [bind_assoc]
    exact owns_dropGuard (hnext (some (.ok b)))

section Elections
variable {f : Option (Except ExpertReadError Buffer) → Task α} (hgoal : ∀ a n seen held,
  goal a held → goal a ({.watch n seen}+held))
include hgoal

/-- Who does not lead waits without guards and buffers. -/
lemma owns_elections (left : ℕ) (hidle : Idle holding frame)
    (hnext : ∀ result, Owns (logic shadowSlots holding) goal (f result) (arcOf id result+frame)) :
    Owns (logic shadowSlots holding) goal (elections id left >>= f) frame := by
  have hdone : ∀ result, arcOf id result = 0 → Owns (logic shadowSlots holding) goal (f result) frame := by
    intro result hzero
    have hresult := hnext result
    rwa [hzero, zero_add] at hresult
  induction left with
  | zero => exact hdone _ rfl
  | succ left ih =>
    rw [elections, bind_assoc]
    refine Owns.look (.tryClaim [] id) (fun _ _ => trivial) ?_
    rintro (n | n) rest hrest
    · cases hrest
      simp only [bind_assoc]
      rw [claimTokens_nil, add_zero]
      refine Owns.ask frame (.notified n 0) rfl (fun _ _ => trivial) ?_
      rintro seen rest ⟨⟩
      refine Owns.look (.get id) (fun _ _ => trivial) ?_
      rintro (_ | b) rest ⟨⟩
      · rw [Option.map_none, Option.getD_none, zero_add]
        simp only [bind_assoc]
        refine Owns.look (.isInFlight id) (fun _ _ => trivial) ?_
        rintro (_ | _) rest ⟨⟩
        · rw [zero_add]
          exact ih.more _ trivial fun a held => hgoal a n seen held
        · simp only [bind_assoc]
          refine Owns.ask frame (.await n seen) (zero_add _) (fun t ht => hidle n seen t ht) ?_
          rintro (_ | _) rest ⟨⟩
          · rw [zero_add]
            exact hdone none rfl
          · simp only [bind_assoc]
            rw [zero_add]
            refine Owns.look (.get id) (fun _ _ => trivial) ?_
            rintro (_ | b) rest ⟨⟩
            · rw [Option.map_none, Option.getD_none, zero_add]
              exact ih
            · exact hnext (some (.ok b))
      · rw [Option.map_some, Option.getD_some, add_left_comm]
        exact (hnext (some (.ok b))).more _ trivial fun a held => hgoal a n seen held
    · cases hrest
      rw [claimTokens_nil, add_zero]
      exact owns_lead hidle hnext

lemma owns_fetchWithRetryInner (hidle : Idle holding frame)
    (hnext : ∀ result, Owns (logic shadowSlots holding) goal (f result) (arcOf id result+frame)) :
    Owns (logic shadowSlots holding) goal (fetchWithRetryInner id >>= f) frame := by
  rw [fetchWithRetryInner, bind_assoc]
  refine Owns.look (.get id) (fun _ _ => trivial) ?_
  rintro (_ | b) rest ⟨⟩
  · rw [Option.map_none, Option.getD_none, zero_add]
    exact owns_elections hgoal maxLeaderElections hidle hnext
  · exact hnext (some (.ok b))

end Elections

/-- Speculation takes a primary buffer only without a shadow half. -/
lemma owns_prefetchBuffer {f : Option Buffer → Task α}
    (hnone : Owns (logic shadowSlots holding) goal (f none) frame)
    (hsome : ∀ b, (0<shadowSlots → b.slot = .shadow) →
      Owns (logic shadowSlots holding) goal (f (some b)) ({.buffer b}+frame)) :
    Owns (logic shadowSlots holding) goal (prefetchBuffer >>= f) frame := by
  have hshadow : Owns (logic shadowSlots holding) goal (ask .tryAcquireShadow >>= f) frame := by
    refine Owns.look .tryAcquireShadow (fun _ _ => trivial) ?_
    rintro (_ | b) left hleft
    · cases hleft
      rwa [zero_add]
    · dsimp only at hleft
      split_ifs at hleft with hslot
      cases hleft
      exact hsome b fun _ => hslot
  rw [prefetchBuffer, bind_assoc]
  refine Owns.look .tryAcquireShadow (fun _ _ => trivial) ?_
  rintro (_ | b) left hleft
  · cases hleft
    rw [zero_add]
    simp only [bind_assoc]
    refine Owns.look .shadowCapacity (fun _ _ => trivial) ?_
    intro capacity left hleft
    split_ifs at hleft with hcapacity
    cases hleft
    rw [zero_add]
    split_ifs with hzero
    · refine Owns.look .tryAcquire (fun _ _ => trivial) ?_
      rintro (_ | b) left hleft
      · cases hleft
        rwa [zero_add]
      · dsimp only at hleft
        split_ifs at hleft
        cases hleft
        exact hsome b fun hpositive => absurd (hcapacity.symm.trans hzero) hpositive.ne'
    · simp only [bind_assoc]
      refine Owns.look .evictLruShadowBacked (fun _ _ => trivial) ?_
      rintro (_ | ⟨victim,recycled⟩) left ⟨⟩
      · rwa [Option.map_none, Option.getD_none, zero_add]
      · simp only [bind_assoc]
        refine Owns.ask _ (.dropResident victim recycled) rfl (fun _ _ => trivial) ?_
        rintro ⟨⟩ left ⟨⟩
        rwa [zero_add]
  · dsimp only at hleft
    split_ifs at hleft with hslot
    cases hleft
    exact hsome b fun _ => hslot

/-- A prefetch keeps its guard and its permit, and nothing else. -/
lemma owns_prefetchRead {f : Unit → Task α} (hnext : ∀ missing, Owns (logic shadowSlots holding) goal (f ())
      ({.claim id notify missing}+({.permit}+frame))) :
    Owns (logic shadowSlots holding) goal (prefetchRead id >>= f)
      ({.claim id notify missing}+({.permit}+frame)) := by
  rw [prefetchRead, bind_assoc]
  refine owns_prefetchBuffer (hnext missing) fun b hslot => ?_
  simp only [bind_assoc]
  refine Owns.ask frame (.readAhead id notify missing b hslot) (by abel) (fun _ _ => trivial) ?_
  have hdrop : Owns (logic shadowSlots holding) goal (ask (.dropBuffer b) >>= f)
      ({.claim id notify missing}+{.buffer b}+{.permit}+frame) := by
    refine Owns.ask ({.claim id notify missing}+({.permit}+frame)) (.dropBuffer b) (by abel)
      (fun _ _ => trivial) ?_
    rintro ⟨⟩ left ⟨⟩
    rw [zero_add]
    exact hnext missing
  have hresident : ∀ seen, Owns (logic shadowSlots holding) goal (ask (.dropResident id b) >>= f)
      ({.resident id b}+({.claim id notify seen}+({.permit}+frame))) := by
    intro seen
    refine Owns.ask _ (.dropResident id b) rfl (fun _ _ => trivial) ?_
    rintro ⟨⟩ left ⟨⟩
    rw [zero_add]
    exact hnext seen
  rintro (_ | _ | _) left ⟨⟩
  · exact hdrop
  · exact hdrop
  · simp only [bind_assoc]
    refine Owns.ask ({.claim id notify missing}+({.permit}+frame)) (.newResident id b)
      (by rw [readLeaves]; abel) (fun _ _ => trivial) ?_
    rintro ⟨⟩ left ⟨⟩
    refine Owns.ask ({.permit}+frame) (.insert id notify missing b) (by abel) (fun _ _ => trivial) ?_
    rintro (_ | _ | ⟨evicted,other⟩) left ⟨⟩
    · convert hresident missing using 1
      rw [insertLeaves]
      abel
    · convert hresident false using 1
      rw [insertLeaves, Option.map_none, Option.getD_none]
      abel
    · simp only [bind_assoc]
      refine Owns.ask ({.resident id b}+({.claim id notify false}+({.permit}+frame)))
        (.dropResident evicted other) (by rw [insertLeaves, Option.map_some, Option.getD_some]; abel)
        (fun _ _ => trivial) ?_
      rintro ⟨⟩ left ⟨⟩
      rw [zero_add]
      exact hresident false

lemma owns_releasePermit {f : Unit → Task α} (hnext : Owns (logic shadowSlots holding) goal (f ()) frame) :
    Owns (logic shadowSlots holding) goal (ask .releasePermit >>= f) ({.permit}+frame) := by
  refine Owns.ask _ .releasePermit rfl (fun _ _ => trivial) ?_
  rintro ⟨⟩ left ⟨⟩
  rwa [zero_add]

section Speculation
variable {f : Unit → Task α} (hgoal : ∀ a n seen held, goal a held → goal a ({.watch n seen}+held))
include hgoal

lemma owns_prefetchTask (hnext : Owns (logic shadowSlots holding) goal (f ()) frame) :
    Owns (logic shadowSlots holding) goal (prefetchTask id >>= f) ({.permit}+frame) := by
  rw [prefetchTask, bind_assoc]
  refine Owns.look (.contains id) (fun _ _ => trivial) ?_
  rintro (_ | _) left ⟨⟩
  · rw [zero_add]
    simp only [bind_assoc]
    refine Owns.look (.tryClaim [] id) (fun _ _ => trivial) ?_
    rintro (n | n) left hleft
    · cases hleft
      rw [claimTokens_nil, add_zero]
      exact (owns_releasePermit hnext).more _ trivial fun a held => hgoal a n 0 held
    · cases hleft
      rw [claimTokens_nil, add_zero]
      simp only [bind_assoc]
      exact owns_prefetchRead fun missing => owns_dropGuard (owns_releasePermit hnext)
  · rw [zero_add]
    exact owns_releasePermit hnext

lemma owns_spawnPrefetch (hnext : Owns (logic shadowSlots holding) goal (f ()) frame) :
    Owns (logic shadowSlots holding) goal (spawnPrefetch id >>= f) frame := by
  rw [spawnPrefetch, bind_assoc]
  refine Owns.look (.contains id) (fun _ _ => trivial) ?_
  rintro (_ | _) left ⟨⟩
  on_goal 2 => rwa [zero_add]
  rw [zero_add]
  simp only [bind_assoc]
  refine Owns.look (.isInFlight id) (fun _ _ => trivial) ?_
  rintro (_ | _) left ⟨⟩
  on_goal 2 => rwa [zero_add]
  rw [zero_add]
  simp only [bind_assoc]
  refine Owns.look .governorAdmits (fun _ _ => trivial) ?_
  rintro (_ | _) left ⟨⟩
  · rwa [zero_add]
  rw [zero_add]
  simp only [bind_assoc]
  refine Owns.look .tryAcquirePermit (fun _ _ => trivial) ?_
  rintro (_ | _) left ⟨⟩
  · rwa [if_neg Bool.false_ne_true, zero_add]
  rw [if_pos rfl]
  simp only [bind_assoc]
  refine Owns.look .spawn (fun _ _ => trivial) ?_
  rintro (_ | _) left ⟨⟩
  · rw [zero_add]
    exact owns_releasePermit hnext
  · rw [zero_add]
    exact owns_prefetchTask hgoal hnext

end Speculation

end Programs

section Sets
variable {ids : List ℕ} {residents : List (ℕ × Buffer)} {id : ℕ}

lemma unresolved_cons_pos (h : hasResident residents id = true) :
    unresolved (id::ids) residents = unresolved ids residents := by
  rw [unresolved, List.filter_cons_of_neg (by rw [h]; decide)]
  rfl

lemma unresolved_cons_neg (h : hasResident residents id = false) :
    unresolved (id::ids) residents = id::unresolved ids residents := by
  rw [unresolved, List.filter_cons_of_pos (by rw [h]; decide)]
  rfl

/-- Another resident resolves its own id. -/
lemma unresolved_append (b : Buffer) : unresolved ids (residents++[(id,b)]) =
    (unresolved ids residents).filter fun other => !other == id := by
  rw [unresolved, unresolved, List.filter_filter]
  refine List.filter_congr fun other _ => ?_
  rw [hasResident, hasResident, List.any_append, List.any_cons, List.any_nil, Bool.or_false,
    Bool.not_or, Bool.and_comm, BEq.comm]

/-- Together with what was there, every id once, as they come first. -/
def wanted (ids : List ℕ) (residents : List (ℕ × Buffer)) : List ℕ :=
  residents.map Prod.fst++(unresolved ids residents).eraseDups

lemma wanted_cons_pos (h : hasResident residents id = true) :
    wanted (id::ids) residents = wanted ids residents := by
  rw [wanted, unresolved_cons_pos h, wanted]

lemma wanted_cons_neg (h : hasResident residents id = false) (b : Buffer) :
    wanted (id::ids) residents = wanted ids (residents++[(id,b)]) := by
  rw [wanted, wanted, unresolved_cons_neg h, List.eraseDups_cons, unresolved_append, List.map_append,
    List.append_assoc]
  rfl

lemma eraseDups_eq_self (h : ids.Nodup) : ids.eraseDups = ids := by
  induction ids with
  | nil => rfl
  | cons id ids ih =>
    obtain ⟨hnot,hnodup⟩ := List.nodup_cons.mp h
    rw [List.eraseDups_cons, List.filter_eq_self.mpr fun other hmem => ?_, ih hnodup]
    simp only [Bool.not_eq_true', beq_eq_false_iff_ne]
    rintro rfl
    exact hnot hmem

/-- In a table of distinct keys every entry is found. -/
lemma lookup_eq_some {table : List (ℕ × Buffer)} (hnodup : (table.map Prod.fst).Nodup)
    {entry : ℕ × Buffer} (hmem : entry ∈ table) : table.lookup entry.1 = some entry.2 := by
  induction table with
  | nil => exact absurd hmem List.not_mem_nil
  | cons first table ih =>
    rw [List.map_cons, List.nodup_cons] at hnodup
    obtain rfl | hmem := List.mem_cons.mp hmem
    · rw [List.lookup_cons, beq_self_eq_true]
    · have hne : (entry.1 == first.1) = false := by
        rw [beq_eq_false_iff_ne]
        intro heq
        exact hnodup.1 (heq ▸ List.mem_map_of_mem hmem)
      rw [List.lookup_cons, hne]
      exact ih hnodup.2 hmem

/-- Reads of distinct experts that are all complete are in request order again. -/
lemma orderCompleted_ok {completed : List (ℕ × Buffer)} (hnodup : (completed.map Prod.fst).Nodup) :
    orderCompleted (completed.map Prod.fst) completed = .ok completed := by
  have hall : ∀ some_of : List (ℕ × Buffer), some_of ⊆ completed →
      ((some_of.map Prod.fst).mapM fun id => (completed.lookup id).map fun buffer => (id,buffer)) =
        some some_of := by
    intro part hpart
    induction part with
    | nil => rfl
    | cons entry part ih =>
      rw [List.cons_subset] at hpart
      rw [List.map_cons, List.mapM_cons, lookup_eq_some hnodup hpart.1, ih hpart.2]
      rfl
  rw [orderCompleted, hall completed (List.Subset.refl _)]
  dsimp only
  rw [if_pos (List.length_map ..).symm]

end Sets

/-- An error that the checks before it exclude. -/
def GpuNativeDemandResidencyError.isInternal : GpuNativeDemandResidencyError → Bool
  | productionBatchCommitViolation _ => true
  | qualificationCompletedReadSetMismatch _ _ => true
  | _ => false

/-- What a demand brought: the ids in order as far as it came, all of them where it succeeded. -/
structure Brings (ids : List ℕ) (residents : List (ℕ × Buffer)) (demanded : Demanded) : Prop where
  part : demanded.1.map Prod.fst <+: wanted ids residents
  whole : demanded.2 = some (.ok ()) → demanded.1.map Prod.fst = wanted ids residents
  external : ∀ error, demanded.2 = some (.error error) → error.isInternal = false

section Programs
variable {shadowSlots : ℕ} {α : Type} {goal : α → Multiset Token → Prop} {frame : Multiset Token}
  {ids : List ℕ} {residents : List (ℕ × Buffer)} {ticket bufferSize : ℕ}

lemma Brings.stop {result : Option (Except GpuNativeDemandResidencyError Unit)}
    (hok : result ≠ some (.ok ())) (hexternal : ∀ error, result = some (.error error) →
      error.isInternal = false) : Brings ids residents (residents,result) :=
  ⟨List.prefix_append _ _,fun h => absurd h hok,hexternal⟩

lemma idle_residentTokens (residents : List (ℕ × Buffer)) (hframe : Idle true frame) :
    Idle true (residentTokens residents+frame) := by
  intro n seen t ht
  obtain ht | ht := Multiset.mem_add.mp ht
  · obtain ⟨resident,-,rfl⟩ := Multiset.mem_map.mp ht
    rfl
  · exact hframe n seen t ht

section Sources
variable {f : Demanded → Task α} (hgoal : ∀ a n seen held, goal a held → goal a ({.watch n seen}+held))
include hgoal

lemma owns_demandSource {id : ℕ} {f : Option (Except ExpertReadError Buffer) → Task α}
    (hidle : Idle true frame) (hnext : ∀ result, Owns (logic shadowSlots true) goal (f result)
      (arcOf id result+frame)) :
    Owns (logic shadowSlots true) goal (demandSource id >>= f) frame := by
  rw [demandSource, bind_assoc]
  refine Owns.look (.get id) (fun _ _ => trivial) ?_
  rintro (_ | b) left ⟨⟩
  · rw [Option.map_none, Option.getD_none, zero_add]
    exact owns_fetchWithRetryInner hgoal hidle hnext
  · exact hnext (some (.ok b))

lemma owns_sequentialSource (hidle : Idle true frame)
    (hnext : ∀ demanded, Brings ids residents demanded →
      Owns (logic shadowSlots true) goal (f demanded) (residentTokens demanded.1+frame)) :
    Owns (logic shadowSlots true) goal (sequentialSource ids residents >>= f)
      (residentTokens residents+frame) := by
  induction ids generalizing residents with
  | nil =>
    refine hnext (residents,some (.ok ())) ⟨?_,fun _ => ?_,by simp⟩
    · exact List.prefix_append _ _
    · exact (List.append_nil _).symm
  | cons id ids ih =>
    rw [sequentialSource]
    split_ifs with hresident
    · refine ih fun demanded hbrings => hnext demanded ⟨?_,?_,hbrings.external⟩
      · rw [wanted_cons_pos hresident]
        exact hbrings.part
      · rw [wanted_cons_pos hresident]
        exact hbrings.whole
    · rw [Bool.not_eq_true] at hresident
      rw [bind_assoc]
      refine owns_demandSource hgoal (idle_residentTokens residents hidle) fun result => ?_
      obtain _ | error | b := result
      · rw [arcOf, zero_add]
        exact hnext (residents,none) (.stop (by simp) (by simp))
      · rw [arcOf, zero_add]
        refine hnext (residents,some (.error (.source error))) (.stop (by simp) ?_)
        rintro _ ⟨⟩
        rfl
      · dsimp only
        have harc : arcOf id (some (.ok b) : Option (Except ExpertReadError Buffer))+
            (residentTokens residents+frame) = residentTokens (residents++[(id,b)])+frame := by
          rw [residentTokens_append, residentTokens_cons, residentTokens_nil, arcOf]
          abel
        rw [harc]
        refine ih fun demanded hbrings => hnext demanded ⟨?_,?_,hbrings.external⟩
        · rw [wanted_cons_neg hresident b]
          exact hbrings.part
        · rw [wanted_cons_neg hresident b]
          exact hbrings.whole

end Sources

section Batch
variable {guards : List (ℕ × ℕ)}

/-- Guards that all know the same of their experts. -/
def flagged (missing : Bool) (guards : List (ℕ × ℕ)) : List (ℕ × ℕ × Bool) :=
  guards.map fun guard => (guard.1,guard.2,missing)

def guardTokens (missing : Bool) (guards : List (ℕ × ℕ)) : Multiset Token :=
  claimTokens (flagged missing guards)

lemma map_flagged (missing : Bool) (guards : List (ℕ × ℕ)) :
    (flagged missing guards).map (fun flag => (flag.1,flag.2.1)) = guards := by
  rw [flagged, List.map_map]
  exact List.map_id guards

lemma map_fst_flagged (missing : Bool) (guards : List (ℕ × ℕ)) :
    (flagged missing guards).map Prod.fst = guards.map Prod.fst := by
  rw [flagged, List.map_map]
  rfl

@[simp] lemma guardTokens_nil (missing : Bool) : guardTokens missing [] = 0 := rfl

@[simp] lemma guardTokens_cons (missing : Bool) (guard : ℕ × ℕ) :
    guardTokens missing (guard::guards) =
      {.claim guard.1 guard.2 missing}+guardTokens missing guards := rfl

lemma guardTokens_concat (missing : Bool) (guard : ℕ × ℕ) :
    guardTokens missing (guards++[guard]) =
      guardTokens missing guards+{.claim guard.1 guard.2 missing} := by
  rw [guardTokens, flagged, List.map_append, claimTokens_append]
  rfl

lemma owns_dropAll {holding : Bool} {f : Unit → Task α} (missing : Bool)
    (hnext : Owns (logic shadowSlots holding) goal (f ()) frame) :
    Owns (logic shadowSlots holding) goal (dropGuards guards >>= f)
      (guardTokens missing guards+frame) := by
  have hdrop := owns_dropGuards (flagged missing guards) hnext
  rwa [map_flagged] at hdrop

lemma owns_anyContained {holding : Bool} {f : Bool → Task α}
    (hnext : ∀ present, Owns (logic shadowSlots holding) goal (f present) frame) :
    Owns (logic shadowSlots holding) goal (anyContained ids >>= f) frame := by
  induction ids with
  | nil => exact hnext false
  | cons id ids ih =>
    rw [anyContained, bind_assoc]
    refine Owns.look (.contains id) (fun _ _ => trivial) ?_
    rintro (_ | _) left ⟨⟩
    · rw [zero_add]
      exact ih
    · rw [zero_add]
      exact hnext true

/-- Under all guards the answer that nothing is there lasts. -/
lemma owns_anyContained_guards {holding : Bool} {f : Bool → Task α} (seen : List (ℕ × ℕ))
    (hfalse : Owns (logic shadowSlots holding) goal (f false) (guardTokens true (seen++guards)+frame))
    (htrue : ∀ flags : List (ℕ × ℕ × Bool), (flags.map fun flag => (flag.1,flag.2.1)) = seen++guards →
      Owns (logic shadowSlots holding) goal (f true) (claimTokens flags+frame)) :
    Owns (logic shadowSlots holding) goal (anyContained (guards.map Prod.fst) >>= f)
      (guardTokens true seen+guardTokens false guards+frame) := by
  induction guards generalizing seen with
  | nil =>
    rw [List.append_nil] at hfalse
    rw [guardTokens_nil, add_zero]
    exact hfalse
  | cons guard guards ih =>
    rw [List.map_cons, anyContained, bind_assoc]
    refine Owns.ask (guardTokens true seen+guardTokens false guards+frame)
      (.containsUnderGuard guard.1 guard.2 false) (by rw [guardTokens_cons]; abel)
      (fun _ _ => trivial) ?_
    rintro (_ | _) left ⟨⟩
    · have hrest := ih (seen++[guard]) (by rwa [List.append_assoc]) (by rwa [List.append_assoc])
      rw [guardTokens_concat] at hrest
      convert hrest using 1
      rw [Bool.not_false, Bool.false_or]
      abel
    · have hflags := htrue (flagged true seen++flagged false (guard::guards)) (by
        rw [List.map_append, map_flagged, map_flagged])
      rw [claimTokens_append, ← guardTokens, ← guardTokens, guardTokens_cons] at hflags
      have hall : {Token.claim guard.1 guard.2 (false || !true)}+
          (guardTokens true seen+guardTokens false guards+frame) =
          guardTokens true seen+({Token.claim guard.1 guard.2 false}+guardTokens false guards)+frame := by
        rw [Bool.not_true, Bool.false_or]
        abel
      rw [hall]
      exact hflags

/-- Guards for all ids, which are then distinct. -/
lemma owns_claimAll {holding : Bool} {f : Except (List (ℕ × ℕ)) (List (ℕ × ℕ)) → Task α}
    (hgoal : ∀ a n seen held, goal a held → goal a ({.watch n seen}+held))
    (hnodup : (guards.map Prod.fst).Nodup)
    (hok : ∀ all : List (ℕ × ℕ), all.map Prod.fst = guards.map Prod.fst++ids →
      (all.map Prod.fst).Nodup →
      Owns (logic shadowSlots holding) goal (f (.ok all)) (guardTokens false all+frame))
    (herror : ∀ claimed, Owns (logic shadowSlots holding) goal (f (.error claimed))
      (guardTokens false claimed+frame)) :
    Owns (logic shadowSlots holding) goal (claimAll ids guards >>= f)
      (guardTokens false guards+frame) := by
  induction ids generalizing guards with
  | nil => exact hok guards (List.append_nil _).symm hnodup
  | cons id ids ih =>
    rw [claimAll, bind_assoc]
    refine Owns.ask frame (.tryClaim (flagged false guards) id) rfl (fun _ _ => trivial) ?_
    rintro (n | n) left hleft
    · cases hleft
      rw [add_assoc]
      exact (herror guards).more _ trivial fun a held => hgoal a n 0 held
    · rw [claimLeaves] at hleft
      split_ifs at hleft with hmem
      cases hleft
      rw [map_fst_flagged] at hmem
      rw [← guardTokens, add_comm {Token.claim id n false}, ← guardTokens_concat false (id,n)]
      refine ih ?_ fun all hids => hok all ?_
      · rw [List.map_append, List.map_singleton, List.nodup_append_comm]
        exact List.nodup_cons.mpr ⟨hmem,hnodup⟩
      · rw [hids, List.map_append, List.append_assoc]
        rfl

lemma owns_acquireAll {holding : Bool} {f : Except (List Buffer) (List Buffer) → Task α} (left : ℕ)
    (buffers : List Buffer) (hslots : ∀ b ∈ buffers, b.slot = .primary)
    (hok : ∀ all, all.length = buffers.length+left → (∀ b ∈ all, b.slot = .primary) →
      Owns (logic shadowSlots holding) goal (f (.ok all)) (bufferTokens all+frame))
    (herror : ∀ acquired, Owns (logic shadowSlots holding) goal (f (.error acquired))
      (bufferTokens acquired+frame)) :
    Owns (logic shadowSlots holding) goal (acquireAll left buffers >>= f)
      (bufferTokens buffers+frame) := by
  induction left generalizing buffers with
  | zero => exact hok buffers rfl hslots
  | succ left ih =>
    rw [acquireAll, bind_assoc]
    refine Owns.look .tryAcquire (fun _ _ => trivial) ?_
    rintro (_ | b) rest hrest
    · cases hrest
      rw [zero_add]
      exact herror buffers
    · dsimp only at hrest
      split_ifs at hrest with hslot
      cases hrest
      have hall : {Token.buffer b}+(bufferTokens buffers+frame) = bufferTokens (buffers++[b])+frame := by
        rw [bufferTokens_append, bufferTokens_cons, bufferTokens_nil]
        abel
      rw [hall]
      refine ih (buffers++[b]) ?_ fun all hlength => hok all ?_
      · intro other hmem
        obtain hmem | hmem := List.mem_append.mp hmem
        · exact hslots other hmem
        · rwa [List.mem_singleton.mp hmem]
      · rw [hlength, List.length_append, List.length_singleton]
        omega

lemma owns_newResidents {holding : Bool} {f : Unit → Task α} (pairs : List (ℕ × Buffer))
    (hnext : Owns (logic shadowSlots holding) goal (f ()) (residentTokens pairs+frame)) :
    Owns (logic shadowSlots holding) goal (newResidents pairs >>= f)
      (filledTokens pairs+frame) := by
  induction pairs generalizing frame with
  | nil => exact hnext
  | cons pair pairs ih =>
    rw [newResidents, bind_assoc, filledTokens_cons, add_assoc]
    refine Owns.ask _ (.newResident pair.1 pair.2) rfl (fun _ _ => trivial) ?_
    rintro ⟨⟩ left ⟨⟩
    rw [add_left_comm]
    refine ih ?_
    convert hnext using 1
    rw [residentTokens_cons]
    abel

/-- Experts that are still missing are committed one after the other; none is refused. -/
lemma owns_commitAll {holding : Bool}
    {f : List (ℕ × Buffer) × Except (ℕ × List (ℕ × Buffer)) Unit → Task α} (staged : List (ℕ × Buffer))
    (pending : List ℕ) (hids : guards.map Prod.fst = staged.map Prod.fst)
    (hnext : Owns (logic shadowSlots holding) goal (f (residents++staged,.ok ()))
      ({.reservation ticket pending}+(guardTokens false guards+(residentTokens staged+frame)))) :
    Owns (logic shadowSlots holding) goal (commitAll ticket staged residents >>= f)
      ({.reservation ticket (staged.map Prod.fst++pending)}+
        (guardTokens true guards+(residentTokens staged+frame))) := by
  induction staged generalizing guards residents frame with
  | nil =>
    obtain rfl := List.map_eq_nil_iff.mp hids
    rw [List.append_nil] at hnext
    exact hnext
  | cons entry staged ih =>
    obtain ⟨id,b⟩ := entry
    cases guards with
    | nil => cases hids
    | cons guard guards =>
      rw [List.map_cons, List.map_cons] at hids
      obtain ⟨rfl,hrest⟩ := List.cons.inj hids
      rw [commitAll, bind_assoc]
      refine Owns.ask (guardTokens true guards+(residentTokens staged+frame))
        (.commit ticket guard.1 guard.2 (staged.map Prod.fst++pending) b) (by
          rw [guardTokens_cons, residentTokens_cons, List.map_cons, List.cons_append]
          abel) (fun _ _ => trivial) ?_
      rintro (_ | _) left ⟨⟩
      have hturn := @ih ({.claim guard.1 guard.2 false}+({.resident guard.1 b}+frame))
        (residents++[(guard.1,b)]) guards hrest (by
          rw [List.append_assoc, List.singleton_append]
          convert hnext using 1
          rw [guardTokens_cons, residentTokens_cons]
          abel)
      convert hturn using 1
      abel

variable {f : Demanded → Task α} {buffers : List Buffer}

/-- A batch that was read is installed as a whole. -/
lemma owns_installBatch {holding : Bool} (hids : guards.map Prod.fst = ids) (hnodup : ids.Nodup)
    (hlength : buffers.length = ids.length)
    (hnext : Owns (logic shadowSlots holding) goal (f (residents++ids.zip buffers,some (.ok ())))
      (residentTokens (residents++ids.zip buffers)+frame)) :
    Owns (logic shadowSlots holding) goal (installBatch ids guards ticket buffers residents >>= f)
      (filledTokens (ids.zip buffers)+({.reservation ticket ids}+(guardTokens true guards+
        (residentTokens residents+frame)))) := by
  have hfst : (ids.zip buffers).map Prod.fst = ids := List.map_fst_zip hlength.ge
  have hordered : orderCompleted ids (ids.zip buffers) = .ok (ids.zip buffers) := by
    have hcompleted := orderCompleted_ok (by rwa [hfst] : ((ids.zip buffers).map Prod.fst).Nodup)
    rwa [hfst] at hcompleted
  rw [installBatch, bind_assoc]
  refine owns_newResidents _ ?_
  rw [hordered]
  simp only [bind_assoc]
  have hswap : residentTokens (ids.zip buffers)+({.reservation ticket ids}+(guardTokens true guards+
      (residentTokens residents+frame))) =
      {.reservation ticket ((ids.zip buffers).map Prod.fst++[])}+(guardTokens true guards+
        (residentTokens (ids.zip buffers)+(residentTokens residents+frame))) := by
    rw [hfst, List.append_nil]
    abel
  rw [hswap]
  refine owns_commitAll (ids.zip buffers) [] (hids.trans hfst.symm) ?_
  simp only [bind_assoc]
  rw [add_left_comm]
  refine owns_dropAll false (owns_dropReservation [] ?_)
  have hall : residentTokens (ids.zip buffers)+(residentTokens residents+frame) =
      residentTokens (residents++ids.zip buffers)+frame := by
    rw [residentTokens_append]
    abel
  rw [hall]
  exact hnext

/-- A reserved batch ends well or fails closed. -/
lemma owns_readBatch {holding : Bool} (hids : guards.map Prod.fst = ids) (hnodup : ids.Nodup)
    (hnext : ∀ demanded : Demanded, (demanded.1 = residents ∧ demanded.2 ≠ some (.ok ()) ∧
      ∀ error, demanded.2 = some (.error error) → error.isInternal = false) ∨
      (demanded.1.map Prod.fst = residents.map Prod.fst++ids ∧ demanded.2 = some (.ok ())) →
        Owns (logic shadowSlots holding) goal (f demanded) (residentTokens demanded.1+frame)) :
    Owns (logic shadowSlots holding) goal (readBatch bufferSize ids guards ticket residents >>= f)
      ({.reservation ticket ids}+(guardTokens true guards+(residentTokens residents+frame))) := by
  -- everything is let go, and the residents stay as they were
  have hstop : ∀ (buffers : List Buffer) (result : Option (Except GpuNativeDemandResidencyError Unit)),
      result ≠ some (.ok ()) → (∀ error, result = some (.error error) → error.isInternal = false) →
      Owns (logic shadowSlots holding) goal (dropBuffers buffers >>= fun _ => dropReservation ticket >>=
        fun _ => dropGuards guards >>= fun _ => f (residents,result))
        (bufferTokens buffers+({.reservation ticket ids}+
          (guardTokens true guards+(residentTokens residents+frame)))) := by
    intro buffers result hresult hexternal
    exact owns_dropBuffers buffers (owns_dropReservation ids (owns_dropAll true
      (hnext (residents,result) (.inl ⟨rfl,hresult,hexternal⟩))))
  rw [readBatch, bind_assoc]
  have hacquire := @owns_acquireAll shadowSlots α goal ({.reservation ticket ids}+
    (guardTokens true guards+(residentTokens residents+frame))) holding
  rw [← zero_add ({Token.reservation ticket ids}+_), ← bufferTokens_nil]
  refine hacquire ids.length [] nofun (fun buffers hlength hslots => ?_) fun acquired => ?_
  · rw [List.length_nil, zero_add] at hlength
    simp only [bind_assoc]
    rw [← hids]
    refine Owns.ask ({.reservation ticket ids}+(residentTokens residents+frame))
      (.readExpertsBatch _ guards buffers hslots (by rw [hlength, ← hids, List.length_map])) (by
        rw [hids, guardTokens, flagged]
        abel) (fun _ _ => trivial) ?_
    have hback : ∀ leaves, claimTokens (guards.map fun guard => (guard.1,guard.2,true))+leaves+
        ({.reservation ticket ids}+(residentTokens residents+frame)) = leaves+
        ({.reservation ticket ids}+(guardTokens true guards+(residentTokens residents+frame))) := by
      intro leaves
      rw [guardTokens, flagged]
      abel
    rintro (_ | source | readBytes) left ⟨⟩
    · rw [hback]
      simp only [bind_assoc]
      exact hstop buffers none nofun nofun
    · rw [hback]
      simp only [bind_assoc]
      refine hstop buffers _ nofun ?_
      rintro _ ⟨⟩
      rfl
    · rw [hback, batchLeaves]
      dsimp only
      split_ifs
      · rw [hids]
        refine owns_installBatch hids hnodup hlength (hnext _ (.inr ⟨?_,rfl⟩))
        rw [List.map_append, List.map_fst_zip hlength.ge]
      · simp only [bind_assoc]
        refine hstop buffers _ nofun ?_
        rintro _ ⟨⟩
        rfl
  · simp only [bind_assoc]
    refine hstop acquired _ nofun ?_
    rintro _ ⟨⟩
    rfl

lemma owns_productionSource (hgoal : ∀ a n seen held, goal a held → goal a ({.watch n seen}+held))
    (hidle : Idle true frame) (hnext : ∀ demanded, Brings ids residents demanded →
      Owns (logic shadowSlots true) goal (f demanded) (residentTokens demanded.1+frame)) :
    Owns (logic shadowSlots true) goal (productionSource bufferSize ids residents >>= f)
      (residentTokens residents+frame) := by
  have hsequential := owns_sequentialSource hgoal hidle hnext
  have hdrop : ∀ (guards : List (ℕ × ℕ)) (missing : Bool), Owns (logic shadowSlots true) goal
      (dropGuards guards >>= fun _ => sequentialSource ids residents >>= f)
      (guardTokens missing guards+(residentTokens residents+frame)) :=
    fun guards missing => owns_dropAll missing hsequential
  rw [productionSource]
  split_ifs
  · exact hsequential
  rw [bind_assoc]
  refine owns_anyContained fun present => ?_
  cases present
  case true => exact hsequential
  simp only [bind_assoc]
  rw [← zero_add (residentTokens residents+frame), ← guardTokens_nil false]
  refine owns_claimAll hgoal List.nodup_nil (fun guards hguards hnodup => ?_) fun claimed => ?_
  · rw [List.map_nil, List.nil_append] at hguards
    rw [hguards] at hnodup
    simp only [bind_assoc]
    rw [← hguards, ← zero_add (guardTokens false guards), ← guardTokens_nil true]
    refine owns_anyContained_guards [] ?_ fun flags hflags => ?_
    · simp only [bind_assoc]
      rw [hguards]
      refine Owns.look (.tryReserveExactDemand (unresolved ids residents)) (fun _ _ => trivial) ?_
      rintro (error | ⟨ticket,victims⟩) left ⟨⟩
      · simp only [bind_assoc]
        rw [reserveLeaves, zero_add]
        exact hdrop guards true
      · simp only [bind_assoc]
        have hleft : reserveLeaves (unresolved ids residents) (.ok (ticket,victims))+
            (guardTokens true ([]++guards)+(residentTokens residents+frame)) =
            residentTokens victims+({.reservation ticket (unresolved ids residents)}+
              (guardTokens true guards+(residentTokens residents+frame))) := by
          rw [reserveLeaves, List.nil_append]
          abel
        rw [hleft]
        refine owns_dropResidents victims (owns_readBatch hguards hnodup ?_)
        rintro ⟨brought,result⟩ (⟨rfl,hresult,hexternal⟩ | ⟨hbrought,rfl⟩)
        · exact hnext _ (.stop hresult hexternal)
        · have hall : brought.map Prod.fst = wanted ids residents := by
            rw [hbrought, wanted, eraseDups_eq_self hnodup]
          exact hnext _ ⟨hall ▸ List.prefix_rfl,fun _ => hall,nofun⟩
    · rw [List.nil_append] at hflags
      simp only [bind_assoc]
      rw [← hflags]
      exact owns_dropGuards flags hsequential
  · simp only [bind_assoc]
    exact hdrop claimed false

end Batch

end Programs

end MicroExpertRouter.Fetch
