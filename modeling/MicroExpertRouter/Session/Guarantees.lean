import MicroExpertRouter.Session.Runs

/-! What the session store guarantees over whole runs: when an id is locked, and when a deleted
session comes back. -/
namespace MicroExpertRouter.Session

section Locking
variable {ι α : Type} {system next : System ι α} {operation : Operation ι α} {answer : Answer α}
  {zeroized : List (Tagged α)}

lemma CheckedOut.pop (h : Consistent system) {id : ι} {entry : ℕ} {state : SessionState (Tagged α)}
    {guard : SessionCheckout ι} (hlive : (entry,state,guard) ∈ system.checkouts)
    (hid : id ≠ guard.id) (hout : system.CheckedOut id) :
    ∃ checkout ∈ Lru.pop system.checkouts entry, checkout.2.2.id = id := by
  obtain ⟨checkout,hmem,rfl⟩ := hout
  refine ⟨checkout,(Lru.mem_pop (x := checkout.1) (w := checkout.2)).mpr ⟨hmem,?_⟩,rfl⟩
  rintro rfl
  rw [h.checkouts.eq hmem hlive] at hid
  exact hid rfl

variable [DecidableEq ι]

/-- An operation drops the guard of a tombstoned id without returning its state under that id. -/
def Operation.Abandons (system : System ι α) : Operation ι α → Prop
  | .dropCheckout entry => ∃ state guard, (entry,state,guard) ∈ system.checkouts ∧
    guard.id ∈ system.store.tombstones
  | .putBack id entry _ _ => ∃ state guard, (entry,state,guard) ∈ system.checkouts ∧
    guard.id ≠ id ∧ guard.id ∈ system.store.tombstones
  | _ => False

/-- Every id without a live guard has neither marker nor tombstone, and what is stored under it
now is taken next. -/
def System.Unlocked (system : System ι α) : Prop :=
  ∀ id, ¬ system.CheckedOut id →
    Lru.peek system.store.inFlight id = none ∧ id ∉ system.store.tombstones ∧
    ∀ payload now, ∃ token,
      ((system.step (.putFresh id payload now)).after.step (.take id)).answer =
        .taken (some (⟨payload,system.puts,system.puts⟩,token))

/-- Every tombstone has a live guard. -/
def System.Attended (system : System ι α) : Prop :=
  ∀ id ∈ system.store.tombstones, system.CheckedOut id

lemma not_checkedOut_pop (h : Consistent system) {entry : ℕ} {state : SessionState (Tagged α)}
    {guard : SessionCheckout ι} (hlive : (entry,state,guard) ∈ system.checkouts) :
    ¬ ∃ checkout ∈ Lru.pop system.checkouts entry, checkout.2.2.id = guard.id := by
  refine (h.released hlive).peek_eq_none.mp ?_
  rw [Lru.peek_eq_none]
  exact fun token hmem => (Lru.mem_pop.mp hmem).2 rfl

/-- Unless a guard is abandoned, its tombstone goes with it. -/
lemma Change.attended (hchange : Change system operation answer zeroized next)
    (h : Consistent system) (hmeets : ¬ operation.Abandons system) (hattended : system.Attended) :
    next.Attended := by
  cases hchange with
  | idle => exact hattended
  | drawn => exact hattended
  | checkedOut id state =>
    intro other hburied
    obtain ⟨checkout,hmem,heq⟩ := hattended other hburied
    exact ⟨checkout,List.mem_cons_of_mem _ hmem,heq⟩
  | freshScrubbed => exact hattended
  | freshStored => exact hattended
  | mismatched id entry payload now state guard hlive hid =>
    intro other hburied
    refine CheckedOut.pop h hlive ?_ (hattended other hburied)
    rintro rfl
    exact hmeets ⟨state,guard,hlive,hid,hburied⟩
  | returnScrubbed entry payload now state guard hlive =>
    intro other hburied
    obtain ⟨hne,hburied⟩ := Finset.mem_erase.mp hburied
    exact CheckedOut.pop h hlive hne (hattended other hburied)
  | returned entry payload now state guard hlive htombstone =>
    intro other hburied
    refine CheckedOut.pop h hlive ?_ (hattended other hburied)
    rintro rfl
    exact htombstone hburied
  | dropped entry state guard hlive =>
    intro other hburied
    refine CheckedOut.pop h hlive ?_ (hattended other hburied)
    rintro rfl
    exact hmeets ⟨state,guard,hlive,hburied⟩
  | deletedStored => exact hattended
  | deletedInFlight id habsent hout =>
    intro other hburied
    rcases Finset.mem_insert.mp hburied with rfl | hburied
    · exact hout
    · exact hattended other hburied
  | evicted => exact hattended

/-- An abandoned guard leaves its tombstone behind. -/
lemma abandons_locks (h : Consistent system) (habandons : operation.Abandons system) :
    ¬ (system.step operation).after.Unlocked := by
  have hlocked : ∃ guard : SessionCheckout ι,
      ¬ (system.step operation).after.CheckedOut guard.id ∧
        guard.id ∈ (system.step operation).after.store.tombstones := by
    cases operation with
    | dropCheckout entry =>
      obtain ⟨state,guard,hlive,hburied⟩ := habandons
      refine ⟨guard,?_⟩
      unfold System.step
      dsimp only
      rw [(Lru.peek_eq_some h.checkouts).mpr hlive]
      dsimp only
      rw [h.drop_eq hlive]
      exact ⟨not_checkedOut_pop h hlive,hburied⟩
    | putBack id entry payload now =>
      obtain ⟨state,guard,hlive,hid,hburied⟩ := habandons
      refine ⟨guard,?_⟩
      unfold System.step System.put
      dsimp only
      rw [(Lru.peek_eq_some h.checkouts).mpr hlive]
      dsimp only
      rw [put_unowned _ _ (fun howns => hid howns.1), h.drop_eq hlive]
      exact ⟨not_checkedOut_pop h hlive,hburied⟩
    | take _ => cases habandons
    | putFresh _ _ _ => cases habandons
    | delete _ => cases habandons
    | evictExpired _ => cases habandons
  obtain ⟨guard,hfree,hburied⟩ := hlocked
  exact fun hunlocked => (hunlocked guard.id hfree).2.1 hburied

lemma Consistent.unlocked (h : Consistent system) (hattended : system.Attended) :
    system.Unlocked := by
  intro id hfree
  have hmarker := h.peek_eq_none.mpr hfree
  have htombstone : id ∉ system.store.tombstones := fun hburied => hfree (hattended id hburied)
  refine ⟨hmarker,htombstone,fun payload now => ⟨system.store.nextCheckout,?_⟩⟩
  have hstored : Lru.peek (Lru.put system.store.inner id
      ⟨⟨payload,system.puts,system.puts⟩,now⟩) id = some ⟨⟨payload,system.puts,system.puts⟩,now⟩ := by
    simp [Lru.peek, Lru.put]
  have hput : (system.step (.putFresh id payload now)).after = { system with
      store := { system.store with
        inner := Lru.put system.store.inner id ⟨⟨payload,system.puts,system.puts⟩,now⟩ }
      puts := system.puts+1 } := by
    unfold System.step System.put SessionStore.put SessionStore.putReleased
    dsimp only
    rw [if_neg htombstone]
  rw [hput, System.step]
  dsimp only
  rw [@take_stored _ _ _ { system.store with
    inner := Lru.put system.store.inner id ⟨⟨payload,system.puts,system.puts⟩,now⟩ } id _ htombstone
    hmarker hstored]

/-- No id stays locked exactly as long as no guard of a tombstoned id is dropped, by itself or
with a `put` under another id. -/
theorem unlocked_iff_none_abandoned (ttl : ℕ) (operations : List (Operation ι α)) :
    (∀ earlier later, operations = earlier++later →
      ((System.new ttl : System ι α).after earlier).Unlocked) ↔
    ∀ earlier operation later, operations = earlier++operation::later →
      ¬ operation.Abandons ((System.new ttl : System ι α).after earlier) := by
  constructor
  · intro hunlocked earlier operation later heq habandons
    refine abandons_locks (reachable_consistent ttl earlier) habandons ?_
    have hstate := hunlocked (earlier++[operation]) later (by rw [heq, List.append_assoc]; rfl)
    rw [after_append] at hstate
    exact hstate
  · intro hmeets earlier later heq
    refine (reachable_consistent ttl earlier).unlocked ?_
    -- The invariant is that every tombstone has a live guard, by induction on the prefix.
    induction earlier using List.reverseRecOn generalizing later with
    | nil => exact fun _ hburied => absurd hburied (Finset.notMem_empty _)
    | append_singleton earlier operation ih =>
      have hconsistent := reachable_consistent ttl earlier
      have heq' : operations = earlier++operation::later := by
        rw [heq, List.append_assoc]
        rfl
      rw [after_append]
      exact (step_change hconsistent operation).attended hconsistent
        (hmeets earlier operation later heq') (ih _ heq')

/-- A session is checked out, deleted and its request cancelled: the tombstone stays, and nothing
stored under the id can be taken any more. -/
theorem cancelled_delete_locks_id :
    ¬ ((System.new 0 : System ℕ ℕ).after
        [.putFresh 7 0 0,.take 7,.delete 7,.dropCheckout 0]).CheckedOut 7 ∧
    7 ∈ ((System.new 0 : System ℕ ℕ).after
        [.putFresh 7 0 0,.take 7,.delete 7,.dropCheckout 0]).store.tombstones ∧
    (((System.new 0 : System ℕ ℕ).after
        [.putFresh 7 0 0,.take 7,.delete 7,.dropCheckout 0,.putFresh 7 1 0]).step (.take 7)).answer =
      .taken none := by
  refine ⟨?_,?_,rfl⟩
  · rintro ⟨checkout,hmem,-⟩
    exact List.not_mem_nil hmem
  · decide

end Locking

section Resurrection
variable {ι α : Type} [DecidableEq ι] {system next : System ι α} {operation : Operation ι α}
  {answer : Answer α} {zeroized : List (Tagged α)}

/-- A session was stored under the id, or checked out from it, at some point of a run. -/
def HeldDuring (ttl : ℕ) (operations : List (Operation ι α)) (id : ι) (origin : ℕ) : Prop :=
  ∃ past rest, operations = past++rest ∧ ∃ session,
    (id,session) ∈ ((System.new ttl : System ι α).after past).held ∧ session.origin = origin

/-- No session of an id from before its delete is taken or stored again. -/
def NeverResurrected (ttl : ℕ) (earlier : List (Operation ι α)) (id : ι) : Prop :=
  ∀ later,
    (∀ session token,
      (((System.new ttl : System ι α).after (earlier++.delete id::later)).step (.take id)).answer =
        .taken (some (session,token)) → ¬ HeldDuring ttl earlier id session.origin) ∧
    ∀ checkout ∈ ((System.new ttl : System ι α).after (earlier++.delete id::later)).checkouts,
      HeldDuring ttl earlier id checkout.2.1.content.origin → ∀ other payload now,
      (((System.new ttl : System ι α).after (earlier++.delete id::later)).step
          (.putBack other checkout.1 payload now)).after.store.inner =
        ((System.new ttl : System ι α).after (earlier++.delete id::later)).store.inner ∧
      ∃ scrubbed, (((System.new ttl : System ι α).after (earlier++.delete id::later)).step
          (.putBack other checkout.1 payload now)).zeroized = [scrubbed] ∧
        scrubbed.origin = checkout.2.1.content.origin

lemma Change.puts_le (hchange : Change system operation answer zeroized next) :
    system.puts ≤ next.puts := by
  cases hchange with
  | freshScrubbed => exact Nat.le_succ _
  | freshStored => exact Nat.le_succ _
  | mismatched => exact Nat.le_succ _
  | returnScrubbed => exact Nat.le_succ _
  | returned => exact Nat.le_succ _
  | _ => exact le_rfl

/-- A stored state was stored before, or has the number of this `put`; then its session is new, or
the one checked out from the same id, which has no tombstone. -/
lemma Change.inner (hchange : Change system operation answer zeroized next) :
    ∀ entry ∈ next.store.inner, entry ∈ system.store.inner ∨
      entry.2.content.entry = system.puts ∧ (entry.2.content.origin = system.puts ∨
        ∃ checkout ∈ system.checkouts, checkout.2.2.id = entry.1 ∧
          checkout.2.1.content.origin = entry.2.content.origin ∧
          checkout.2.2.id ∉ system.store.tombstones) := by
  intro entry hentry
  cases hchange with
  | checkedOut id => exact .inl (List.mem_of_mem_filter hentry)
  | freshStored id payload now htombstone =>
    rcases List.mem_cons.mp hentry with rfl | hentry
    · exact .inr ⟨rfl,.inl rfl⟩
    · exact .inl (List.mem_of_mem_filter hentry)
  | returned key payload now state guard hlive htombstone =>
    rcases List.mem_cons.mp hentry with rfl | hentry
    · exact .inr ⟨rfl,.inr ⟨_,hlive,rfl,rfl,htombstone⟩⟩
    · exact .inl (List.mem_of_mem_filter hentry)
  | deletedStored id => exact .inl (List.mem_of_mem_filter hentry)
  | evicted now removed inner zeroized hsublist => exact .inl (hsublist.subset hentry)
  | _ => exact .inl hentry

/-- A live checkout was alive before, or has just been taken from its id. -/
lemma Change.checkouts (hchange : Change system operation answer zeroized next) :
    ∀ checkout ∈ next.checkouts, checkout ∈ system.checkouts ∨
      (checkout.2.2.id,checkout.2.1) ∈ system.store.inner := by
  intro checkout hcheckout
  cases hchange with
  | checkedOut id state htombstone hfree hstored =>
    rcases List.mem_cons.mp hcheckout with rfl | hcheckout
    · exact .inr hstored
    · exact .inl hcheckout
  | mismatched => exact .inl (List.mem_of_mem_filter hcheckout)
  | returnScrubbed => exact .inl (List.mem_of_mem_filter hcheckout)
  | returned => exact .inl (List.mem_of_mem_filter hcheckout)
  | dropped => exact .inl (List.mem_of_mem_filter hcheckout)
  | _ => exact .inl hcheckout

/-- A session stays under its id: what is held after a change was held there before, or is
fresh. -/
lemma Change.held (hchange : Change system operation answer zeroized next) :
    ∀ held ∈ next.held, (∃ session, (held.1,session) ∈ system.held ∧
      session.origin = held.2.origin) ∨ system.puts ≤ held.2.origin := by
  have hinner : ∀ entry ∈ system.store.inner, (entry.1,entry.2.content) ∈ system.held :=
    fun entry hmem => List.mem_append_left _ (List.mem_map.mpr ⟨entry,hmem,rfl⟩)
  have hcheckouts : ∀ checkout ∈ system.checkouts,
      (checkout.2.2.id,checkout.2.1.content) ∈ system.held :=
    fun checkout hmem => List.mem_append_right _ (List.mem_map.mpr ⟨checkout,hmem,rfl⟩)
  intro held hheld
  rcases List.mem_append.mp hheld with hmem | hmem
  · obtain ⟨entry,hentry,rfl⟩ := List.mem_map.mp hmem
    rcases hchange.inner entry hentry with hold | ⟨-,hfresh | ⟨checkout,hlive,hid,horigin,-⟩⟩
    · exact .inl ⟨_,hinner entry hold,rfl⟩
    · exact .inr hfresh.ge
    · refine .inl ⟨_,?_,horigin⟩
      rw [← hid]
      exact hcheckouts checkout hlive
  · obtain ⟨checkout,hcheckout,rfl⟩ := List.mem_map.mp hmem
    rcases hchange.checkouts checkout hcheckout with hold | hstored
    · exact .inl ⟨_,hcheckouts checkout hold,rfl⟩
    · exact .inl ⟨_,hinner _ hstored,rfl⟩

lemma Consistent.puts_le (h : Consistent system) (operations : List (Operation ι α)) :
    system.puts ≤ (system.after operations).puts := by
  induction operations generalizing system with
  | nil => exact le_rfl
  | cons operation operations ih =>
    have hchange := step_change h operation
    exact hchange.puts_le.trans (ih (hchange.consistent h))

lemma Consistent.held_after (h : Consistent system) (operations : List (Operation ι α)) :
    ∀ held ∈ (system.after operations).held, (∃ session, (held.1,session) ∈ system.held ∧
      session.origin = held.2.origin) ∨ system.puts ≤ held.2.origin := by
  induction operations generalizing system with
  | nil => exact fun held hmem => .inl ⟨held.2,hmem,rfl⟩
  | cons operation operations ih =>
    have hchange := step_change h operation
    intro held hheld
    rcases ih (hchange.consistent h) held hheld with ⟨session,hsession,horigin⟩ | hfresh
    · rw [← horigin]
      exact hchange.held _ hsession
    · exact .inr (hchange.puts_le.trans hfresh)

/-- A session that was ever under an id is under no other. -/
lemma HeldDuring.home {ttl : ℕ} {operations : List (Operation ι α)} {id : ι} {origin : ℕ}
    (hheld : HeldDuring ttl operations id origin) :
    origin<((System.new ttl : System ι α).after operations).puts ∧
    ∀ held ∈ ((System.new ttl : System ι α).after operations).held,
      held.2.origin = origin → held.1 = id := by
  obtain ⟨past,rest,rfl,session,hsession,rfl⟩ := hheld
  have hpast := @reachable_consistent ι α _ ttl past
  have hbelow := (hpast.tidy.below _ hsession).2
  rw [after_append]
  refine ⟨hbelow.trans_le (hpast.puts_le rest),fun held hmem horigin => ?_⟩
  rcases hpast.held_after rest held hmem with ⟨other,hother,hsame⟩ | hfresh
  · have heq := List.inj_on_of_nodup_map hpast.tidy.origins hother hsession (hsame.trans horigin)
    exact (Prod.mk.inj heq).1
  · dsimp only at hbelow
    omega

/-- Sessions that are never taken again: they are not stored, and the guards that hold them have
tombstones. -/
structure Buried (known : ℕ → Prop) (system : System ι α) : Prop where
  old : ∀ origin, known origin → origin<system.puts
  inner : ∀ entry ∈ system.store.inner, ¬ known entry.2.content.origin
  checkouts : ∀ checkout ∈ system.checkouts, known checkout.2.1.content.origin →
    checkout.2.2.id ∈ system.store.tombstones

/-- A tombstone stays as long as a guard of its id is alive. -/
lemma Change.tombstones (hchange : Change system operation answer zeroized next)
    (h : Consistent system) {id : ι} (hburied : id ∈ system.store.tombstones)
    (hout : next.CheckedOut id) : id ∈ next.store.tombstones := by
  cases hchange with
  | returnScrubbed entry payload now state guard hlive =>
    refine Finset.mem_erase.mpr ⟨?_,hburied⟩
    rintro rfl
    exact not_checkedOut_pop h hlive hout
  | deletedInFlight other => exact Finset.mem_insert_of_mem hburied
  | _ => exact hburied

lemma Change.buried (hchange : Change system operation answer zeroized next)
    (h : Consistent system) {known : ℕ → Prop} (hburied : Buried known system) :
    Buried known next := by
  refine ⟨fun origin hknown => (hburied.old origin hknown).trans_le hchange.puts_le,?_,?_⟩
  · intro entry hentry hknown
    rcases hchange.inner entry hentry with hold | ⟨-,hfresh | ⟨checkout,hlive,-,horigin,hunburied⟩⟩
    · exact hburied.inner entry hold hknown
    · rw [hfresh] at hknown
      exact (hburied.old _ hknown).ne rfl
    · rw [← horigin] at hknown
      exact hunburied (hburied.checkouts checkout hlive hknown)
  · intro checkout hcheckout hknown
    rcases hchange.checkouts checkout hcheckout with hold | hstored
    · exact hchange.tombstones h (hburied.checkouts checkout hold hknown) ⟨checkout,hcheckout,rfl⟩
    · exact absurd hknown (hburied.inner _ hstored)

lemma Buried.after {known : ℕ → Prop} (hburied : Buried known system) (h : Consistent system)
    (operations : List (Operation ι α)) : Buried known (system.after operations) := by
  induction operations generalizing system with
  | nil => exact hburied
  | cons operation operations ih =>
    have hchange := step_change h operation
    exact ih (hchange.buried h hburied) (hchange.consistent h)

/-- Buried sessions are not taken. -/
lemma Buried.taken {known : ℕ → Prop} (hburied : Buried known system) (h : Consistent system)
    {id : ι} {session : Tagged α} {token : ℕ}
    (htaken : (system.step (.take id)).answer = .taken (some (session,token))) :
    ¬ known session.origin := by
  have hchange := step_change h (.take id)
  rw [htaken] at hchange
  generalize (system.step (.take id)).after = next at hchange
  generalize (system.step (.take id)).zeroized = zeroized at hchange
  cases hchange with
  | idle _ _ hnone => exact absurd rfl (hnone _)
  | checkedOut _ state _ _ hstored => exact hburied.inner _ hstored

/-- A guard that holds one is returned in vain. -/
lemma Buried.returned {known : ℕ → Prop} (hburied : Buried known system) (h : Consistent system)
    {checkout : ℕ × SessionState (Tagged α) × SessionCheckout ι}
    (hlive : checkout ∈ system.checkouts) (hknown : known checkout.2.1.content.origin) (other : ι)
    (payload : α) (now : ℕ) :
    (system.step (.putBack other checkout.1 payload now)).after.store.inner = system.store.inner ∧
    ∃ scrubbed, (system.step (.putBack other checkout.1 payload now)).zeroized = [scrubbed] ∧
      scrubbed.origin = checkout.2.1.content.origin := by
  have htombstone := hburied.checkouts checkout hlive hknown
  obtain ⟨entry,state,guard⟩ := checkout
  unfold System.step System.put
  dsimp only at htombstone ⊢
  rw [(Lru.peek_eq_some h.checkouts).mpr hlive]
  dsimp only
  by_cases hid : guard.id = other
  · subst hid
    rw [put_owned _ _ ⟨rfl,h.peek_marker hlive⟩, SessionStore.putReleased]
    dsimp only
    rw [if_pos htombstone]
    exact ⟨rfl,_,rfl,rfl⟩
  · rw [put_unowned _ _ (fun howns => hid howns.1), h.drop_eq hlive]
    exact ⟨rfl,_,rfl,rfl⟩

/-- A delete that finds its id only stored or only checked out buries its sessions. -/
lemma delete_buries {ttl : ℕ} {earlier : List (Operation ι α)} {id : ι}
    (hdeleted : (((System.new ttl : System ι α).after earlier).step (.delete id)).answer =
      .deleted true)
    (hclean : ¬ ((∃ state, (id,state) ∈ ((System.new ttl : System ι α).after earlier).store.inner) ∧
      ((System.new ttl : System ι α).after earlier).CheckedOut id)) :
    Buried (HeldDuring ttl earlier id)
      (((System.new ttl : System ι α).after earlier).step (.delete id)).after := by
  have h := @reachable_consistent ι α _ ttl earlier
  have hhome := fun origin (hheld : HeldDuring ttl earlier id origin) => hheld.home
  generalize (System.new ttl : System ι α).after earlier = system at *
  have hchange := step_change h (.delete id)
  rw [hdeleted] at hchange
  generalize (system.step (.delete id)).after = next at hchange
  generalize (system.step (.delete id)).zeroized = zeroized at hchange
  have hstored : ∀ entry ∈ system.store.inner, HeldDuring ttl earlier id entry.2.content.origin →
      entry.1 = id := fun entry hentry hheld => (hhome _ hheld).2 (entry.1,entry.2.content)
    (List.mem_append_left _ (List.mem_map.mpr ⟨entry,hentry,rfl⟩)) rfl
  have hlive : ∀ checkout ∈ system.checkouts,
      HeldDuring ttl earlier id checkout.2.1.content.origin → checkout.2.2.id = id :=
    fun checkout hcheckout hheld => (hhome _ hheld).2 (checkout.2.2.id,checkout.2.1.content)
      (List.mem_append_right _ (List.mem_map.mpr ⟨checkout,hcheckout,rfl⟩)) rfl
  cases hchange with
  | idle _ _ _ hfalse => exact absurd rfl hfalse
  | deletedStored _ state hmem htombstone =>
    refine ⟨fun origin hheld => (hhome origin hheld).1,fun entry hentry hheld => ?_,
      fun checkout hcheckout hheld => ?_⟩
    · obtain ⟨hentry,hne⟩ := (Lru.mem_pop (x := entry.1) (w := entry.2)).mp hentry
      exact hne (hstored entry hentry hheld)
    · exact absurd ⟨⟨state,hmem⟩,checkout,hcheckout,hlive checkout hcheckout hheld⟩ hclean
  | deletedInFlight _ habsent hout =>
    refine ⟨fun origin hheld => (hhome origin hheld).1,fun entry hentry hheld => ?_,
      fun checkout hcheckout hheld => ?_⟩
    · obtain ⟨key,state⟩ := entry
      obtain rfl : key = id := hstored _ hentry hheld
      exact habsent state hentry
    · rw [hlive checkout hcheckout hheld]
      exact Finset.mem_insert_self _ _

/-- A delete that finds its id stored and checked out at once lets the checked-out session return:
it is put back and taken. -/
lemma delete_resurrects {ttl : ℕ} {earlier : List (Operation ι α)} {id : ι}
    {state : SessionState (Tagged α)}
    (hstored : (id,state) ∈ ((System.new ttl : System ι α).after earlier).store.inner)
    (hout : ((System.new ttl : System ι α).after earlier).CheckedOut id) :
    ¬ NeverResurrected ttl earlier id := by
  have h := @reachable_consistent ι α _ ttl earlier
  obtain ⟨⟨entry,out,guard⟩,hlive,rfl⟩ := hout
  intro hnever
  obtain ⟨htaken,-⟩ := hnever [.putBack guard.id entry out.content.payload 0]
  rw [after_append] at htaken
  have hheld : HeldDuring ttl earlier guard.id out.content.origin :=
    ⟨earlier,[],(List.append_nil _).symm,out.content,
      List.mem_append_right _ (List.mem_map.mpr ⟨_,hlive,rfl⟩),rfl⟩
  generalize (System.new ttl : System ι α).after earlier = system at *
  have htombstone : guard.id ∉ system.store.tombstones := fun hburied =>
    h.buried _ hburied state hstored
  have hdelete : (system.step (.delete guard.id)).after = { system with
      store := { system.store with inner := Lru.pop system.store.inner guard.id } } := by
    unfold System.step SessionStore.delete
    dsimp only
    rw [(Lru.peek_eq_some h.inner).mpr hstored]
    dsimp only
    rw [Finset.erase_eq_of_notMem htombstone]
  have hreturn : ({ system with store := { system.store with
      inner := Lru.pop system.store.inner guard.id } } : System ι α).step
        (.putBack guard.id entry out.content.payload 0) =
      ⟨{ system with store := { system.store with inner := Lru.pop system.store.inner guard.id } },
        .putBack guard.id entry out.content.payload 0,.put,[],
        { system with
          store := { system.store with
            inner := Lru.put (Lru.pop system.store.inner guard.id) guard.id
              ⟨⟨out.content.payload,system.puts,out.content.origin⟩,0⟩
            inFlight := Lru.pop system.store.inFlight guard.id }
          checkouts := Lru.pop system.checkouts entry
          puts := system.puts+1 }⟩ := by
    unfold System.step System.put
    dsimp only
    rw [(Lru.peek_eq_some h.checkouts).mpr hlive]
    dsimp only
    rw [@put_owned _ _ _ { system.store with inner := Lru.pop system.store.inner guard.id } _ _ _ _
      ⟨rfl,h.peek_marker hlive⟩, SessionStore.putReleased]
    dsimp only
    rw [if_neg htombstone]
    rfl
  have hmarker : Lru.peek (Lru.pop system.store.inFlight guard.id) guard.id = none :=
    Lru.peek_eq_none.mpr fun token hmem => (Lru.mem_pop.mp hmem).2 rfl
  refine htaken ⟨out.content.payload,system.puts,out.content.origin⟩ system.store.nextCheckout ?_
    hheld
  change ((((system.step (.delete guard.id)).after.step _).after).step _).answer = _
  rw [hdelete, hreturn, System.step]
  dsimp only
  rw [@take_stored _ _ _ { system.store with
    inner := Lru.put (Lru.pop system.store.inner guard.id) guard.id
      ⟨⟨out.content.payload,system.puts,out.content.origin⟩,0⟩
    inFlight := Lru.pop system.store.inFlight guard.id } guard.id
    ⟨⟨out.content.payload,system.puts,out.content.origin⟩,0⟩ htombstone hmarker
    (by simp [Lru.peek, Lru.put])]

/-- A delete that answers true ends every session of its id for good exactly when it does not
find the id stored and checked out at once. -/
theorem never_resurrected_iff (ttl : ℕ) (earlier : List (Operation ι α)) (id : ι)
    (hdeleted : (((System.new ttl : System ι α).after earlier).step (.delete id)).answer =
      .deleted true) :
    NeverResurrected ttl earlier id ↔
      ¬ ((∃ state, (id,state) ∈ ((System.new ttl : System ι α).after earlier).store.inner) ∧
        ((System.new ttl : System ι α).after earlier).CheckedOut id) := by
  constructor
  · rintro hnever ⟨⟨state,hstored⟩,hout⟩
    exact delete_resurrects hstored hout hnever
  · intro hclean later
    have h := @reachable_consistent ι α _ ttl earlier
    have hburied := delete_buries hdeleted hclean
    have hconsistent := (step_change h (.delete id)).consistent h
    rw [after_append]
    exact ⟨fun session token htaken =>
      (hburied.after hconsistent later).taken (hconsistent.after later) htaken,
      fun checkout hlive hknown other payload now =>
      (hburied.after hconsistent later).returned (hconsistent.after later) hlive hknown other
        payload now⟩

/-- A session is checked out while a fresh one is stored under its id. The delete takes the stored
one only, so that the checked-out session returns and is taken again. -/
theorem deleted_session_returns : ∃ session token,
    (((System.new 0 : System ℕ ℕ).after [.putFresh 7 0 0,.take 7,.putFresh 7 1 0]).step
        (.delete 7)).answer = .deleted true ∧
    (((System.new 0 : System ℕ ℕ).after [.putFresh 7 0 0,.take 7,.putFresh 7 1 0,.delete 7,
        .putBack 7 0 0 0]).step (.take 7)).answer = .taken (some (session,token)) ∧
    @HeldDuring ℕ ℕ _ 0 [.putFresh 7 0 0,.take 7,.putFresh 7 1 0] 7 session.origin :=
  ⟨_,_,rfl,rfl,[.putFresh 7 0 0],_,rfl,_,List.mem_cons_self,rfl⟩

theorem never_resurrected_stored :
    @NeverResurrected ℕ ℕ _ 0 [.putFresh 7 0 0] 7 := by
  refine (@never_resurrected_iff ℕ ℕ _ 0 [.putFresh 7 0 0] 7 rfl).mpr ?_
  rintro ⟨-,checkout,hmem,-⟩
  exact List.not_mem_nil hmem

end Resurrection

end MicroExpertRouter.Session
