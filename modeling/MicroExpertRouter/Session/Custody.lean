import MicroExpertRouter.Session.Guarantees

/-! Who holds a session: the live guards and their markers, the tokens they carry, and how a state
enters and leaves the store. -/
namespace MicroExpertRouter.Session

section Custody
variable {ι α : Type} {system next : System ι α} {operation : Operation ι α} {answer : Answer α}
  {zeroized : List (Tagged α)}

def Operation.isTake : Operation ι α → Bool
  | .take _ => true
  | _ => false

/-- Markers and live guards are the same, one for each id. -/
lemma Consistent.exclusive (h : Consistent system) :
    (∀ id token, (id,token) ∈ system.store.inFlight ↔
      ∃ checkout ∈ system.checkouts, checkout.2.2 = ⟨id,token,true⟩) ∧
    ∀ a ∈ system.checkouts, ∀ b ∈ system.checkouts, a.2.2.id = b.2.2.id → a = b := by
  constructor
  · intro id token
    rw [h.owned.mem_iff, List.mem_map]
    constructor
    · rintro ⟨⟨entry,state,guard⟩,hlive,heq⟩
      obtain ⟨rfl,rfl⟩ := Prod.mk.inj heq
      have harmed := h.armed _ hlive
      refine ⟨_,hlive,?_⟩
      obtain ⟨id,token,armed⟩ := guard
      dsimp only at harmed
      rw [harmed]
    · rintro ⟨checkout,hlive,heq⟩
      refine ⟨checkout,hlive,?_⟩
      rw [heq]
  · have hids : (system.checkouts.map fun checkout => checkout.2.2.id).Nodup := by
      have hmarkers := (h.owned.map Prod.fst).nodup_iff.mp h.markers
      rw [List.map_map] at hmarkers
      exact hmarkers
    exact fun a ha b hb heq => List.inj_on_of_nodup_map hids ha hb heq

variable [DecidableEq ι]

/-- The counter of tokens moves by at most one for each `take`. -/
lemma Change.counter (hchange : Change system operation answer zeroized next) :
    ∃ drawn ≤ operation.isTake.toNat,
      next.store.nextCheckout % 2^64 = (system.store.nextCheckout+drawn) % 2^64 := by
  cases hchange with
  | drawn id => exact ⟨1,le_rfl,Nat.mod_mod _ _⟩
  | checkedOut id => exact ⟨1,le_rfl,Nat.mod_mod _ _⟩
  | _ => exact ⟨0,Nat.zero_le _,rfl⟩

lemma Consistent.counter (h : Consistent system) (operations : List (Operation ι α)) :
    ∃ drawn ≤ operations.countP Operation.isTake,
      (system.after operations).store.nextCheckout % 2^64 =
        (system.store.nextCheckout+drawn) % 2^64 := by
  induction operations generalizing system with
  | nil => exact ⟨0,le_rfl,rfl⟩
  | cons operation operations ih =>
    have hchange := step_change h operation
    obtain ⟨first,hfirst,hcounter⟩ := hchange.counter
    obtain ⟨rest,hrest,hafter⟩ := ih (hchange.consistent h)
    refine ⟨first+rest,?_,hafter.trans ?_⟩
    · rw [List.countP_cons]
      cases htake : operation.isTake with
      | true =>
        rw [htake] at hfirst
        simp only [Bool.toNat_true] at hfirst
        simp only [if_true]
        omega
      | false =>
        rw [htake] at hfirst
        simp only [Bool.toNat_false] at hfirst
        omega
    · rw [Nat.add_mod, hcounter, ← Nat.add_mod, Nat.add_assoc]

/-- What a `take` that hands out a state does. -/
lemma Consistent.taken (h : Consistent system) {id : ι} {session : Tagged α} {token : ℕ}
    (htaken : (system.step (.take id)).answer = .taken (some (session,token))) :
    token = system.store.nextCheckout ∧
      (system.step (.take id)).after.store.nextCheckout = (token+1) % 2^64 ∧
      (∃ state, (id,state) ∈ system.store.inner ∧ state.content = session) ∧
      ∃ checkout ∈ (system.step (.take id)).after.checkouts,
        checkout.2.1.content = session := by
  have hchange := step_change h (.take id)
  rw [htaken] at hchange
  generalize (system.step (.take id)).after = next at hchange ⊢
  generalize (system.step (.take id)).zeroized = zeroized at hchange
  cases hchange with
  | idle _ _ hnone => exact absurd rfl (hnone _)
  | checkedOut _ state _ _ hstored =>
    exact ⟨rfl,rfl,⟨state,hstored,rfl⟩,_,List.mem_cons_self,rfl⟩

/-- A state stored after some operations was stored before under the same number, or has a new
one. -/
lemma Consistent.stored_after (h : Consistent system) (operations : List (Operation ι α)) :
    ∀ entry ∈ (system.after operations).store.inner, entry ∈ system.store.inner ∨
      system.puts ≤ entry.2.content.entry := by
  induction operations generalizing system with
  | nil => exact fun _ hentry => .inl hentry
  | cons operation operations ih =>
    have hchange := step_change h operation
    intro entry hentry
    rcases ih (hchange.consistent h) entry hentry with hentry | hfresh
    · rcases hchange.inner entry hentry with hold | ⟨hnew,-⟩
      · exact .inl hold
      · exact .inr hnew.ge
    · exact .inr (hchange.puts_le.trans hfresh)

/-- How a stored state leaves the store. -/
lemma Change.leaves (hchange : Change system operation answer zeroized next)
    (h : Consistent system) {id : ι} {state : SessionState (Tagged α)}
    (hstored : (id,state) ∈ system.store.inner) (hgone : (id,state) ∉ next.store.inner) :
    (operation = .take id ∧ ∃ token, answer = .taken (some (state.content,token))) ∨
    ((∃ payload now, operation = .putFresh id payload now) ∨
        ∃ entry payload now, operation = .putBack id entry payload now) ∧
      (∃ new, (id,new) ∈ next.store.inner ∧ new.content.entry = system.puts) ∨
    (operation = .delete id ∨ ∃ now, operation = .evictExpired now) ∧
      state.content ∈ zeroized := by
  have hpop : ∀ other, (id,state) ∉ Lru.pop system.store.inner other → id = other := by
    intro other hnot
    by_contra hne
    exact hnot (Lru.mem_pop.mpr ⟨hstored,hne⟩)
  cases hchange with
  | checkedOut other taken htombstone hfree hmem =>
    obtain rfl := hpop other hgone
    rw [h.inner.eq hstored hmem]
    exact .inl ⟨rfl,_,rfl⟩
  | freshStored other payload now htombstone =>
    obtain rfl := hpop other fun hmem => hgone (List.mem_cons_of_mem _ hmem)
    exact .inr (.inl ⟨.inl ⟨payload,now,rfl⟩,_,List.mem_cons_self,rfl⟩)
  | returned entry payload now out guard hlive htombstone =>
    obtain rfl := hpop guard.id fun hmem => hgone (List.mem_cons_of_mem _ hmem)
    exact .inr (.inl ⟨.inr ⟨entry,payload,now,rfl⟩,_,List.mem_cons_self,rfl⟩)
  | deletedStored other removed hmem htombstone =>
    obtain rfl := hpop other hgone
    rw [h.inner.eq hstored hmem]
    exact .inr (.inr ⟨.inl rfl,List.mem_cons_self⟩)
  | evicted now removed inner zeroized hsublist hzeroized =>
    exact .inr (.inr ⟨.inr ⟨now,rfl⟩,(hzeroized _ hstored).resolve_left hgone⟩)
  | _ => exact absurd hstored hgone

/-- A later `take` hands out another state. -/
lemma Consistent.handedOutOnce (h : Consistent system) {id other : ι}
    {later : List (Operation ι α)} {a b : Tagged α} {token again : ℕ}
    (hfirst : (system.step (.take id)).answer = .taken (some (a,token)))
    (hsecond : (((system.step (.take id)).after.after later).step (.take other)).answer =
      .taken (some (b,again))) : a.entry ≠ b.entry := by
  obtain ⟨-,-,-,checkout,hcheckout,rfl⟩ := h.taken hfirst
  have hconsistent := (step_change h (.take id)).consistent h
  obtain ⟨-,-,⟨state,hstored,rfl⟩,-⟩ := (hconsistent.after later).taken hsecond
  generalize (system.step (.take id)).after = taken at *
  have hout : (checkout.2.2.id,checkout.2.1.content) ∈
      taken.checkouts.map fun checkout => (checkout.2.2.id,checkout.2.1.content) :=
    List.mem_map.mpr ⟨checkout,hcheckout,rfl⟩
  intro hentry
  rcases hconsistent.stored_after later _ hstored with hold | hfresh
  · have hentries := hconsistent.tidy.entries
    rw [System.held, List.map_append] at hentries
    exact (List.nodup_append.mp hentries).2.2 state.content.entry
      (List.mem_map.mpr ⟨_,List.mem_map.mpr ⟨_,hold,rfl⟩,rfl⟩) _
      (List.mem_map.mpr ⟨_,hout,rfl⟩) hentry.symm
  · have hbelow := (hconsistent.tidy.below _ (List.mem_append_right _ hout)).1
    dsimp only at hbelow hfresh
    omega

/-- The token of a later `take` is the same only when the counter went around. -/
lemma Consistent.tokenReused (h : Consistent system) {id other : ι}
    {later : List (Operation ι α)} {a b : Tagged α} {token again : ℕ}
    (hfirst : (system.step (.take id)).answer = .taken (some (a,token)))
    (hsecond : (((system.step (.take id)).after.after later).step (.take other)).answer =
      .taken (some (b,again))) (hsame : token = again) :
    2^64 ≤ (Operation.take id::later).countP Operation.isTake := by
  obtain ⟨-,hnext,-⟩ := h.taken hfirst
  have hconsistent := (step_change h (.take id)).consistent h
  obtain ⟨hagain,-⟩ := (hconsistent.after later).taken hsecond
  obtain ⟨drawn,hdrawn,hcounter⟩ := hconsistent.counter later
  rw [← hagain, hnext, ← hsame, Nat.mod_add_mod, Nat.add_assoc] at hcounter
  have hround : 0 ≡ 1+drawn [MOD 2^64] := Nat.ModEq.add_left_cancel' token hcounter
  have hle := Nat.le_of_dvd (by omega) ((Nat.modEq_zero_iff_dvd).mp hround.symm)
  rw [List.countP_cons_of_pos rfl]
  omega

/-- Session checkouts are exclusive. The markers are those of the live guards, one for each id; a
token comes back only after `2^64` takes; a state is handed out once and leaves the store by that
take, by a later `put` of its id, or zeroized; and a `put` whose guard does not own the marker stores
nothing and clears no marker but the guard's own. -/
theorem checkouts_exclusive (ttl : ℕ) (operations : List (Operation ι α)) :
    (∀ id token,
      (id,token) ∈ ((System.new ttl : System ι α).after operations).store.inFlight ↔
        ∃ checkout ∈ ((System.new ttl : System ι α).after operations).checkouts,
          checkout.2.2 = ⟨id,token,true⟩) ∧
    (∀ a ∈ ((System.new ttl : System ι α).after operations).checkouts,
      ∀ b ∈ ((System.new ttl : System ι α).after operations).checkouts,
        a.2.2.id = b.2.2.id → a = b) ∧
    (∀ id later other a b token again,
      (((System.new ttl : System ι α).after operations).step (.take id)).answer =
        .taken (some (a,token)) →
      (((System.new ttl : System ι α).after (operations++.take id::later)).step
        (.take other)).answer = .taken (some (b,again)) →
      a.entry ≠ b.entry ∧
        (token = again → 2^64 ≤ (Operation.take id::later).countP Operation.isTake)) ∧
    (∀ operation id state,
      (id,state) ∈ ((System.new ttl : System ι α).after operations).store.inner →
      (id,state) ∉ ((System.new ttl : System ι α).after (operations++[operation])).store.inner →
      (operation = .take id ∧ ∃ token,
        (((System.new ttl : System ι α).after operations).step operation).answer =
          .taken (some (state.content,token))) ∨
      ((∃ payload now, operation = .putFresh id payload now) ∨
          ∃ entry payload now, operation = .putBack id entry payload now) ∧
        (∃ new, (id,new) ∈
            ((System.new ttl : System ι α).after (operations++[operation])).store.inner ∧
          new.content.entry = ((System.new ttl : System ι α).after operations).puts) ∨
      (operation = .delete id ∨ ∃ now, operation = .evictExpired now) ∧
        state.content ∈
          (((System.new ttl : System ι α).after operations).step operation).zeroized) ∧
    ∀ (store : SessionStore ι (Tagged α)) (guard : SessionCheckout ι) id state now,
      ¬ (guard.id = id ∧ Lru.peek store.inFlight id = some guard.token) →
      (store.put id state (some guard) now).store.inner = store.inner ∧
      (store.put id state (some guard) now).zeroized = [state] ∧
      ∀ other token, other ≠ guard.id →
        ((other,token) ∈ (store.put id state (some guard) now).store.inFlight ↔
          (other,token) ∈ store.inFlight) := by
  have h := @reachable_consistent ι α _ ttl operations
  obtain ⟨howned,hexclusive⟩ := h.exclusive
  refine ⟨howned,hexclusive,?_,?_,?_⟩
  · intro id later other a b token again hfirst hsecond
    rw [after_append] at hsecond
    exact ⟨h.handedOutOnce hfirst hsecond,h.tokenReused hfirst hsecond⟩
  · intro operation id state hstored hgone
    rw [after_append] at hgone ⊢
    exact (step_change h operation).leaves h hstored hgone
  · intro store guard id state now hunowned
    rw [put_unowned state now hunowned]
    refine ⟨?_,rfl,fun other token hne => ?_⟩
    · unfold SessionCheckout.drop
      split_ifs
      · rfl
      · rfl
    · unfold SessionCheckout.drop
      split_ifs
      · exact ⟨fun hmem => (Lru.mem_pop.mp hmem).1,fun hmem => Lru.mem_pop.mpr ⟨hmem,hne⟩⟩
      · rfl

/-- Takes of an absent id only draw tokens. -/
lemma after_absent_takes {id : ι} (n : ℕ) (htombstone : id ∉ system.store.tombstones)
    (hmarker : Lru.peek system.store.inFlight id = none)
    (habsent : Lru.peek system.store.inner id = none) (hnext : system.store.nextCheckout<2^64) :
    system.after (List.replicate n (.take id)) = { system with
      store := { system.store with nextCheckout := (system.store.nextCheckout+n) % 2^64 } } := by
  induction n generalizing system with
  | zero => rw [Nat.add_zero, Nat.mod_eq_of_lt hnext]; rfl
  | succ n ih =>
    have hdraw : (system.step (.take id)).after = { system with
        store := { system.store with nextCheckout := (system.store.nextCheckout+1) % 2^64 } } := by
      unfold System.step
      dsimp only
      rw [take_absent htombstone hmarker habsent]
    rw [List.replicate_succ]
    change (system.step (.take id)).after.after _ = _
    have hrest := @ih { system with
      store := { system.store with nextCheckout := (system.store.nextCheckout+1) % 2^64 } } htombstone
      hmarker habsent (Nat.mod_lt _ (Nat.two_pow_pos 64))
    rw [hdraw, hrest]
    dsimp only
    rw [Nat.mod_add_mod, Nat.add_assoc, Nat.add_comm 1 n]

/-- A checkout is lost, and another session is put after `n` takes of an absent id. -/
def lostAndPut (n : ℕ) : List (Operation ℕ ℕ) :=
  .dropCheckout 0::(List.replicate n (.take 8)).append [.putFresh 7 0 0]

/-- A session is taken and lost, and after `n` takes of an absent id another one is taken. -/
lemma token_after_takes (n : ℕ) :
    (((System.new 0).after (.putFresh 7 0 0::.take 7::lostAndPut n)).step (.take 7)).answer =
      .taken (some (⟨0,1,1⟩,(2+n) % 2^64)) := by
  have hlost : ((System.new 0 : System ℕ ℕ).after [.putFresh 7 0 0,.take 7,.dropCheckout 0]) =
    ⟨⟨[],[],∅,2,0⟩,[],1⟩ := rfl
  have hdrawn := @after_absent_takes ℕ ℕ ⟨⟨[],[],∅,2,0⟩,[],1⟩ _ 8 n (Finset.notMem_empty _) rfl rfl
    (by norm_num)
  have hsplit : .putFresh 7 0 0::.take 7::lostAndPut n =
    List.append [.putFresh 7 0 0,.take 7,.dropCheckout 0]
      ((List.replicate n (.take 8)).append [.putFresh 7 0 0]) := rfl
  rw [hsplit, List.append_eq, after_append, hlost, List.append_eq, after_append, hdrawn]
  rfl

/-- The counter wraps around: after `2^64` takes two checkouts carry the same token. -/
theorem token_reused : ∃ (earlier later : List (Operation ℕ ℕ)) (a b : Tagged ℕ) (token : ℕ),
    (((System.new 0).after earlier).step (.take 7)).answer = .taken (some (a,token)) ∧
    (((System.new 0).after (earlier++.take 7::later)).step (.take 7)).answer =
      .taken (some (b,token)) := by
  have hround : (2+(2^64-1)) % 2^64 = 1 := by norm_num
  have hlast := token_after_takes (2^64-1)
  rw [hround] at hlast
  exact ⟨[.putFresh 7 0 0],_,⟨0,0,0⟩,_,1,rfl,hlast⟩

end Custody

end MicroExpertRouter.Session
