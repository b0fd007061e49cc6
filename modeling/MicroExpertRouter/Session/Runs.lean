import MicroExpertRouter.Session.Store

/-! Runs of the session store. Requests check sessions out, return them under some id, cancel, or
store fresh ones; a checkout is its guard together with the state handed out with it, which is
lost when the guard is dropped. Every `put` is numbered, so that a stored state has an identity,
and remembers the first `put` of its session. -/
namespace MicroExpertRouter.Session

/-- A state with the number of the `put` that made it, and of the first `put` of its session. -/
structure Tagged (α : Type) where
  payload : α
  entry : ℕ
  origin : ℕ

/-- The store and the live checkouts, each under the entry of its state. -/
structure System (ι α : Type) where
  store : SessionStore ι (Tagged α)
  checkouts : List (ℕ × SessionState (Tagged α) × SessionCheckout ι)
  puts : ℕ

inductive Operation (ι α : Type)
  | take (id : ι)
  | putFresh (id : ι) (payload : α) (now : ℕ)
  | putBack (id : ι) (entry : ℕ) (payload : α) (now : ℕ)
  | dropCheckout (entry : ℕ)
  | delete (id : ι)
  | evictExpired (now : ℕ)

inductive Answer (α : Type)
  | taken (checkout : Option (Tagged α × ℕ))
  | put
  | dropped
  | deleted (existed : Bool)
  | evicted (removed : ℕ)

/-- One operation of a run. -/
structure Event (ι α : Type) where
  before : System ι α
  operation : Operation ι α
  answer : Answer α
  zeroized : List (Tagged α)
  after : System ι α

section System
variable {ι α : Type} [DecidableEq ι]

namespace System

def new (ttl : ℕ) : System ι α := ⟨.new ttl,[],0⟩

/-- A `put` of the next number, with the guard of a live checkout or without. -/
def put (self : System ι α) (operation : Operation ι α) (id : ι) (payload : α) (origin : ℕ)
    (checkout : Option (SessionCheckout ι)) (now : ℕ)
    (checkouts : List (ℕ × SessionState (Tagged α) × SessionCheckout ι)) : Event ι α :=
  let outcome := self.store.put id ⟨⟨payload,self.puts,origin⟩,now⟩ checkout now
  ⟨self,operation,.put,outcome.zeroized.map SessionState.content,
    ⟨outcome.store,checkouts,self.puts+1⟩⟩

/-- An operation that names no live checkout does nothing. -/
def step (self : System ι α) (operation : Operation ι α) : Event ι α :=
  match operation with
  | .take id =>
    let outcome := self.store.take id
    match outcome.answer with
    | none => ⟨self,operation,.taken none,outcome.zeroized.map SessionState.content,
      { self with store := outcome.store }⟩
    | some (state,guard) => ⟨self,operation,.taken (some (state.content,guard.token)),
      outcome.zeroized.map SessionState.content,
      { self with
        store := outcome.store
        checkouts := (state.content.entry,state,guard)::self.checkouts }⟩
  | .putFresh id payload now =>
    self.put operation id payload self.puts none now self.checkouts
  | .putBack id entry payload now =>
    match Lru.peek self.checkouts entry with
    | none => ⟨self,operation,.put,[],self⟩
    | some (state,guard) =>
      self.put operation id payload state.content.origin (some guard) now
        (Lru.pop self.checkouts entry)
  | .dropCheckout entry =>
    match Lru.peek self.checkouts entry with
    | none => ⟨self,operation,.dropped,[],self⟩
    | some (_,guard) => ⟨self,operation,.dropped,[],
      { self with
        store := guard.drop self.store
        checkouts := Lru.pop self.checkouts entry }⟩
  | .delete id =>
    let outcome := self.store.delete id
    ⟨self,operation,.deleted outcome.answer,outcome.zeroized.map SessionState.content,
      { self with store := outcome.store }⟩
  | .evictExpired now =>
    let outcome := self.store.evictExpired now
    ⟨self,operation,.evicted outcome.answer,outcome.zeroized.map SessionState.content,
      { self with store := outcome.store }⟩

/-- The state after a list of operations. -/
def after (self : System ι α) (operations : List (Operation ι α)) : System ι α :=
  operations.foldl (fun system operation => (system.step operation).after) self

/-- The sessions the system holds under each id, stored or checked out. -/
def held (self : System ι α) : List (ι × Tagged α) :=
  self.store.inner.map (fun entry => (entry.1,entry.2.content))++
    self.checkouts.map fun checkout => (checkout.2.2.id,checkout.2.1.content)

/-- A guard of the id is alive. -/
def CheckedOut (self : System ι α) (id : ι) : Prop :=
  ∃ checkout ∈ self.checkouts, checkout.2.2.id = id

end System

/-- Sessions with numbers of their own, all given out already. -/
structure Tidy (held : List (ι × Tagged α)) (puts : ℕ) : Prop where
  entries : (held.map fun session => session.2.entry).Nodup
  origins : (held.map fun session => session.2.origin).Nodup
  below : ∀ session ∈ held, session.2.entry<puts ∧ session.2.origin<puts

/-- What holds between operations: the markers are exactly those of the live guards. -/
structure Consistent (system : System ι α) : Prop where
  inner : Lru.Distinct system.store.inner
  markers : Lru.Distinct system.store.inFlight
  checkouts : Lru.Distinct system.checkouts
  owned : system.store.inFlight.Perm
    (system.checkouts.map fun checkout => (checkout.2.2.id,checkout.2.2.token))
  armed : ∀ checkout ∈ system.checkouts, checkout.2.2.armed = true
  keyed : ∀ checkout ∈ system.checkouts, checkout.2.1.content.entry = checkout.1
  buried : ∀ id ∈ system.store.tombstones, ∀ state, (id,state) ∉ system.store.inner
  tidy : Tidy system.held system.puts

/-- What an operation can do to a consistent system. -/
inductive Change (system : System ι α) :
    Operation ι α → Answer α → List (Tagged α) → System ι α → Prop
  | idle (operation : Operation ι α) (answer : Answer α)
    (htaken : ∀ checkout, answer ≠ .taken (some checkout))
    (hdeleted : answer ≠ .deleted true) : Change system operation answer [] system
  | drawn (id : ι) : Change system (.take id) (.taken none) [] { system with
      store := { system.store with nextCheckout := (system.store.nextCheckout+1) % 2^64 } }
  | checkedOut (id : ι) (state : SessionState (Tagged α))
    (htombstone : id ∉ system.store.tombstones) (hfree : ¬ system.CheckedOut id)
    (hstored : (id,state) ∈ system.store.inner) :
    Change system (.take id) (.taken (some (state.content,system.store.nextCheckout))) []
      { system with
        store := { system.store with
          inner := Lru.pop system.store.inner id
          inFlight := Lru.put system.store.inFlight id system.store.nextCheckout
          nextCheckout := (system.store.nextCheckout+1) % 2^64 }
        checkouts :=
          (state.content.entry,state,⟨id,system.store.nextCheckout,true⟩)::system.checkouts }
  | freshScrubbed (id : ι) (payload : α) (now : ℕ) (htombstone : id ∈ system.store.tombstones) :
    Change system (.putFresh id payload now) .put [⟨payload,system.puts,system.puts⟩]
      { system with puts := system.puts+1 }
  | freshStored (id : ι) (payload : α) (now : ℕ) (htombstone : id ∉ system.store.tombstones) :
    Change system (.putFresh id payload now) .put [] { system with
      store := { system.store with
        inner := Lru.put system.store.inner id ⟨⟨payload,system.puts,system.puts⟩,now⟩ }
      puts := system.puts+1 }
  | mismatched (id : ι) (entry : ℕ) (payload : α) (now : ℕ) (state : SessionState (Tagged α))
    (guard : SessionCheckout ι) (hlive : (entry,state,guard) ∈ system.checkouts)
    (hid : guard.id ≠ id) :
    Change system (.putBack id entry payload now) .put
      [⟨payload,system.puts,state.content.origin⟩]
      { system with
        store := { system.store with inFlight := Lru.pop system.store.inFlight guard.id }
        checkouts := Lru.pop system.checkouts entry
        puts := system.puts+1 }
  | returnScrubbed (entry : ℕ) (payload : α) (now : ℕ) (state : SessionState (Tagged α))
    (guard : SessionCheckout ι) (hlive : (entry,state,guard) ∈ system.checkouts)
    (htombstone : guard.id ∈ system.store.tombstones) :
    Change system (.putBack guard.id entry payload now) .put
      [⟨payload,system.puts,state.content.origin⟩]
      { system with
        store := { system.store with
          inFlight := Lru.pop system.store.inFlight guard.id
          tombstones := system.store.tombstones.erase guard.id }
        checkouts := Lru.pop system.checkouts entry
        puts := system.puts+1 }
  | returned (entry : ℕ) (payload : α) (now : ℕ) (state : SessionState (Tagged α))
    (guard : SessionCheckout ι) (hlive : (entry,state,guard) ∈ system.checkouts)
    (htombstone : guard.id ∉ system.store.tombstones) :
    Change system (.putBack guard.id entry payload now) .put []
      { system with
        store := { system.store with
          inFlight := Lru.pop system.store.inFlight guard.id
          inner := Lru.put system.store.inner guard.id
            ⟨⟨payload,system.puts,state.content.origin⟩,now⟩ }
        checkouts := Lru.pop system.checkouts entry
        puts := system.puts+1 }
  | dropped (entry : ℕ) (state : SessionState (Tagged α)) (guard : SessionCheckout ι)
    (hlive : (entry,state,guard) ∈ system.checkouts) :
    Change system (.dropCheckout entry) .dropped [] { system with
      store := { system.store with inFlight := Lru.pop system.store.inFlight guard.id }
      checkouts := Lru.pop system.checkouts entry }
  | deletedStored (id : ι) (state : SessionState (Tagged α))
    (hstored : (id,state) ∈ system.store.inner) (htombstone : id ∉ system.store.tombstones) :
    Change system (.delete id) (.deleted true) [state.content] { system with
      store := { system.store with inner := Lru.pop system.store.inner id } }
  | deletedInFlight (id : ι) (habsent : ∀ state, (id,state) ∉ system.store.inner)
    (hout : system.CheckedOut id) :
    Change system (.delete id) (.deleted true) [] { system with
      store := { system.store with tombstones := insert id system.store.tombstones } }
  | evicted (now removed : ℕ) (inner : List (ι × SessionState (Tagged α)))
    (zeroized : List (Tagged α)) (hsublist : inner.Sublist system.store.inner)
    (hzeroized : ∀ entry ∈ system.store.inner, entry ∈ inner ∨ entry.2.content ∈ zeroized) :
    Change system (.evictExpired now) (.evicted removed) zeroized
      { system with store := { system.store with inner } }

end System

section Step
variable {ι α : Type} {system : System ι α} {entry : ℕ} {state : SessionState (Tagged α)}
  {guard : SessionCheckout ι}

/-- A live guard owns its marker. -/
lemma Consistent.marker (h : Consistent system)
    (hlive : (entry,state,guard) ∈ system.checkouts) :
    (guard.id,guard.token) ∈ system.store.inFlight :=
  h.owned.mem_iff.mpr (List.mem_map.mpr ⟨_,hlive,rfl⟩)

variable [DecidableEq ι]

lemma Consistent.peek_marker (h : Consistent system)
    (hlive : (entry,state,guard) ∈ system.checkouts) :
    Lru.peek system.store.inFlight guard.id = some guard.token :=
  (Lru.peek_eq_some h.markers).mpr (h.marker hlive)

/-- Dropping it clears the marker. -/
lemma Consistent.drop_eq (h : Consistent system)
    (hlive : (entry,state,guard) ∈ system.checkouts) : guard.drop system.store =
      { system.store with inFlight := Lru.pop system.store.inFlight guard.id } :=
  if_pos ⟨h.armed _ hlive,h.peek_marker hlive⟩

/-- An id has a marker exactly while a guard of it is alive. -/
lemma Consistent.peek_eq_none (h : Consistent system) {id : ι} :
    Lru.peek system.store.inFlight id = none ↔ ¬ system.CheckedOut id := by
  rw [Lru.peek_eq_none]
  constructor
  · rintro hnone ⟨⟨entry,state,guard⟩,hlive,rfl⟩
    exact hnone guard.token (h.marker hlive)
  · intro hfree token hmem
    obtain ⟨checkout,hlive,heq⟩ := List.mem_map.mp (h.owned.mem_iff.mp hmem)
    exact hfree ⟨checkout,hlive,(Prod.mk.inj heq).1⟩

lemma step_take (h : Consistent system) (id : ι) : Change system (.take id)
    (system.step (.take id)).answer (system.step (.take id)).zeroized
    (system.step (.take id)).after := by
  unfold System.step
  dsimp only
  rcases take_cases system.store id with hrefused | hdrawn | ⟨htombstone,hmarker,state,hstored,htaken⟩
  · rw [hrefused]
    exact .idle _ _ nofun nofun
  · rw [hdrawn]
    exact .drawn id
  · rw [htaken]
    exact .checkedOut id state htombstone (h.peek_eq_none.mp hmarker) (Lru.peek_mem hstored)

lemma step_putFresh (system : System ι α) (id : ι) (payload : α) (now : ℕ) :
    Change system (.putFresh id payload now) (system.step (.putFresh id payload now)).answer
      (system.step (.putFresh id payload now)).zeroized
      (system.step (.putFresh id payload now)).after := by
  unfold System.step System.put SessionStore.put SessionStore.putReleased
  dsimp only
  by_cases htombstone : id ∈ system.store.tombstones
  · rw [if_pos htombstone]
    exact .freshScrubbed id payload now htombstone
  · rw [if_neg htombstone]
    exact .freshStored id payload now htombstone

lemma step_putBack (h : Consistent system) (id : ι) (entry : ℕ) (payload : α) (now : ℕ) :
    Change system (.putBack id entry payload now)
      (system.step (.putBack id entry payload now)).answer
      (system.step (.putBack id entry payload now)).zeroized
      (system.step (.putBack id entry payload now)).after := by
  unfold System.step
  dsimp only
  cases hpeek : Lru.peek system.checkouts entry with
  | none => exact .idle _ _ nofun nofun
  | some checkout =>
    obtain ⟨state,guard⟩ := checkout
    have hlive := Lru.peek_mem hpeek
    unfold System.put
    dsimp only
    by_cases hid : guard.id = id
    · subst hid
      rw [put_owned _ _ ⟨rfl,h.peek_marker hlive⟩]
      unfold SessionStore.putReleased
      dsimp only
      by_cases htombstone : guard.id ∈ system.store.tombstones
      · rw [if_pos htombstone, if_pos rfl]
        exact .returnScrubbed entry payload now state guard hlive htombstone
      · rw [if_neg htombstone]
        exact .returned entry payload now state guard hlive htombstone
    · rw [put_unowned _ _ (fun howns => hid howns.1), h.drop_eq hlive]
      exact .mismatched id entry payload now state guard hlive hid

lemma step_dropCheckout (h : Consistent system) (entry : ℕ) :
    Change system (.dropCheckout entry) (system.step (.dropCheckout entry)).answer
      (system.step (.dropCheckout entry)).zeroized (system.step (.dropCheckout entry)).after := by
  unfold System.step
  dsimp only
  cases hpeek : Lru.peek system.checkouts entry with
  | none => exact .idle _ _ nofun nofun
  | some checkout =>
    obtain ⟨state,guard⟩ := checkout
    have hlive := Lru.peek_mem hpeek
    dsimp only
    rw [h.drop_eq hlive]
    exact .dropped entry state guard hlive

lemma step_delete (h : Consistent system) (id : ι) :
    Change system (.delete id) (system.step (.delete id)).answer
      (system.step (.delete id)).zeroized (system.step (.delete id)).after := by
  unfold System.step SessionStore.delete
  dsimp only
  cases hstored : Lru.peek system.store.inner id with
  | some state =>
    have hmem := Lru.peek_mem hstored
    have htombstone : id ∉ system.store.tombstones := fun hburied => h.buried id hburied state hmem
    dsimp only
    rw [Finset.erase_eq_of_notMem htombstone]
    exact .deletedStored id state hmem htombstone
  | none =>
    dsimp only
    by_cases hmarker : (Lru.peek system.store.inFlight id).isSome = true
    · rw [if_pos hmarker]
      refine .deletedInFlight id (Lru.peek_eq_none.mp hstored) ?_
      by_contra hfree
      rw [h.peek_eq_none.mpr hfree] at hmarker
      cases hmarker
    · rw [if_neg hmarker]
      exact .idle _ _ nofun nofun

lemma step_evictExpired (h : Consistent system) (now : ℕ) :
    Change system (.evictExpired now) (system.step (.evictExpired now)).answer
      (system.step (.evictExpired now)).zeroized (system.step (.evictExpired now)).after := by
  have hexpired := evictExpired_spec now h.inner
  unfold System.step
  dsimp only
  rw [hexpired.store_eq]
  exact .evicted now _ _ _ hexpired.sublist fun entry hentry =>
    (hexpired.zeroized entry hentry).imp id fun hmem => List.mem_map.mpr ⟨_,hmem,rfl⟩

/-- Every operation on a consistent system is one of the changes. -/
theorem step_change (h : Consistent system) (operation : Operation ι α) :
    Change system operation (system.step operation).answer (system.step operation).zeroized
      (system.step operation).after := by
  cases operation with
  | take id => exact step_take h id
  | putFresh id payload now => exact step_putFresh system id payload now
  | putBack id entry payload now => exact step_putBack h id entry payload now
  | dropCheckout entry => exact step_dropCheckout h entry
  | delete id => exact step_delete h id
  | evictExpired now => exact step_evictExpired h now

end Step

namespace Tidy
variable {ι α : Type} {held rest : List (ι × Tagged α)} {puts : ℕ}

lemma perm (h : Tidy held puts) (hperm : rest.Perm held) : Tidy rest puts :=
  ⟨(hperm.map _).nodup_iff.mpr h.entries,(hperm.map _).nodup_iff.mpr h.origins,
    fun session hmem => h.below session (hperm.mem_iff.mp hmem)⟩

lemma sublist (h : Tidy held puts) (hsublist : rest.Sublist held) : Tidy rest puts :=
  ⟨(hsublist.map _).nodup h.entries,(hsublist.map _).nodup h.origins,
    fun session hmem => h.below session (hsublist.subset hmem)⟩

lemma next (h : Tidy held puts) : Tidy held (puts+1) :=
  ⟨h.entries,h.origins,fun session hmem => by
    have hbelow := h.below session hmem
    omega⟩

/-- A session of the next number. -/
lemma cons (h : Tidy held puts) {id : ι} {payload : α} {origin : ℕ} (horigin : origin<puts+1)
    (hfresh : ∀ session ∈ held, session.2.origin ≠ origin) :
    Tidy ((id,⟨payload,puts,origin⟩)::held) (puts+1) := by
  refine ⟨List.nodup_cons.mpr ⟨fun hmem => ?_,h.entries⟩,
    List.nodup_cons.mpr ⟨fun hmem => ?_,h.origins⟩,
    List.forall_mem_cons.mpr ⟨⟨Nat.lt_succ_self _,horigin⟩,h.next.below⟩⟩
  · obtain ⟨session,hsession,heq⟩ := List.mem_map.mp hmem
    exact (h.below session hsession).1.ne heq
  · obtain ⟨session,hsession,heq⟩ := List.mem_map.mp hmem
    exact hfresh session hsession heq

end Tidy

section Preservation
variable {ι α : Type} {system next : System ι α} {operation : Operation ι α} {answer : Answer α}
  {zeroized : List (Tagged α)}

lemma Consistent.new (ttl : ℕ) : Consistent (System.new ttl : System ι α) :=
  ⟨List.nodup_nil,List.nodup_nil,List.nodup_nil,.refl _,nofun,nofun,
    fun _ _ _ hmem => List.not_mem_nil hmem,List.nodup_nil,List.nodup_nil,nofun⟩

/-- The session of a live guard is held nowhere else. -/
lemma Consistent.origin_released (h : Consistent system) {entry : ℕ}
    {state : SessionState (Tagged α)} {guard : SessionCheckout ι}
    (hlive : (entry,state,guard) ∈ system.checkouts) {checkouts : List (ℕ × SessionState (Tagged α) ×
      SessionCheckout ι)} (hcheckouts : checkouts = Lru.pop system.checkouts entry) :
    ∀ session ∈ ({ system with checkouts } : System ι α).held,
      session.2.origin ≠ state.content.origin := by
  have hperm : ((guard.id,state.content)::({ system with checkouts } : System ι α).held).Perm
      system.held := by
    have hmapped := (h.checkouts.perm_pop hlive).map fun checkout =>
      (checkout.2.2.id,checkout.2.1.content)
    subst hcheckouts
    exact List.perm_middle.symm.trans (hmapped.symm.append_left _)
  have horigins := (h.tidy.perm hperm).origins
  intro session hsession heq
  exact (List.nodup_cons.mp horigins).1 (List.mem_map.mpr ⟨session,hsession,heq⟩)

variable [DecidableEq ι]

/-- What is left of a system when one of its guards goes. -/
lemma Consistent.released (h : Consistent system) {entry : ℕ} {state : SessionState (Tagged α)}
    {guard : SessionCheckout ι} (hlive : (entry,state,guard) ∈ system.checkouts) :
    Consistent { system with
      store := { system.store with inFlight := Lru.pop system.store.inFlight guard.id }
      checkouts := Lru.pop system.checkouts entry } := by
  have hmarker := h.markers.perm_pop (h.marker hlive)
  have hcheckout := h.checkouts.perm_pop hlive
  have hsubset : ∀ checkout ∈ Lru.pop system.checkouts entry, checkout ∈ system.checkouts :=
    fun checkout hmem => List.mem_of_mem_filter hmem
  refine ⟨h.inner,h.markers.pop _,h.checkouts.pop _,?_,fun checkout hmem =>
    h.armed checkout (hsubset checkout hmem),fun checkout hmem =>
    h.keyed checkout (hsubset checkout hmem),h.buried,h.tidy.sublist ?_⟩
  · exact List.Perm.cons_inv ((hmarker.symm.trans h.owned).trans (hcheckout.map _))
  · exact (List.Sublist.refl _).append (List.filter_sublist.map _)

/-- Storing a session of the next number under an id without a tombstone. -/
lemma Consistent.stored (h : Consistent system) {id : ι} {payload : α} {origin now : ℕ}
    (htombstone : id ∉ system.store.tombstones) (horigin : origin<system.puts+1)
    (hfresh : ∀ session ∈ system.held, session.2.origin ≠ origin) :
    Consistent { system with
      store := { system.store with
        inner := Lru.put system.store.inner id ⟨⟨payload,system.puts,origin⟩,now⟩ }
      puts := system.puts+1 } := by
  have hsublist : ({ system with store := { system.store with
      inner := Lru.pop system.store.inner id } } : System ι α).held.Sublist system.held :=
    (List.filter_sublist.map _).append (List.Sublist.refl _)
  refine ⟨h.inner.put id _,h.markers,h.checkouts,h.owned,h.armed,h.keyed,?_,?_⟩
  · intro other hburied state hmem
    rcases Lru.mem_put.mp hmem with heq | ⟨hmem,-⟩
    · obtain ⟨rfl,-⟩ := Prod.mk.inj heq
      exact htombstone hburied
    · exact h.buried other hburied state hmem
  · exact (h.tidy.sublist hsublist).cons horigin fun session hsession =>
      hfresh session (hsublist.subset hsession)

theorem Change.consistent (hchange : Change system operation answer zeroized next)
    (h : Consistent system) : Consistent next := by
  cases hchange with
  | idle => exact h
  | drawn id => exact ⟨h.inner,h.markers,h.checkouts,h.owned,h.armed,h.keyed,h.buried,h.tidy⟩
  | checkedOut id state htombstone hfree hstored =>
    have hmarker := Lru.peek_eq_none.mp (h.peek_eq_none.mpr hfree)
    refine ⟨h.inner.pop id,h.markers.put id _,?_,?_,?_,?_,?_,?_⟩
    · refine List.nodup_cons.mpr ⟨fun hmem => ?_,h.checkouts⟩
      obtain ⟨checkout,hcheckout,heq⟩ := List.mem_map.mp hmem
      have hentries := h.tidy.entries
      rw [System.held, List.map_append] at hentries
      refine (List.nodup_append.mp hentries).2.2 state.content.entry ?_ state.content.entry ?_ rfl
      · exact List.mem_map.mpr ⟨_,List.mem_map.mpr ⟨_,hstored,rfl⟩,rfl⟩
      · exact List.mem_map.mpr ⟨_,List.mem_map.mpr ⟨_,hcheckout,rfl⟩,
          (h.keyed _ hcheckout).trans heq⟩
    · rw [Lru.put_of_absent hmarker]
      exact h.owned.cons _
    · exact List.forall_mem_cons.mpr ⟨rfl,h.armed⟩
    · exact List.forall_mem_cons.mpr ⟨rfl,h.keyed⟩
    · exact fun other hburied other' hmem => h.buried other hburied other' (Lru.mem_pop.mp hmem).1
    · have hmapped := (h.inner.perm_pop hstored).map fun entry => (entry.1,entry.2.content)
      refine h.tidy.perm (List.perm_middle.trans ?_)
      exact hmapped.symm.append_right _
  | freshScrubbed id payload now htombstone =>
    exact ⟨h.inner,h.markers,h.checkouts,h.owned,h.armed,h.keyed,h.buried,h.tidy.next⟩
  | freshStored id payload now htombstone =>
    exact h.stored htombstone (Nat.lt_succ_self _) fun session hsession =>
      (h.tidy.below session hsession).2.ne
  | mismatched id entry payload now state guard hlive hid =>
    have hreleased := h.released hlive
    exact ⟨h.inner,hreleased.markers,hreleased.checkouts,hreleased.owned,hreleased.armed,
      hreleased.keyed,h.buried,hreleased.tidy.next⟩
  | returnScrubbed entry payload now state guard hlive htombstone =>
    have hreleased := h.released hlive
    exact ⟨h.inner,hreleased.markers,hreleased.checkouts,hreleased.owned,hreleased.armed,
      hreleased.keyed,fun other hburied => h.buried other (Finset.mem_of_mem_erase hburied),
      hreleased.tidy.next⟩
  | returned entry payload now state guard hlive htombstone =>
    have hbelow := h.tidy.below (guard.id,state.content) (List.mem_append_right _
      (List.mem_map.mpr ⟨_,hlive,rfl⟩))
    exact (h.released hlive).stored htombstone (hbelow.2.trans (Nat.lt_succ_self _))
      (h.origin_released hlive rfl)
  | dropped entry state guard hlive => exact h.released hlive
  | deletedStored id state hstored htombstone =>
    exact ⟨h.inner.pop id,h.markers,h.checkouts,h.owned,h.armed,h.keyed,
      fun other hburied state hmem => h.buried other hburied state (Lru.mem_pop.mp hmem).1,
      h.tidy.sublist ((List.filter_sublist.map _).append (List.Sublist.refl _))⟩
  | deletedInFlight id habsent hout =>
    refine ⟨h.inner,h.markers,h.checkouts,h.owned,h.armed,h.keyed,fun other hburied => ?_,h.tidy⟩
    rcases Finset.mem_insert.mp hburied with rfl | hburied
    · exact habsent
    · exact h.buried other hburied
  | evicted now removed inner zeroized hsublist hzeroized =>
    exact ⟨(hsublist.map _).nodup h.inner,h.markers,h.checkouts,h.owned,h.armed,h.keyed,
      fun other hburied state hmem => h.buried other hburied state (hsublist.subset hmem),
      h.tidy.sublist ((hsublist.map _).append (List.Sublist.refl _))⟩

lemma after_append (system : System ι α) (earlier later : List (Operation ι α)) :
    system.after (earlier++later) = (system.after earlier).after later :=
  List.foldl_append

lemma Consistent.after (h : Consistent system) (operations : List (Operation ι α)) :
    Consistent (system.after operations) := by
  induction operations generalizing system with
  | nil => exact h
  | cons operation operations ih => exact ih ((step_change h operation).consistent h)

lemma reachable_consistent (ttl : ℕ) (operations : List (Operation ι α)) :
    Consistent ((System.new ttl : System ι α).after operations) :=
  (Consistent.new ttl).after operations

end Preservation

end MicroExpertRouter.Session
