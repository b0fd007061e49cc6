import MicroExpertRouter.Lib.Lru
import MicroExpertRouter.Lib.Machine

/-! The session store of `session.rs`: stored sessions, the markers of checked-out ids and the
tombstones of ids deleted while checked out. Each operation is atomic, and says which states it
overwrites with zeros. Time is a natural number. -/
namespace MicroExpertRouter.Session

/-- `SessionState`: the KV caches, cursor and pending token as one content, and the last use. -/
structure SessionState (σ : Type) where
  content : σ
  lastUsed : ℕ

/-- The RAII receipt of a checkout. -/
structure SessionCheckout (ι : Type) where
  id : ι
  token : ℕ
  armed : Bool

/-- The three maps, whose order nothing reads. -/
structure SessionStore (ι σ : Type) where
  inner : List (ι × SessionState σ)
  inFlight : List (ι × ℕ)
  tombstones : Finset ι
  nextCheckout : ℕ
  ttl : ℕ

/-- What an operation leaves, answers and zeroizes. -/
structure Outcome (ι σ ρ : Type) where
  store : SessionStore ι σ
  answer : ρ
  zeroized : List (SessionState σ)

section Operations
variable {ι σ : Type} [DecidableEq ι]

def SessionStore.new (ttl : ℕ) : SessionStore ι σ := ⟨[],[],∅,1,ttl⟩

/-- The `Drop` of a guard: an armed one clears the marker it still owns. -/
def SessionCheckout.drop (self : SessionCheckout ι) (store : SessionStore ι σ) :
    SessionStore ι σ :=
  if self.armed = true ∧ Lru.peek store.inFlight self.id = some self.token then
    { store with inFlight := Lru.pop store.inFlight self.id }
  else store

namespace SessionStore

/-- `take`; the counter of tokens wraps around. -/
def take (self : SessionStore ι σ) (id : ι) :
    Outcome ι σ (Option (SessionState σ × SessionCheckout ι)) :=
  if id ∈ self.tombstones then ⟨self,none,[]⟩
  else
    let token := self.nextCheckout
    let drawn := { self with nextCheckout := (token+1) % 2^64 }
    match Lru.peek drawn.inFlight id with
    | some _ => ⟨drawn,none,[]⟩
    | none =>
      let marked := { drawn with inFlight := Lru.put drawn.inFlight id token }
      let guard : SessionCheckout ι := ⟨id,token,true⟩
      match Lru.peek marked.inner id with
      | none => ⟨guard.drop marked,none,[]⟩
      | some state =>
        let removed := { marked with inner := Lru.pop marked.inner id }
        if id ∈ removed.tombstones then ⟨guard.drop removed,none,[state]⟩
        else ⟨removed,some (state,guard),[]⟩

/-- The rest of `put`, after the guard. -/
def putReleased (self : SessionStore ι σ) (id : ι) (state : SessionState σ) (wasCheckedOut : Bool)
    (now : ℕ) : Outcome ι σ Unit :=
  if id ∈ self.tombstones then
    let tombstones := if wasCheckedOut then self.tombstones.erase id else self.tombstones
    ⟨{ self with tombstones },(),[state]⟩
  else ⟨{ self with inner := Lru.put self.inner id { state with lastUsed := now } },(),[]⟩

/-- `put`. A guard that does not own the marker of `id` is dropped armed. -/
def put (self : SessionStore ι σ) (id : ι) (state : SessionState σ)
    (checkout : Option (SessionCheckout ι)) (now : ℕ) : Outcome ι σ Unit :=
  match checkout with
  | none => self.putReleased id state false now
  | some guard =>
    let ownsMarker := decide (guard.id = id ∧ Lru.peek self.inFlight id = some guard.token)
    if ownsMarker = false then ⟨guard.drop self,(),[state]⟩
    else
      let released := SessionCheckout.drop { guard with armed := false }
        { self with inFlight := Lru.pop self.inFlight id }
      released.putReleased id state true now

def delete (self : SessionStore ι σ) (id : ι) : Outcome ι σ Bool :=
  match Lru.peek self.inner id with
  | some state =>
    ⟨{ self with inner := Lru.pop self.inner id, tombstones := self.tombstones.erase id },true,
      [state]⟩
  | none =>
    if (Lru.peek self.inFlight id).isSome then
      ⟨{ self with tombstones := insert id self.tombstones },true,[]⟩
    else ⟨self,false,[]⟩

/-- `now.duration_since(last_used) > ttl`, where the difference saturates. -/
def isExpired (self : SessionStore ι σ) (now : ℕ) (state : SessionState σ) : Bool :=
  decide (self.ttl<now-state.lastUsed)

/-- The removing loop of `evict_expired`. -/
def evictKeys (now : ℕ) : List ι → SessionStore ι σ → Outcome ι σ ℕ
  | [], store => ⟨store,0,[]⟩
  | key::keys, store =>
    match Lru.peek store.inner key with
    | none => evictKeys now keys store
    | some state =>
      if store.isExpired now state then
        let rest := evictKeys now keys { store with inner := Lru.pop store.inner key }
        ⟨rest.store,rest.answer+1,state::rest.zeroized⟩
      else evictKeys now keys store

def evictExpired (self : SessionStore ι σ) (now : ℕ) : Outcome ι σ ℕ :=
  if self.ttl = 0 then ⟨self,0,[]⟩
  else
    let expiredKeys := (self.inner.filter fun entry => self.isExpired now entry.2).map Prod.fst
    evictKeys now expiredKeys self

end SessionStore

end Operations

section Specifications
variable {ι σ : Type} [DecidableEq ι] {store : SessionStore ι σ} {id : ι}

/-- A marker that is cleared again leaves no trace. -/
lemma pop_put_of_absent {markers : List (ι × ℕ)} {token : ℕ} (h : Lru.peek markers id = none) :
    Lru.pop (Lru.put markers id token) id = markers := by
  have habsent := Lru.peek_eq_none.mp h
  rw [Lru.put_of_absent habsent]
  unfold Lru.pop
  rw [List.filter_cons_of_neg (by simp)]
  exact Lru.pop_of_absent habsent

/-- A stored session without marker and tombstone is handed out. -/
lemma take_stored {state : SessionState σ} (htombstone : id ∉ store.tombstones)
    (hmarker : Lru.peek store.inFlight id = none) (hstored : Lru.peek store.inner id = some state) :
    store.take id = ⟨{ store with
      inner := Lru.pop store.inner id
      inFlight := Lru.put store.inFlight id store.nextCheckout
      nextCheckout := (store.nextCheckout+1) % 2^64 },
      some (state,⟨id,store.nextCheckout,true⟩),[]⟩ := by
  unfold SessionStore.take
  rw [if_neg htombstone]
  dsimp only
  rw [hmarker, hstored]
  dsimp only
  rw [if_neg htombstone]

/-- A free id without a session leaves only the drawn token. -/
lemma take_absent (htombstone : id ∉ store.tombstones)
    (hmarker : Lru.peek store.inFlight id = none) (habsent : Lru.peek store.inner id = none) :
    store.take id =
      ⟨{ store with nextCheckout := (store.nextCheckout+1) % 2^64 },none,[]⟩ := by
  have howned : Lru.peek (Lru.put store.inFlight id store.nextCheckout) id =
      some store.nextCheckout := by
    simp [Lru.peek, Lru.put]
  unfold SessionStore.take
  rw [if_neg htombstone]
  dsimp only
  rw [hmarker, habsent]
  dsimp only [SessionCheckout.drop]
  rw [if_pos ⟨rfl,howned⟩, pop_put_of_absent hmarker]

/-- What a `take` can do: a tombstone stops it, a marker or an absent session leaves only the drawn
token, and a stored session is handed out under a marker. -/
lemma take_cases (store : SessionStore ι σ) (id : ι) :
    store.take id = ⟨store,none,[]⟩ ∨
    store.take id = ⟨{ store with nextCheckout := (store.nextCheckout+1) % 2^64 },none,[]⟩ ∨
    id ∉ store.tombstones ∧ Lru.peek store.inFlight id = none ∧
      ∃ state, Lru.peek store.inner id = some state ∧
        store.take id = ⟨{ store with
          inner := Lru.pop store.inner id
          inFlight := Lru.put store.inFlight id store.nextCheckout
          nextCheckout := (store.nextCheckout+1) % 2^64 },
          some (state,⟨id,store.nextCheckout,true⟩),[]⟩ := by
  by_cases htombstone : id ∈ store.tombstones
  · exact .inl (if_pos htombstone)
  cases hmarker : Lru.peek store.inFlight id with
  | some token =>
    refine .inr (.inl ?_)
    unfold SessionStore.take
    rw [if_neg htombstone]
    dsimp only
    rw [hmarker]
  | none =>
    cases hinner : Lru.peek store.inner id with
    | some state =>
      exact .inr (.inr ⟨htombstone,rfl,state,rfl,take_stored htombstone hmarker hinner⟩)
    | none => exact .inr (.inl (take_absent htombstone hmarker hinner))

/-- A guard that does not own the marker of the id: nothing is stored, and at most its own marker
is cleared. -/
lemma put_unowned {guard : SessionCheckout ι} (state : SessionState σ) (now : ℕ)
    (h : ¬ (guard.id = id ∧ Lru.peek store.inFlight id = some guard.token)) :
    store.put id state (some guard) now = ⟨guard.drop store,(),[state]⟩ := by
  unfold SessionStore.put
  dsimp only
  rw [decide_eq_false h, if_pos rfl]

lemma put_owned {guard : SessionCheckout ι} (state : SessionState σ) (now : ℕ)
    (h : guard.id = id ∧ Lru.peek store.inFlight id = some guard.token) :
    store.put id state (some guard) now =
      SessionStore.putReleased { store with inFlight := Lru.pop store.inFlight id } id state true
        now := by
  unfold SessionStore.put
  dsimp only
  rw [decide_eq_true h, if_neg (by decide)]
  rfl

/-- The sessions an eviction leaves; the others are zeroized. -/
structure Expired (store : SessionStore ι σ) (outcome : Outcome ι σ ℕ) : Prop where
  store_eq : outcome.store = { store with inner := outcome.store.inner }
  sublist : outcome.store.inner.Sublist store.inner
  zeroized : ∀ entry ∈ store.inner, entry ∈ outcome.store.inner ∨ entry.2 ∈ outcome.zeroized

lemma evictKeys_spec {now : ℕ} {keys : List ι} (hdistinct : Lru.Distinct store.inner) :
    Expired store (SessionStore.evictKeys now keys store) := by
  induction keys generalizing store with
  | nil => exact ⟨rfl,.refl _,fun _ hentry => .inl hentry⟩
  | cons key keys ih =>
    unfold SessionStore.evictKeys
    cases hpeek : Lru.peek store.inner key with
    | none => exact ih hdistinct
    | some state =>
      dsimp only
      split_ifs with hexpired
      · have hrest := @ih { store with inner := Lru.pop store.inner key } (hdistinct.pop key)
        refine ⟨hrest.store_eq,hrest.sublist.trans List.filter_sublist,fun entry hentry => ?_⟩
        by_cases hkey : entry.1 = key
        · subst hkey
          rw [hdistinct.eq hentry (Lru.peek_mem hpeek)]
          exact .inr List.mem_cons_self
        · refine (hrest.zeroized entry ?_).imp id (List.mem_cons_of_mem _)
          exact (Lru.mem_pop (x := entry.1) (w := entry.2)).mpr ⟨hentry,hkey⟩
      · exact ih hdistinct

lemma evictExpired_spec (now : ℕ) (hdistinct : Lru.Distinct store.inner) :
    Expired store (store.evictExpired now) := by
  unfold SessionStore.evictExpired
  split_ifs
  · exact ⟨rfl,.refl _,fun _ hentry => .inl hentry⟩
  · exact evictKeys_spec hdistinct

end Specifications

end MicroExpertRouter.Session
