import MicroExpertRouter.Fetch.Engine
import Mathlib.Data.Multiset.Bind
import Mathlib.Data.Multiset.Dedup

/-! Who owns what of the engine: guards of the single-flight table, notifications still to be sent,
buffers, `Arc`s of residents, reservations and permits. The table, the pool and the cache fit what
all tasks own together, and every atomic operation keeps it so. -/
namespace MicroExpertRouter.Fetch
open RamCache

/-- A guard knows whether its expert was missing in the cache when it last looked. -/
inductive Token
  | claim (id notify : ℕ) (missing : Bool)
  | firing (notify : ℕ)
  | watch (notify seen : ℕ)
  | buffer (buffer : Buffer)
  | filled (id : ℕ) (buffer : Buffer)
  | resident (id : ℕ) (buffer : Buffer)
  | reservation (ticket : ℕ) (pending : List ℕ)
  | slots (layer remaining : ℕ)
  | permit
  deriving DecidableEq, Repr

section Projections

def Token.claimed : Token → Multiset (ℕ × ℕ × Bool)
  | claim id notify missing => {(id,notify,missing)}
  | _ => 0

/-- The notification that the token's owner is going to send. -/
def Token.issued : Token → Multiset ℕ
  | claim _ notify _ => {notify}
  | firing notify => {notify}
  | _ => 0

def Token.watched : Token → Multiset (ℕ × ℕ)
  | watch notify seen => {(notify,seen)}
  | _ => 0

def Token.raw : Token → Multiset Buffer
  | buffer b => {b}
  | filled _ b => {b}
  | _ => 0

def Token.behind : Token → Multiset Buffer
  | resident _ b => {b}
  | _ => 0

/-- The experts that the owner takes the bytes of his buffers for. -/
def Token.known : Token → Multiset (ℕ × Buffer)
  | filled id b => {(id,b)}
  | resident id b => {(id,b)}
  | _ => 0

def Token.reserved : Token → Multiset (ℕ × List ℕ)
  | reservation ticket pending => {(ticket,pending)}
  | _ => 0

def Token.falling : Token → Multiset (ℕ × ℕ)
  | slots layer remaining => {(layer,remaining)}
  | _ => 0

def Token.permits : Token → ℕ
  | permit => 1
  | _ => 0

end Projections

def slotTokens (guards : List (ℕ × ℕ)) : Multiset Token :=
  (guards : Multiset (ℕ × ℕ)).map fun guard => .slots guard.1 guard.2

def residentTokens (residents : List (ℕ × Buffer)) : Multiset Token :=
  (residents : Multiset (ℕ × Buffer)).map fun resident => .resident resident.1 resident.2

def bufferTokens (buffers : List Buffer) : Multiset Token :=
  (buffers : Multiset Buffer).map Token.buffer

def filledTokens (pairs : List (ℕ × Buffer)) : Multiset Token :=
  (pairs : Multiset (ℕ × Buffer)).map fun pair => .filled pair.1 pair.2

/-- Guards with their experts and notifications, and whether these were missing. -/
def claimTokens (guards : List (ℕ × ℕ × Bool)) : Multiset Token :=
  (guards : Multiset (ℕ × ℕ × Bool)).map fun guard => .claim guard.1 guard.2.1 guard.2.2

section Lists

@[simp] lemma slotTokens_nil : slotTokens [] = 0 := rfl

@[simp] lemma slotTokens_cons (guard : ℕ × ℕ) (guards : List (ℕ × ℕ)) :
    slotTokens (guard::guards) = {.slots guard.1 guard.2}+slotTokens guards := rfl

@[simp] lemma residentTokens_nil : residentTokens [] = 0 := rfl

@[simp] lemma residentTokens_cons (resident : ℕ × Buffer) (residents : List (ℕ × Buffer)) :
    residentTokens (resident::residents) =
      {.resident resident.1 resident.2}+residentTokens residents := rfl

lemma residentTokens_append (residents more : List (ℕ × Buffer)) :
    residentTokens (residents++more) = residentTokens residents+residentTokens more := by
  rw [residentTokens, ← Multiset.coe_add, Multiset.map_add]
  rfl

@[simp] lemma bufferTokens_nil : bufferTokens [] = 0 := rfl

@[simp] lemma bufferTokens_cons (buffer : Buffer) (buffers : List Buffer) :
    bufferTokens (buffer::buffers) = {.buffer buffer}+bufferTokens buffers := rfl

lemma bufferTokens_append (buffers more : List Buffer) :
    bufferTokens (buffers++more) = bufferTokens buffers+bufferTokens more := by
  rw [bufferTokens, ← Multiset.coe_add, Multiset.map_add]
  rfl

@[simp] lemma filledTokens_nil : filledTokens [] = 0 := rfl

@[simp] lemma filledTokens_cons (pair : ℕ × Buffer) (pairs : List (ℕ × Buffer)) :
    filledTokens (pair::pairs) = {.filled pair.1 pair.2}+filledTokens pairs := rfl

@[simp] lemma claimTokens_nil : claimTokens [] = 0 := rfl

@[simp] lemma claimTokens_cons (guard : ℕ × ℕ × Bool) (guards : List (ℕ × ℕ × Bool)) :
    claimTokens (guard::guards) = {.claim guard.1 guard.2.1 guard.2.2}+claimTokens guards := rfl

lemma claimTokens_append (guards more : List (ℕ × ℕ × Bool)) :
    claimTokens (guards++more) = claimTokens guards+claimTokens more := by
  rw [claimTokens, ← Multiset.coe_add, Multiset.map_add]
  rfl

end Lists

section Leaves

/-- A refused resident stays with its owner; an accepted one may push another out. -/
def insertLeaves (id notify : ℕ) (missing : Bool) (b : Buffer) :
    Except Unit (Option (ℕ × Buffer)) → Multiset Token
  | .error _ => {.claim id notify missing}+{.resident id b}
  | .ok evicted => {.claim id notify false}+{.resident id b}+
      (evicted.map fun v => {Token.resident v.1 v.2}).getD 0

def reserveLeaves (ids : List ℕ) : Except ReservationError (ℕ × List (ℕ × Buffer)) → Multiset Token
  | .error _ => 0
  | .ok outcome => {.reservation outcome.1 ids}+residentTokens outcome.2

/-- Nobody claims twice. -/
def claimLeaves (guards : List (ℕ × ℕ × Bool)) (id : ℕ) : Except ℕ ℕ → Option (Multiset Token)
  | .ok notify => if id ∈ guards.map Prod.fst then none
      else some ({.claim id notify false}+claimTokens guards)
  | .error notify => some ({.watch notify 0}+claimTokens guards)

/-- A buffer with what was written to it. -/
def written (b : Buffer) : Option ℕ → Token
  | some id => .filled id b
  | none => .buffer b

def writtenTokens (writes : List (Buffer × Option ℕ)) : Multiset Token :=
  (writes : Multiset (Buffer × Option ℕ)).map fun w => written w.1 w.2

/-- A read that succeeds fills its buffer. -/
def readLeaves (id : ℕ) (b : Buffer) : Option (Except String Unit) → Multiset Token
  | some (.ok _) => {.filled id b}
  | some (.error _) => {.buffer b}
  | none => {.buffer b}

def batchLeaves (expected : ℕ) (ids : List ℕ) (buffers : List Buffer) :
    Option (Except String ℕ) → Multiset Token
  | some (.ok readBytes) =>
    if readBytes = expected then filledTokens (ids.zip buffers) else bufferTokens buffers
  | some (.error _) => bufferTokens buffers
  | none => bufferTokens buffers

end Leaves

section Rules
variable (shadowSlots : ℕ)

/-- What each operation needs, and leaves with an answer, over a pool with so many shadow buffers.
Under a guard a look into the cache tells more. -/
inductive Rule : (op : Op) → Multiset Token → (Answer op → Option (Multiset Token)) → Prop
  | get (id : ℕ) : Rule (.get id) 0 fun (found : Option Buffer) =>
      some ((found.map fun b => {Token.resident id b}).getD 0)
  | getUnderGuard (id notify : ℕ) (missing : Bool) : Rule (.get id) {.claim id notify missing}
      fun (found : Option Buffer) => some ((found.map fun b =>
        {Token.claim id notify missing}+{Token.resident id b}).getD {.claim id notify true})
  | contains (id : ℕ) : Rule (.contains id) 0 fun _ => some 0
  | containsUnderGuard (id notify : ℕ) (missing : Bool) : Rule (.contains id)
      {.claim id notify missing} fun (present : Bool) =>
        some {.claim id notify (missing || !present)}
  | full : Rule .full 0 fun _ => some 0
  | evictLru : Rule .evictLru 0 fun (victim : Option (ℕ × Buffer)) =>
      some ((victim.map fun v => {Token.resident v.1 v.2}).getD 0)
  | evictLruShadowBacked : Rule .evictLruShadowBacked 0 fun (victim : Option (ℕ × Buffer)) =>
      some ((victim.map fun v => {Token.resident v.1 v.2}).getD 0)
  | insert (id notify : ℕ) (missing : Bool) (b : Buffer) : Rule (.insert id b)
      ({.claim id notify missing}+{.resident id b})
      fun result => some (insertLeaves id notify missing b result)
  | tryReserveExactDemand (ids : List ℕ) : Rule (.tryReserveExactDemand ids) 0
      fun result => some (reserveLeaves ids result)
  -- an expert that was missing is never refused
  | commit (ticket id notify : ℕ) (pending : List ℕ) (b : Buffer) : Rule (.commit ticket id b)
      ({.reservation ticket (id::pending)}+{.claim id notify true}+{.resident id b})
      fun (result : Except Unit Bool) => match result with
        | .error _ => none
        | .ok _ => some ({.reservation ticket pending}+{.claim id notify false}+{.resident id b})
  | dropReservation (ticket : ℕ) (pending : List ℕ) : Rule (.dropReservation ticket)
      {.reservation ticket pending} fun (guards : List (ℕ × ℕ)) => some (slotTokens guards)
  | releaseSlots (layer remaining : ℕ) :
      Rule (.releaseSlots layer remaining) {.slots layer remaining} fun _ => some 0
  | newResident (id : ℕ) (b : Buffer) :
      Rule (.newResident id b) {.filled id b} fun _ => some {.resident id b}
  | dropResident (id : ℕ) (b : Buffer) :
      Rule (.dropResident id b) {.resident id b} fun _ => some 0
  | dropBuffer (b : Buffer) : Rule (.dropBuffer b) {.buffer b} fun _ => some 0
  | tryAcquire : Rule .tryAcquire 0 fun (acquired : Option Buffer) => match acquired with
      | none => some 0
      | some b => if b.slot = .primary then some {.buffer b} else none
  | tryAcquireShadow : Rule .tryAcquireShadow 0 fun (acquired : Option Buffer) => match acquired with
      | none => some 0
      | some b => if b.slot = .shadow then some {.buffer b} else none
  | acquire : Rule .acquire 0 fun (acquired : Option Buffer) => match acquired with
      | none => some 0
      | some b => if b.slot = .primary then some {.buffer b} else none
  | shadowCapacity : Rule .shadowCapacity 0 fun (capacity : ℕ) =>
      if capacity = shadowSlots then some 0 else none
  | tryClaim (guards : List (ℕ × ℕ × Bool)) (id : ℕ) :
      Rule (.tryClaim id) (claimTokens guards) (claimLeaves guards id)
  | removeClaim (id notify : ℕ) (missing : Bool) :
      Rule (.removeClaim id notify) {.claim id notify missing} fun _ => some {.firing notify}
  | notifyWaiters (notify : ℕ) : Rule (.notifyWaiters notify) {.firing notify} fun _ => some 0
  | notified (notify seen : ℕ) : Rule (.notified notify) {.watch notify seen}
      fun (calls : ℕ) => some {.watch notify calls}
  | isInFlight (id : ℕ) : Rule (.isInFlight id) 0 fun _ => some 0
  | await (notify seen : ℕ) : Rule (.await notify seen) {.watch notify seen} fun _ => some 0
  | governorAdmits : Rule .governorAdmits 0 fun _ => some 0
  | tryAcquirePermit : Rule .tryAcquirePermit 0 fun (granted : Bool) =>
      some (if granted then {.permit} else 0)
  | releasePermit : Rule .releasePermit {.permit} fun _ => some 0
  | spawn : Rule .spawn 0 fun _ => some 0
  -- a demand reads what is missing into a primary buffer
  | readDemand (id notify : ℕ) (b : Buffer) (hslot : b.slot = .primary) :
      Rule (.readExpert true id b) ({.claim id notify true}+{.buffer b})
      fun result => some ({.claim id notify true}+readLeaves id b result)
  -- a prefetch has a permit, and a shadow buffer where there are any
  | readAhead (id notify : ℕ) (missing : Bool) (b : Buffer) (hslot : 0<shadowSlots → b.slot = .shadow) :
      Rule (.readExpert false id b) ({.claim id notify missing}+{.buffer b}+{.permit})
      fun result => some ({.claim id notify missing}+readLeaves id b result+{.permit})
  | readExpertsBatch (expected : ℕ) (guards : List (ℕ × ℕ)) (buffers : List Buffer)
      (hslots : ∀ b ∈ buffers, b.slot = .primary) (hlength : buffers.length = guards.length) :
      Rule (.readExpertsBatch expected (guards.map Prod.fst) buffers)
      (claimTokens (guards.map fun guard => (guard.1,guard.2,true))+bufferTokens buffers)
      fun result => some (claimTokens (guards.map fun guard => (guard.1,guard.2,true))+
        batchLeaves expected (guards.map Prod.fst) buffers result)
  | sleep : Rule .sleep 0 fun _ => some 0
  | compute (residents : List (ℕ × Buffer)) : Rule (.compute residents) (residentTokens residents)
      fun _ => some (residentTokens residents)

/-- A task that waits for a leader owns residents at most, and these only where tasks may hold some
while they wait; one that waits for a buffer may lead. -/
def logic (holding : Bool) : Logic Op Answer Token where
  rule := Rule shadowSlots
  keeps
    | .await _ _, t => match t with
      | .watch _ _ => True
      | .resident _ _ => holding = true
      | _ => False
    | .acquire, t => match t with
      | .watch _ _ => True
      | .resident _ _ => holding = true
      | .claim _ _ _ => True
      | _ => False
    | _, _ => True
  disposable
    | .watch _ _ => True
    | _ => False

end Rules

/-- The single-flight table holds the guards and nothing else, one of each expert. -/
structure Flight (cache : MultiLayerExpertCache) (inFlight : List (ℕ × ℕ))
    (claims : Multiset (ℕ × ℕ × Bool)) : Prop where
  entries : claims.map (fun c => (c.1,c.2.1)) = inFlight
  distinct : (inFlight.map Prod.fst).Nodup
  missing : ∀ id notify, (id,notify,true) ∈ claims → cache.contains id = false

/-- Every notification is sent once, by the owner of its guard. -/
structure Wakes (calls : ℕ → ℕ) (nextNotify : ℕ) (issued : Multiset ℕ) (watches : Multiset (ℕ × ℕ)) :
    Prop where
  distinct : issued.Nodup
  pending : ∀ n ∈ issued, n<nextNotify ∧ calls n = 0
  fired : ∀ n, n<nextNotify → n ∉ issued → calls n = 1
  fresh : ∀ n, nextNotify ≤ n → calls n = 0
  watched : ∀ w ∈ watches, w.1<nextNotify ∧ w.2 ≤ calls w.1

/-- All buffers of both halves. -/
def allBuffers (primarySlots shadowSlots : ℕ) : Multiset Buffer :=
  (Multiset.range primarySlots).map (Buffer.mk .primary)+
    (Multiset.range shadowSlots).map (Buffer.mk .shadow)

/-- Every buffer is free, or owned by a task, or behind a live resident. -/
structure Buffers (pool : BufferPool) (holders : Buffer → ℕ) (raw arcs : Multiset Buffer) : Prop where
  whole : (pool.free : Multiset Buffer)+pool.shadow+raw+arcs.dedup =
    allBuffers pool.primarySlots pool.shadowSlots
  counted : ∀ b, holders b = arcs.count b
  free : ∀ b ∈ pool.free, b.slot = .primary
  shadow : ∀ b ∈ pool.shadow, b.slot = .shadow

/-- The live reservations are those of the tasks, each with the experts that it still expects. -/
structure Reservations (ram : RamCache.System) (tickets : List ℕ) (nextTicket : ℕ)
    (reserved : Multiset (ℕ × List ℕ)) (falling : Multiset (ℕ × ℕ)) : Prop where
  length : tickets.length = ram.live.length
  distinct : tickets.Nodup
  below : ∀ t ∈ tickets, t<nextTicket
  owned : reserved.map Prod.fst = tickets
  pending : ∀ t ids, (t,ids) ∈ reserved → ∃ (i : ℕ) (r : CacheReservation),
    tickets[i]? = some t ∧ ram.live[i]? = some r ∧ (r.requests.drop r.nextRequest).map Prod.fst = ids
  falling : falling = ram.falling

/-- The buffers behind the cached residents. -/
def EngineCore.cachedBuffers (self : EngineCore) : Multiset Buffer :=
  self.ram.cache.residents.map fun entry => self.object entry.1

/-- The cached residents and the buffers behind them. -/
def EngineCore.cachedPairs (self : EngineCore) : Multiset (ℕ × Buffer) :=
  self.ram.cache.residents.map fun entry => (entry.1,self.object entry.1)

/-- The buffers hold what they are taken for. -/
def Contents (content : Buffer → Option ℕ) (known : Multiset (ℕ × Buffer)) : Prop :=
  ∀ pair ∈ known, content pair.2 = some pair.1

/-- The shared state fits what the tasks own. -/
structure Fits (first : EngineCore) (core : EngineCore) (held : Multiset Token) : Prop where
  accounted : Accounted first.ram.cache core.ram
  addressed : core.ram.cache.Addressed
  flight : Flight core.ram.cache core.inFlight (held.bind Token.claimed)
  wakes : Wakes core.calls core.nextNotify (held.bind Token.issued) (held.bind Token.watched)
  slots : core.pool.primarySlots = first.pool.primarySlots ∧
    core.pool.shadowSlots = first.pool.shadowSlots
  buffers : Buffers core.pool core.holders (held.bind Token.raw)
    (held.bind Token.behind+core.cachedBuffers)
  reservations : Reservations core.ram core.tickets core.nextTicket (held.bind Token.reserved)
    (held.bind Token.falling)
  permits : core.permits+(held.map Token.permits).sum = first.permits
  contents : Contents core.content (held.bind Token.known+core.cachedPairs)


section Flight
variable {cache next : MultiLayerExpertCache} {inFlight : List (ℕ × ℕ)}
  {claims : Multiset (ℕ × ℕ × Bool)} {id notify : ℕ} {missing : Bool}
  {gone come : Multiset (ℕ × PooledBuffer)}

lemma contains_eq_false (h : cache.Addressed) :
    cache.contains id = false ↔ ∀ buffer, (id,buffer) ∉ cache.residents := by
  rw [← Bool.not_eq_true, contains_iff h, not_exists]

/-- Who was missing stays so unless he comes. -/
lemma missing_after (h : Moves cache next gone come) (hcache : cache.Addressed)
    (hmissing : cache.contains id = false) (hcome : ∀ b, (id,b) ∉ come) :
    next.contains id = false := by
  rw [contains_eq_false h.addressed]
  intro buffer hmem
  have hin : (id,buffer) ∈ come+cache.residents := by
    rw [← h.residents]
    exact Multiset.mem_add.mpr (.inl hmem)
  exact (Multiset.mem_add.mp hin).elim (hcome buffer) ((contains_eq_false hcache).mp hmissing buffer)

namespace Flight

/-- Losing residents leaves the table right. -/
lemma lose (h : Flight cache inFlight claims) (hcache : cache.Addressed)
    (hmoves : Moves cache next gone 0) : Flight next inFlight claims :=
  ⟨h.entries,h.distinct,fun id notify hmem => missing_after hmoves hcache (h.missing id notify hmem)
    fun _ => Multiset.notMem_zero _⟩

/-- Nobody else has a guard of this expert. -/
lemma other (h : Flight cache inFlight ((id,notify,missing)::ₘ claims)) (n : ℕ) (m : Bool) :
    (id,n,m) ∉ claims := by
  intro hmem
  have hnodup : ((inFlight : Multiset (ℕ × ℕ)).map Prod.fst).Nodup := h.distinct
  rw [← h.entries, Multiset.map_cons, Multiset.map_cons, Multiset.map_map, Multiset.nodup_cons]
    at hnodup
  exact hnodup.1 (Multiset.mem_map.mpr ⟨_,hmem,rfl⟩)

/-- What a look into the cache shows its guard. -/
lemma look (h : Flight cache inFlight ((id,notify,missing)::ₘ claims)) {seen : Bool}
    (hseen : seen = true → cache.contains id = false) :
    Flight cache inFlight ((id,notify,seen)::ₘ claims) := by
  refine ⟨?_,h.distinct,fun other n hmem => ?_⟩
  · rw [← h.entries, Multiset.map_cons, Multiset.map_cons]
  · obtain heq | hmem := Multiset.mem_cons.mp hmem
    · cases heq
      exact hseen rfl
    · exact h.missing other n (Multiset.mem_cons_of_mem hmem)

/-- The expert of a guard comes into the cache. -/
lemma arrive (h : Flight cache inFlight ((id,notify,missing)::ₘ claims)) (hcache : cache.Addressed)
    {b : PooledBuffer} (hmoves : Moves cache next gone {(id,b)}) :
    Flight next inFlight ((id,notify,false)::ₘ claims) := by
  refine ⟨?_,h.distinct,fun other n hmem => ?_⟩
  · rw [← h.entries, Multiset.map_cons, Multiset.map_cons]
  · obtain heq | hmem := Multiset.mem_cons.mp hmem
    · cases heq
    · refine missing_after hmoves hcache (h.missing other n (Multiset.mem_cons_of_mem hmem)) ?_
      intro buffer hcome
      cases Multiset.mem_singleton.mp hcome
      exact h.other n true hmem

lemma lookup_eq_some (h : Flight cache inFlight claims) {n : ℕ} (hlookup : inFlight.lookup id = some n) :
    ∃ m, (id,n,m) ∈ claims := by
  have hmem : (id,n) ∈ inFlight := by
    obtain ⟨before,after,rfl,-⟩ := List.lookup_eq_some_iff.mp hlookup
    simp
  have hin : (id,n) ∈ claims.map fun c => (c.1,c.2.1) := by
    rw [h.entries]
    exact hmem
  obtain ⟨⟨i,n',m⟩,hclaim,heq⟩ := Multiset.mem_map.mp hin
  cases heq
  exact ⟨m,hclaim⟩

/-- A guard for an expert that nobody leads. -/
lemma claim (h : Flight cache inFlight claims) (hfree : inFlight.lookup id = none) (n : ℕ) :
    Flight cache ((id,n)::inFlight) ((id,n,false)::ₘ claims) := by
  refine ⟨?_,?_,fun other k hmem => ?_⟩
  · rw [Multiset.map_cons, h.entries, Multiset.cons_coe]
  · rw [List.map_cons, List.nodup_cons]
    refine ⟨fun hmem => ?_,h.distinct⟩
    obtain ⟨⟨i,k⟩,hin,rfl⟩ := List.mem_map.mp hmem
    have hne := List.lookup_eq_none_iff.mp hfree _ hin
    simp at hne
  · obtain heq | hmem := Multiset.mem_cons.mp hmem
    · cases heq
    · exact h.missing other k hmem

/-- A guard removes its own entry, which is there. -/
lemma remove (h : Flight cache inFlight ((id,notify,missing)::ₘ claims)) :
    Flight cache (inFlight.filter fun entry => decide (entry ≠ (id,notify))) claims := by
  refine ⟨?_,h.distinct.sublist (List.filter_sublist.map _),fun other n hmem =>
    h.missing other n (Multiset.mem_cons_of_mem hmem)⟩
  have hentries := h.entries
  rw [Multiset.map_cons] at hentries
  rw [← Multiset.filter_coe, ← hentries, Multiset.filter_cons_of_neg _ (by simp),
    Multiset.filter_eq_self.mpr]
  intro entry hmem
  obtain ⟨⟨i,n,m⟩,hclaim,rfl⟩ := Multiset.mem_map.mp hmem
  intro heq
  cases heq
  exact h.other _ _ hclaim

end Flight
end Flight

section Wakes
variable {calls : ℕ → ℕ} {nextNotify notify seen : ℕ} {issued : Multiset ℕ}
  {watches : Multiset (ℕ × ℕ)}

namespace Wakes

lemma claim (h : Wakes calls nextNotify issued watches) :
    Wakes calls (nextNotify+1) (nextNotify::ₘ issued) watches := by
  refine ⟨Multiset.nodup_cons.mpr ⟨fun hmem => ?_,h.distinct⟩,fun n hmem => ?_,fun n hn hmem => ?_,
    fun n hn => h.fresh n (by omega),fun w hw => ?_⟩
  · exact absurd (h.pending _ hmem).1 (lt_irrefl _)
  · obtain rfl | hmem := Multiset.mem_cons.mp hmem
    · exact ⟨Nat.lt_succ_self _,h.fresh _ le_rfl⟩
    · obtain ⟨hlt,hzero⟩ := h.pending n hmem
      exact ⟨by omega,hzero⟩
  · rw [Multiset.mem_cons, not_or] at hmem
    exact h.fired n (by omega) hmem.2
  · obtain ⟨hlt,hle⟩ := h.watched w hw
    exact ⟨by omega,hle⟩

/-- The owner sends its notification. -/
lemma fire (h : Wakes calls nextNotify (notify::ₘ issued) watches) :
    Wakes (Function.update calls notify (calls notify+1)) nextNotify issued watches := by
  obtain ⟨hnot,hnodup⟩ := Multiset.nodup_cons.mp h.distinct
  obtain ⟨hlt,hzero⟩ := h.pending notify (Multiset.mem_cons_self _ _)
  refine ⟨hnodup,fun n hmem => ?_,fun n hn hmem => ?_,fun n hn => ?_,fun w hw => ?_⟩
  · have hne : n ≠ notify := fun heq => hnot (heq ▸ hmem)
    rw [Function.update_of_ne hne]
    exact h.pending n (Multiset.mem_cons_of_mem hmem)
  · by_cases hne : n = notify
    · rw [hne, Function.update_self, hzero]
    · rw [Function.update_of_ne hne]
      refine h.fired n hn fun hin => ?_
      exact (Multiset.mem_cons.mp hin).elim hne hmem
  · rw [Function.update_of_ne (by omega)]
    exact h.fresh n hn
  · obtain ⟨hlt',hle⟩ := h.watched w hw
    refine ⟨hlt',?_⟩
    by_cases hne : w.1 = notify
    · rw [hne, Function.update_self]
      rw [hne] at hle
      omega
    · rw [Function.update_of_ne hne]
      exact hle

lemma watch (h : Wakes calls nextNotify issued watches) (hlt : notify<nextNotify)
    (hseen : seen ≤ calls notify) : Wakes calls nextNotify issued ((notify,seen)::ₘ watches) := by
  refine ⟨h.distinct,h.pending,h.fired,h.fresh,fun w hw => ?_⟩
  obtain rfl | hw := Multiset.mem_cons.mp hw
  · exact ⟨hlt,hseen⟩
  · exact h.watched w hw

lemma unwatch {gone : Multiset (ℕ × ℕ)} (h : Wakes calls nextNotify issued (gone+watches)) :
    Wakes calls nextNotify issued watches :=
  ⟨h.distinct,h.pending,h.fired,h.fresh,fun w hw => h.watched w (Multiset.mem_add.mpr (.inr hw))⟩

end Wakes
end Wakes

section Pool
variable {pool : BufferPool} {holders : Buffer → ℕ} {raw arcs : Multiset Buffer} {b : Buffer}

lemma nodup_allBuffers (primarySlots shadowSlots : ℕ) : (allBuffers primarySlots shadowSlots).Nodup := by
  have hinj : ∀ slot, Function.Injective (Buffer.mk slot) := fun slot i j h => (Buffer.mk.inj h).2
  rw [allBuffers, Multiset.nodup_add]
  refine ⟨(Multiset.nodup_range _).map (hinj _),(Multiset.nodup_range _).map (hinj _),?_⟩
  rw [Multiset.disjoint_left]
  intro b hprimary hshadow
  obtain ⟨i,-,rfl⟩ := Multiset.mem_map.mp hprimary
  obtain ⟨j,-,heq⟩ := Multiset.mem_map.mp hshadow
  cases heq

lemma slot_of_allBuffers {primarySlots shadowSlots : ℕ} (h : b ∈ allBuffers primarySlots shadowSlots) :
    b.slot = .shadow → 0<shadowSlots := by
  intro hslot
  rw [allBuffers, Multiset.mem_add] at h
  obtain h | h := h
  · obtain ⟨i,-,rfl⟩ := Multiset.mem_map.mp h
    cases hslot
  · obtain ⟨i,hi,rfl⟩ := Multiset.mem_map.mp h
    exact Nat.zero_lt_of_lt (Multiset.mem_range.mp hi)

namespace Buffers

lemma nodup (h : Buffers pool holders raw arcs) :
    ((pool.free : Multiset Buffer)+pool.shadow+raw+arcs.dedup).Nodup := by
  rw [h.whole]
  exact nodup_allBuffers _ _

/-- Another `Arc` of a live resident. -/
lemma hold (h : Buffers pool holders raw arcs) (hlive : b ∈ arcs) :
    Buffers pool (Function.update holders b (holders b+1)) raw (b::ₘ arcs) := by
  refine ⟨?_,fun other => ?_,h.free,h.shadow⟩
  · rw [Multiset.dedup_cons_of_mem hlive]
    exact h.whole
  · by_cases hother : other = b
    · rw [hother, Function.update_self, Multiset.count_cons_self, h.counted]
    · rw [Function.update_of_ne hother, Multiset.count_cons_of_ne hother, h.counted]

/-- A buffer becomes a resident. -/
lemma wrap (h : Buffers pool holders (b::ₘ raw) arcs) :
    Buffers pool (Function.update holders b (holders b+1)) raw (b::ₘ arcs) := by
  have hfresh : b ∉ arcs := by
    intro hmem
    have hdisjoint := (Multiset.nodup_add.mp h.nodup).2.2
    exact Multiset.disjoint_left.mp hdisjoint
      (Multiset.mem_add.mpr (.inr (Multiset.mem_cons_self _ _))) (Multiset.mem_dedup.mpr hmem)
  refine ⟨?_,fun other => ?_,h.free,h.shadow⟩
  · rw [Multiset.dedup_cons_of_notMem hfresh, ← h.whole, ← Multiset.singleton_add b arcs.dedup,
      ← Multiset.singleton_add b raw]
    abel
  · by_cases hother : other = b
    · rw [hother, Function.update_self, Multiset.count_cons_self, h.counted]
    · rw [Function.update_of_ne hother, Multiset.count_cons_of_ne hother, h.counted]

/-- A buffer goes back to its half. -/
lemma give (h : Buffers pool holders (b::ₘ raw) arcs) : Buffers (pool.release b) holders raw arcs := by
  have hmem : b ∈ allBuffers pool.primarySlots pool.shadowSlots := by
    rw [← h.whole]
    simp
  have hwhole := h.whole
  rw [← Multiset.singleton_add] at hwhole
  unfold BufferPool.release
  cases hslot : b.slot with
  | primary =>
    refine ⟨?_,h.counted,?_,h.shadow⟩
    · rw [← hwhole, ← Multiset.cons_coe, ← Multiset.singleton_add]
      abel
    · exact List.forall_mem_cons.mpr ⟨hslot,h.free⟩
  | shadow =>
    have hpositive := slot_of_allBuffers hmem hslot
    dsimp only
    rw [if_neg hpositive.ne']
    refine ⟨?_,h.counted,h.free,?_⟩
    · rw [← hwhole, ← Multiset.cons_coe, ← Multiset.singleton_add]
      abel
    · exact List.forall_mem_cons.mpr ⟨hslot,h.shadow⟩

/-- An `Arc` less; the last one gives the buffer back. -/
lemma drop (h : Buffers pool holders raw (b::ₘ arcs)) :
    Buffers (if holders b ≤ 1 then pool.release b else pool)
      (Function.update holders b (holders b-1)) raw arcs := by
  have hcount : holders b = arcs.count b+1 := by rw [h.counted, Multiset.count_cons_self]
  have hcounted : ∀ other, Function.update holders b (holders b-1) other = arcs.count other := by
    intro other
    by_cases hother : other = b
    · rw [hother, Function.update_self, hcount, Nat.add_sub_cancel]
    · rw [Function.update_of_ne hother, h.counted, Multiset.count_cons_of_ne hother]
  by_cases hlast : holders b ≤ 1
  · have hgone : b ∉ arcs := Multiset.count_eq_zero.mp (by omega)
    rw [if_pos hlast]
    have hraw : Buffers pool (Function.update holders b (holders b-1)) (b::ₘ raw) arcs := by
      refine ⟨?_,hcounted,h.free,h.shadow⟩
      rw [← h.whole, Multiset.dedup_cons_of_notMem hgone, ← Multiset.singleton_add b raw,
        ← Multiset.singleton_add b arcs.dedup]
      abel
    exact hraw.give
  · have hlive : b ∈ arcs := Multiset.count_pos.mp (by omega)
    rw [if_neg hlast]
    refine ⟨?_,hcounted,h.free,h.shadow⟩
    rw [← h.whole, Multiset.dedup_cons_of_mem hlive]

lemma acquire {pool' : BufferPool} (h : Buffers pool holders raw arcs)
    (hacquire : pool.tryAcquire = some (b,pool')) :
    b.slot = .primary ∧ Buffers pool' holders (b::ₘ raw) arcs := by
  unfold BufferPool.tryAcquire at hacquire
  split at hacquire
  · cases hacquire
  · rename_i first free hfree
    cases hacquire
    refine ⟨h.free _ (by rw [hfree]; exact List.mem_cons_self),?_,h.counted,fun b hb => h.free b ?_,
      h.shadow⟩
    · have hwhole := h.whole
      rw [hfree, ← Multiset.cons_coe, ← Multiset.singleton_add] at hwhole
      rw [← hwhole, ← Multiset.singleton_add]
      abel
    · rw [hfree]
      exact List.mem_cons_of_mem _ hb

lemma acquireShadow {pool' : BufferPool} (h : Buffers pool holders raw arcs)
    (hacquire : pool.tryAcquireShadow = some (b,pool')) :
    b.slot = .shadow ∧ Buffers pool' holders (b::ₘ raw) arcs := by
  unfold BufferPool.tryAcquireShadow at hacquire
  split at hacquire
  · cases hacquire
  · rename_i first shadow hshadow
    cases hacquire
    refine ⟨h.shadow _ (by rw [hshadow]; exact List.mem_cons_self),?_,h.counted,h.free,
      fun b hb => h.shadow b ?_⟩
    · have hwhole := h.whole
      rw [hshadow, ← Multiset.cons_coe, ← Multiset.singleton_add] at hwhole
      rw [← hwhole, ← Multiset.singleton_add]
      abel
    · rw [hshadow]
      exact List.mem_cons_of_mem _ hb

end Buffers
end Pool

end MicroExpertRouter.Fetch
