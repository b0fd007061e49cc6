import MicroExpertRouter.Fetch.Ownership

/-! Every rule of the ownership logic is right: an atomic operation of the engine takes what its
rule needs and leaves what the rule says, whatever the other tasks own. -/
namespace MicroExpertRouter.Fetch
open RamCache EngineCore

attribute [local simp] Token.claimed Token.issued Token.watched Token.raw Token.behind Token.known
  Token.reserved Token.falling Token.permits setRam cached EngineCore.hold EngineCore.drop insertLeaves reserveLeaves

section Cached
variable {cache next : MultiLayerExpertCache} {gone : Multiset (ℕ × PooledBuffer)}
  {object : ℕ → Buffer} {id : ℕ} {buffer : PooledBuffer}

lemma map_object_lose {β : Type} (view : ℕ × Buffer → β) (h : Moves cache next gone 0) :
    gone.map (fun entry => view (entry.1,object entry.1))+
        next.residents.map (fun entry => view (entry.1,object entry.1)) =
      cache.residents.map fun entry => view (entry.1,object entry.1) := by
  rw [← Multiset.map_add, add_comm, h.residents, zero_add]

/-- Only the newcomer has another buffer behind it. -/
lemma map_object_arrive {β : Type} (view : ℕ × Buffer → β) (object : ℕ → Buffer)
    (h : Moves cache next gone {(id,buffer)}) (hin : (id,buffer) ∈ next.residents) (b : Buffer) :
    gone.map (fun entry => view (entry.1,object entry.1))+
        next.residents.map (fun entry => view (entry.1,Function.update object id b entry.1)) =
      view (id,b)::ₘ cache.residents.map fun entry => view (entry.1,object entry.1) := by
  obtain ⟨others,hothers⟩ := Multiset.exists_cons_of_mem hin
  have hnodup := nodup_residents h.addressed
  rw [hothers, Multiset.map_cons, Multiset.nodup_cons] at hnodup
  have hrest : others+gone = cache.residents := by
    have hmoves := h.residents
    rw [hothers, Multiset.cons_add, Multiset.singleton_add] at hmoves
    exact (Multiset.cons_inj_right _).mp hmoves
  have hkeep : others.map (fun entry => view (entry.1,Function.update object id b entry.1)) =
      others.map fun entry => view (entry.1,object entry.1) := by
    refine Multiset.map_congr rfl fun entry hmem => ?_
    rw [Function.update_of_ne]
    rintro rfl
    exact hnodup.1 (Multiset.mem_map.mpr ⟨entry,hmem,rfl⟩)
  rw [hothers, Multiset.map_cons, Function.update_self, hkeep, ← hrest, Multiset.map_add,
    Multiset.add_cons, add_comm]

end Cached

section Reservations
variable {ram ram' : RamCache.System} {tickets : List ℕ} {nextTicket ticket : ℕ}
  {reserved : Multiset (ℕ × List ℕ)} {falling : Multiset (ℕ × ℕ)} {ids : List ℕ}
  {r : CacheReservation}

namespace Reservations

lemma same (h : Reservations ram tickets nextTicket reserved falling) (hlive : ram'.live = ram.live)
    (hfalling : ram'.falling = ram.falling) :
    Reservations ram' tickets nextTicket reserved falling := by
  refine ⟨?_,h.distinct,h.below,h.owned,fun t ids hmem => ?_,?_⟩
  · rw [hlive]
    exact h.length
  · rw [hlive]
    exact h.pending t ids hmem
  · rw [hfalling]
    exact h.falling

/-- Another reservation under a new ticket. -/
lemma reserve (r : CacheReservation) (h : Reservations ram tickets nextTicket reserved falling)
    (hlive : ram'.live = ram.live++[r]) (hfalling : ram'.falling = ram.falling)
    (hids : (r.requests.drop r.nextRequest).map Prod.fst = ids) :
    Reservations ram' (tickets++[nextTicket]) (nextTicket+1) ((nextTicket,ids)::ₘ reserved)
      falling := by
  refine ⟨?_,?_,fun t hmem => ?_,?_,fun t pending hmem => ?_,?_⟩
  · rw [hlive, List.length_append, List.length_append, h.length]
    rfl
  · refine List.nodup_append.mpr ⟨h.distinct,List.nodup_singleton _,fun a ha b hb => ?_⟩
    rw [List.mem_singleton.mp hb]
    exact (h.below a ha).ne
  · obtain hmem | hmem := List.mem_append.mp hmem
    · exact (h.below t hmem).trans (Nat.lt_succ_self _)
    · rw [List.mem_singleton.mp hmem]
      exact Nat.lt_succ_self _
  · rw [Multiset.map_cons, h.owned, Multiset.cons_coe, Multiset.coe_eq_coe]
    exact (List.perm_append_singleton _ _).symm
  · obtain heq | hmem := Multiset.mem_cons.mp hmem
    · cases heq
      refine ⟨tickets.length,r,List.getElem?_concat_length,?_,hids⟩
      rw [hlive, h.length]
      exact List.getElem?_concat_length
    · obtain ⟨i,r',hticket,hr,hpending⟩ := h.pending t pending hmem
      refine ⟨i,r',?_,?_,hpending⟩
      · rw [List.getElem?_append_left (List.getElem?_eq_some_iff.mp hticket).1]
        exact hticket
      · rw [hlive, List.getElem?_append_left (List.getElem?_eq_some_iff.mp hr).1]
        exact hr
  · rw [hfalling]
    exact h.falling

/-- A ticket belongs to one reservation. -/
lemma ticket_unique (h : Reservations ram tickets nextTicket ((ticket,ids)::ₘ reserved) falling)
    (pending : List ℕ) : (ticket,pending) ∉ reserved := by
  intro hmem
  have hnodup : (tickets : Multiset ℕ).Nodup := h.distinct
  rw [← h.owned, Multiset.map_cons, Multiset.nodup_cons] at hnodup
  exact hnodup.1 (Multiset.mem_map.mpr ⟨_,hmem,rfl⟩)

/-- Where the reservation of a ticket is. -/
lemma live (h : Reservations ram tickets nextTicket ((ticket,ids)::ₘ reserved) falling) :
    ∃ r, tickets[tickets.idxOf ticket]? = some ticket ∧ ram.live[tickets.idxOf ticket]? = some r ∧
      (r.requests.drop r.nextRequest).map Prod.fst = ids := by
  obtain ⟨i,r,hticket,hr,hpending⟩ := h.pending ticket ids (Multiset.mem_cons_self _ _)
  obtain ⟨hi,hget⟩ := List.getElem?_eq_some_iff.mp hticket
  have hindex : tickets.idxOf ticket = i := by
    rw [← hget]
    exact h.distinct.idxOf_getElem i hi
  rw [hindex]
  exact ⟨r,hticket,hr,hpending⟩

/-- The reservation of a ticket goes on. -/
lemma advance (next : CacheReservation)
    (h : Reservations ram tickets nextTicket ((ticket,ids)::ₘ reserved) falling)
    (hlive : ram'.live = ram.live.set (tickets.idxOf ticket) next)
    (hfalling : ram'.falling = ram.falling) {pending : List ℕ}
    (hpending : (next.requests.drop next.nextRequest).map Prod.fst = pending) :
    Reservations ram' tickets nextTicket ((ticket,pending)::ₘ reserved) falling := by
  obtain ⟨r,hticket,hr,-⟩ := h.live
  refine ⟨?_,h.distinct,h.below,?_,fun t left hmem => ?_,?_⟩
  · rw [hlive, List.length_set]
    exact h.length
  · rw [← h.owned, Multiset.map_cons, Multiset.map_cons]
  · obtain heq | hmem := Multiset.mem_cons.mp hmem
    · cases heq
      refine ⟨_,next,hticket,?_,hpending⟩
      rw [hlive, List.getElem?_set_self (List.getElem?_eq_some_iff.mp hr).1]
    · obtain ⟨i,r',hother,hr',hleft⟩ := h.pending t left (Multiset.mem_cons_of_mem hmem)
      have hne : tickets.idxOf ticket ≠ i := by
        rintro rfl
        rw [hticket] at hother
        cases hother
        exact h.ticket_unique left hmem
      refine ⟨i,r',hother,?_,hleft⟩
      rw [hlive, List.getElem?_set_ne hne]
      exact hr'
  · rw [hfalling]
    exact h.falling

lemma getElem?_eraseIdx_of_ne {α : Type} {xs : List α} {i k : ℕ} {x : α} (hne : k ≠ i)
    (h : xs[i]? = some x) : (xs.eraseIdx k)[if i<k then i else i-1]? = some x := by
  rw [List.getElem?_eraseIdx]
  by_cases hlt : i<k
  · rw [if_pos hlt, if_pos hlt]
    exact h
  · rw [if_neg hlt, if_neg (by omega), Nat.sub_add_cancel (by omega)]
    exact h

/-- A reservation is dropped; its guards are still to be released. -/
lemma fall (guards : List (ℕ × ℕ))
    (h : Reservations ram tickets nextTicket ((ticket,ids)::ₘ reserved) falling) (hlive : ram'.live = ram.live.eraseIdx (tickets.idxOf ticket))
    (hfalling : ram'.falling = ram.falling++guards) :
    Reservations ram' (tickets.eraseIdx (tickets.idxOf ticket)) nextTicket reserved
      (guards+falling) := by
  obtain ⟨r,hticket,hr,-⟩ := h.live
  obtain ⟨hi,hget⟩ := List.getElem?_eq_some_iff.mp hticket
  have hi' := (List.getElem?_eq_some_iff.mp hr).1
  refine ⟨?_,h.distinct.sublist (List.eraseIdx_sublist _ _),fun t hmem =>
    h.below t (List.mem_of_mem_eraseIdx hmem),?_,fun t left hmem => ?_,?_⟩
  · rw [hlive, List.length_eraseIdx_of_lt hi, List.length_eraseIdx_of_lt hi', h.length]
  · have howned := h.owned
    have hperm := List.getElem_cons_eraseIdx_perm hi
    rw [hget] at hperm
    rw [Multiset.map_cons, ← Multiset.coe_eq_coe.mpr hperm, ← Multiset.cons_coe] at howned
    exact (Multiset.cons_inj_right _).mp howned
  · obtain ⟨i,r',hother,hr',hleft⟩ := h.pending t left (Multiset.mem_cons_of_mem hmem)
    have hne : tickets.idxOf ticket ≠ i := by
      rintro rfl
      rw [hticket] at hother
      cases hother
      exact h.ticket_unique left hmem
    refine ⟨_,r',getElem?_eraseIdx_of_ne hne hother,?_,hleft⟩
    rw [hlive]
    exact getElem?_eraseIdx_of_ne hne hr'
  · rw [hfalling, ← Multiset.coe_add, ← h.falling, add_comm]

/-- A guard is released. -/
lemma release {slots : ℕ × ℕ} (h : Reservations ram tickets nextTicket reserved (slots::ₘ falling))
    (hlive : ram'.live = ram.live)
    (hfalling : ram'.falling = ram.falling.eraseIdx (ram.falling.idxOf slots)) :
    Reservations ram' tickets nextTicket reserved falling := by
  refine ⟨?_,h.distinct,h.below,h.owned,fun t ids hmem => ?_,?_⟩
  · rw [hlive]
    exact h.length
  · rw [hlive]
    exact h.pending t ids hmem
  · have hmem : slots ∈ ram.falling := by
      rw [← Multiset.mem_coe, ← h.falling]
      exact Multiset.mem_cons_self _ _
    have hindex := List.idxOf_lt_length_of_mem hmem
    have hperm := Multiset.coe_eq_coe.mpr (List.getElem_cons_eraseIdx_perm hindex)
    rw [List.getElem_idxOf hindex, ← Multiset.cons_coe, ← h.falling, ← hfalling] at hperm
    exact ((Multiset.cons_inj_right _).mp hperm).symm

end Reservations
end Reservations

section Cores
variable {first core next : EngineCore} {held held' rest : Multiset Token} {id notify ticket : ℕ}
  {buffer : Buffer} {ram : RamCache.System} {gone : Multiset (ℕ × PooledBuffer)}

/-- The `Arc`s of residents that have left the cache. -/
def released (core : EngineCore) (gone : Multiset (ℕ × PooledBuffer)) : Multiset Token :=
  gone.map fun entry => Token.resident entry.1 (core.object entry.1)

section Released
variable (core : EngineCore) (gone : Multiset (ℕ × PooledBuffer))

@[simp] lemma claimed_released : (released core gone).bind Token.claimed = 0 := by
  simp [released, Multiset.bind_map]

@[simp] lemma issued_released : (released core gone).bind Token.issued = 0 := by
  simp [released, Multiset.bind_map]

@[simp] lemma watched_released : (released core gone).bind Token.watched = 0 := by
  simp [released, Multiset.bind_map]

@[simp] lemma raw_released : (released core gone).bind Token.raw = 0 := by
  simp [released, Multiset.bind_map]

@[simp] lemma behind_released :
    (released core gone).bind Token.behind = gone.map fun entry => core.object entry.1 := by
  simp [released, Multiset.bind_map, Multiset.bind_singleton]

@[simp] lemma known_released : (released core gone).bind Token.known =
    gone.map fun entry => (entry.1,core.object entry.1) := by
  simp [released, Multiset.bind_map, Multiset.bind_singleton]

@[simp] lemma reserved_released : (released core gone).bind Token.reserved = 0 := by
  simp [released, Multiset.bind_map]

@[simp] lemma falling_released : (released core gone).bind Token.falling = 0 := by
  simp [released, Multiset.bind_map]

@[simp] lemma permits_released : ((released core gone).map Token.permits).sum = 0 := by
  simp [released, Function.comp_def]

end Released

/-- The same but for reservations. -/
structure Alike (a b : Multiset Token) : Prop where
  claimed : a.bind Token.claimed = b.bind Token.claimed
  issued : a.bind Token.issued = b.bind Token.issued
  watched : a.bind Token.watched = b.bind Token.watched
  raw : a.bind Token.raw = b.bind Token.raw
  behind : a.bind Token.behind = b.bind Token.behind
  known : a.bind Token.known = b.bind Token.known
  permits : (a.map Token.permits).sum = (b.map Token.permits).sum

section SlotTokens
variable (guards : List (ℕ × ℕ))

@[simp] lemma claimed_slotTokens : (slotTokens guards).bind Token.claimed = 0 := by
  simp [slotTokens, Multiset.bind_map, -Multiset.map_coe]

@[simp] lemma issued_slotTokens : (slotTokens guards).bind Token.issued = 0 := by
  simp [slotTokens, Multiset.bind_map, -Multiset.map_coe]

@[simp] lemma watched_slotTokens : (slotTokens guards).bind Token.watched = 0 := by
  simp [slotTokens, Multiset.bind_map, -Multiset.map_coe]

@[simp] lemma raw_slotTokens : (slotTokens guards).bind Token.raw = 0 := by
  simp [slotTokens, Multiset.bind_map, -Multiset.map_coe]

@[simp] lemma behind_slotTokens : (slotTokens guards).bind Token.behind = 0 := by
  simp [slotTokens, Multiset.bind_map, -Multiset.map_coe]

@[simp] lemma known_slotTokens : (slotTokens guards).bind Token.known = 0 := by
  simp [slotTokens, Multiset.bind_map, -Multiset.map_coe]

@[simp] lemma reserved_slotTokens : (slotTokens guards).bind Token.reserved = 0 := by
  simp [slotTokens, Multiset.bind_map, -Multiset.map_coe]

@[simp] lemma falling_slotTokens : (slotTokens guards).bind Token.falling = guards := by
  rw [slotTokens, Multiset.bind_map]
  exact (Multiset.bind_singleton (guards : Multiset (ℕ × ℕ)) id).trans (Multiset.map_id _)

@[simp] lemma permits_slotTokens : ((slotTokens guards).map Token.permits).sum = 0 := by
  simp [slotTokens, Function.comp_def]

end SlotTokens

/-- A released guard gives back positions, not residents. -/
lemma release_effect {layer remaining : ℕ} {answer : RamCache.Answer} (h : core.ram.cache.Addressed)
    (hstep : core.ram.step (.release (core.ram.falling.idxOf (layer,remaining))) = some (ram,answer))
    (hmem : (layer,remaining) ∈ core.ram.falling) :
    ram.live = core.ram.live ∧
      ram.falling = core.ram.falling.eraseIdx (core.ram.falling.idxOf (layer,remaining)) ∧
        Moves core.ram.cache ram.cache 0 0 := by
  have hindex := List.idxOf_lt_length_of_mem hmem
  have hget : core.ram.falling[core.ram.falling.idxOf (layer,remaining)]? = some (layer,remaining) := by
    rw [List.getElem?_eq_getElem hindex, List.getElem_idxOf hindex]
  obtain ⟨next,hrelease,heq⟩ := Option.map_eq_some_iff.mp
    (show (core.ram.release (core.ram.falling.idxOf (layer,remaining))).map
      (fun system => (system,RamCache.Answer.unit)) = some (ram,answer) from hstep)
  cases heq
  unfold System.release at hrelease
  rw [hget] at hrelease
  dsimp only at hrelease
  cases hlayer : (core.ram.cache.caches layer).release remaining with
  | none =>
    rw [hlayer] at hrelease
    cases hrelease
  | some cache =>
    rw [hlayer] at hrelease
    cases hrelease
    refine ⟨rfl,rfl,moves_keep h ?_⟩
    unfold ExpertCache.release at hlayer
    split_ifs at hlayer
    · cases hlayer
      rfl
    · cases hlayer
      rfl

@[simp] lemma primarySlots_release (pool : BufferPool) (b : Buffer) :
    (pool.release b).primarySlots = pool.primarySlots := by
  unfold BufferPool.release
  split
  · rfl
  · split <;> rfl

@[simp] lemma shadowSlots_release (pool : BufferPool) (b : Buffer) :
    (pool.release b).shadowSlots = pool.shadowSlots := by
  unfold BufferPool.release
  split
  · rfl
  · split <;> rfl

lemma slots_tryAcquire {pool pool' : BufferPool} (h : pool.tryAcquire = some (buffer,pool')) :
    pool'.primarySlots = pool.primarySlots ∧ pool'.shadowSlots = pool.shadowSlots := by
  unfold BufferPool.tryAcquire at h
  split at h
  · cases h
  · cases h
    exact ⟨rfl,rfl⟩

lemma slots_tryAcquireShadow {pool pool' : BufferPool}
    (h : pool.tryAcquireShadow = some (buffer,pool')) :
    pool'.primarySlots = pool.primarySlots ∧ pool'.shadowSlots = pool.shadowSlots := by
  unfold BufferPool.tryAcquireShadow at h
  split at h
  · cases h
  · cases h
    exact ⟨rfl,rfl⟩

namespace Fits

/-- What the cache does to itself. -/
lemma ram_step (h : Fits first core held) {operation : RamCache.Operation} {answer : RamCache.Answer}
    (hstep : core.ram.step operation = some (ram,answer)) : Accounted first.ram.cache ram := by
  obtain ⟨next,answer',hstep',hnext,-⟩ := h.accounted.step operation
  rw [hstep] at hstep'
  cases hstep'
  exact hnext

/-- The cache loses residents to their new owner, and reservations change. -/
lemma rearrange (kept : Multiset Token) {tickets : List ℕ} {nextTicket : ℕ} (h : Fits first core held)
    (haccounted : Accounted first.ram.cache ram) (hmoves : Moves core.ram.cache ram.cache gone 0)
    (hreservations : Reservations ram tickets nextTicket (kept.bind Token.reserved)
      (kept.bind Token.falling)) (halike : Alike kept held) :
    Fits first { core with ram := ram, tickets := tickets, nextTicket := nextTicket }
      (released core gone+kept) := by
  refine ⟨haccounted,hmoves.addressed,?_,?_,h.slots,?_,?_,?_,?_⟩
  · simpa [halike.claimed] using h.flight.lose h.addressed hmoves
  · simpa [halike.issued, halike.watched] using h.wakes
  · have hbuffers := h.buffers
    rw [cachedBuffers, ← map_object_lose Prod.snd hmoves] at hbuffers
    simpa [cachedBuffers, halike.raw, halike.behind, add_comm, add_left_comm, add_assoc] using hbuffers
  · simpa using hreservations
  · simpa [halike.permits] using h.permits
  · have hcontents := h.contents
    rw [cachedPairs, ← map_object_lose (fun pair => pair) hmoves] at hcontents
    simpa [cachedPairs, halike.known, add_comm, add_left_comm, add_assoc] using hcontents

lemma lose (h : Fits first core held) (haccounted : Accounted first.ram.cache ram)
    (hlive : ram.live = core.ram.live) (hfalling : ram.falling = core.ram.falling)
    (hmoves : Moves core.ram.cache ram.cache gone 0) :
    Fits first (core.setRam ram) (released core gone+held) :=
  h.rearrange held haccounted hmoves (h.reservations.same hlive hfalling) ⟨rfl,rfl,rfl,rfl,rfl,rfl,rfl⟩

/-- The cache takes in the resident of a guard. -/
lemma arrive (kept : Multiset Token) {missing : Bool}
    (h : Fits first core ({.claim id notify missing}+{.resident id buffer}+held))
    (haccounted : Accounted first.ram.cache ram)
    (hreservations : Reservations ram core.tickets core.nextTicket (kept.bind Token.reserved)
      (kept.bind Token.falling)) (halike : Alike kept held)
    {b : PooledBuffer} (hmoves : Moves core.ram.cache ram.cache gone {(id,b)})
    (hin : (id,b) ∈ ram.cache.residents) :
    Fits first (core.cached ram id buffer)
      (released core gone+({.claim id notify false}+{.resident id buffer}+kept)) := by
  refine ⟨haccounted,hmoves.addressed,?_,?_,h.slots,?_,?_,?_,?_⟩
  · have hflight : Flight core.ram.cache core.inFlight
        ((id,notify,missing)::ₘ held.bind Token.claimed) := by simpa using h.flight
    simpa [halike.claimed] using hflight.arrive h.addressed hmoves
  · simpa [halike.issued, halike.watched] using h.wakes
  · have hbuffers : Buffers core.pool core.holders (held.bind Token.raw)
        (buffer::ₘ (held.bind Token.behind+core.cachedBuffers)) := by simpa using h.buffers
    have hhold := hbuffers.hold (Multiset.mem_cons_self _ _)
    have hcached := map_object_arrive Prod.snd core.object hmoves hin buffer
    have harcs : buffer::ₘ buffer::ₘ (held.bind Token.behind+core.cachedBuffers) =
        buffer::ₘ (held.bind Token.behind+(gone.map (fun entry => core.object entry.1)+
          ram.cache.residents.map fun entry => Function.update core.object id buffer entry.1)) := by
      rw [hcached, Multiset.add_cons]
      rfl
    rw [harcs] at hhold
    simpa [cachedBuffers, halike.raw, halike.behind, add_comm, add_left_comm, add_assoc] using hhold
  · simpa using hreservations
  · simpa [halike.permits] using h.permits
  · have hcontents : Contents core.content ((id,buffer)::ₘ (held.bind Token.known+core.cachedPairs)) := by
      simpa using h.contents
    have hcached := map_object_arrive (fun pair => pair) core.object hmoves hin buffer
    have hknown : Contents core.content ((id,buffer)::ₘ (held.bind Token.known+
        (gone.map (fun entry => (entry.1,core.object entry.1))+
          ram.cache.residents.map fun entry => (entry.1,Function.update core.object id buffer entry.1)))) := by
      rw [hcached, Multiset.add_cons]
      exact fun pair hmem => hcontents pair ((Multiset.mem_cons.mp hmem).elim
        (fun heq => heq ▸ Multiset.mem_cons_self _ _) fun hmem => hmem)
    simpa [cachedPairs, halike.known, add_comm, add_left_comm, add_assoc] using hknown

/-- Another `Arc` of a cached resident. -/
lemma hold (h : Fits first core held) (hlive : (id,buffer) ∈ core.cachedPairs) :
    Fits first (core.hold buffer) ({.resident id buffer}+held) := by
  have hbuffer : buffer ∈ held.bind Token.behind+core.cachedBuffers := by
    obtain ⟨entry,hmem,heq⟩ := Multiset.mem_map.mp hlive
    cases heq
    exact Multiset.mem_add.mpr (.inr (Multiset.mem_map.mpr ⟨entry,hmem,rfl⟩))
  refine ⟨h.accounted,h.addressed,?_,?_,h.slots,?_,?_,?_,?_⟩
  · simpa using h.flight
  · simpa using h.wakes
  · simpa [cachedBuffers] using h.buffers.hold hbuffer
  · simpa using h.reservations
  · simpa using h.permits
  · have hcontents : Contents core.content ((id,buffer)::ₘ (held.bind Token.known+core.cachedPairs)) :=
      fun pair hmem => (Multiset.mem_cons.mp hmem).elim
        (fun heq => h.contents pair (Multiset.mem_add.mpr (.inr (heq ▸ hlive)))) (h.contents pair)
    simpa [cachedPairs] using hcontents

/-- What a look into the cache shows the owner of a guard. -/
lemma look {missing : Bool} (seen : Bool) (h : Fits first core ({.claim id notify missing}+held))
    (hseen : seen = true → core.ram.cache.contains id = false) :
    Fits first core ({.claim id notify seen}+held) := by
  refine ⟨h.accounted,h.addressed,?_,?_,h.slots,?_,?_,?_,?_⟩
  · have hflight : Flight core.ram.cache core.inFlight
        ((id,notify,missing)::ₘ held.bind Token.claimed) := by simpa using h.flight
    simpa using hflight.look hseen
  · simpa using h.wakes
  · simpa using h.buffers
  · simpa using h.reservations
  · simpa using h.permits
  · simpa using h.contents

/-- A guard that saw its expert missing. -/
lemma missing (h : Fits first core ({.claim id notify true}+held)) :
    core.ram.cache.contains id = false :=
  h.flight.missing id notify (by simp)

lemma get {found : Option Buffer} (h : Fits first core held)
    (hexec : core.get id = some (found,next)) :
    Fits first next ((found.map fun b => {Token.resident id b}).getD 0+held) ∧
      (found = none → next.ram.cache.contains id = false) := by
  have hmoves := get_moves h.addressed id
  have hstep : core.ram.step (.get id) =
      some (core.ram.store (core.ram.cache.get id).1,.found (core.ram.cache.get id).2) := rfl
  have hlose := h.lose (h.ram_step hstep) rfl rfl hmoves
  rw [released, Multiset.map_zero, zero_add] at hlose
  unfold EngineCore.get at hexec
  rw [hstep] at hexec
  cases hget : (core.ram.cache.get id).2 with
  | none =>
    rw [hget] at hexec
    cases hexec
    refine ⟨by simpa using hlose,fun _ => ?_⟩
    exact missing_after hmoves h.addressed (get_none hget) fun _ => Multiset.notMem_zero _
  | some resident =>
    rw [hget] at hexec
    cases hexec
    refine ⟨?_,nofun⟩
    refine hlose.hold (Multiset.mem_map.mpr ⟨(id,resident.buffer),?_,rfl⟩)
    obtain ⟨rfl,hmem⟩ := get_some h.addressed hget
    change resident.entry ∈ (core.ram.cache.get resident.id).1.residents
    have hresidents := hmoves.residents
    rw [add_zero, zero_add] at hresidents
    rw [hresidents]
    exact hmem

/-- The victim of one layer. -/
lemma evict {operation : RamCache.Operation} {victim : Option (ℕ × Buffer)} (h : Fits first core held)
    (hoperation : ∀ ram found, core.ram.step operation = some (ram,.found found) →
      ram.live = core.ram.live ∧ ram.falling = core.ram.falling ∧ Moves core.ram.cache ram.cache
        ((found.map ExpertResident.entry).toList : Multiset (ℕ × PooledBuffer)) 0)
    (hexec : core.evict operation = some (victim,next)) :
    Fits first next ((victim.map fun v => {Token.resident v.1 v.2}).getD 0+held) := by
  unfold EngineCore.evict at hexec
  split at hexec
  case h_2 => cases hexec
  case h_1 ram found hstep =>
    cases hexec
    obtain ⟨hlive,hfalling,hmoves⟩ := hoperation ram found hstep
    have hlose := h.lose (h.ram_step hstep) hlive hfalling hmoves
    cases found with
    | none => simpa [released] using hlose
    | some resident => simpa [released, withId, ExpertResident.entry] using hlose

lemma evictLru_moves (h : Fits first core held) (colder : ℕ → ℕ → Bool) (layer : ℕ)
    {found : Option ExpertResident}
    (hstep : core.ram.step (.evictLruIn colder layer) = some (ram,.found found)) :
    ram.live = core.ram.live ∧ ram.falling = core.ram.falling ∧ Moves core.ram.cache ram.cache
      ((found.map ExpertResident.entry).toList : Multiset (ℕ × PooledBuffer)) 0 := by
  obtain ⟨⟨cache,victim⟩,hevict⟩ : ∃ result, (core.ram.cache.caches layer).evictLru colder = result :=
    ⟨_,rfl⟩
  change some (core.ram.store (core.ram.cache.setLayer layer
    ((core.ram.cache.caches layer).evictLru colder).1),
    (.found ((core.ram.cache.caches layer).evictLru colder).2 : RamCache.Answer)) = _ at hstep
  rw [hevict] at hstep
  cases hstep
  refine ⟨rfl,rfl,?_⟩
  cases victim with
  | none => exact moves_keep h.addressed (ExpertCache.evictLru_none hevict)
  | some resident => exact moves_evict h.addressed (ExpertCache.evictLru_some hevict)

lemma evictLruShadowBacked_moves (h : Fits first core held) (layer : ℕ) {found : Option ExpertResident}
    (hstep : core.ram.step (.evictLruShadowBackedIn layer) = some (ram,.found found)) :
    ram.live = core.ram.live ∧ ram.falling = core.ram.falling ∧ Moves core.ram.cache ram.cache
      ((found.map ExpertResident.entry).toList : Multiset (ℕ × PooledBuffer)) 0 := by
  obtain ⟨⟨cache,victim⟩,hevict⟩ :
    ∃ result, (core.ram.cache.caches layer).evictLruShadowBacked = result := ⟨_,rfl⟩
  change some (core.ram.store (core.ram.cache.setLayer layer
    (core.ram.cache.caches layer).evictLruShadowBacked.1),
    (.found (core.ram.cache.caches layer).evictLruShadowBacked.2 : RamCache.Answer)) = _ at hstep
  rw [hevict] at hstep
  cases hstep
  refine ⟨rfl,rfl,?_⟩
  cases victim with
  | none => exact moves_keep h.addressed (ExpertCache.evictLruShadowBacked_none hevict)
  | some resident => exact moves_evict h.addressed (ExpertCache.evictLruShadowBacked_some hevict).1

lemma insert {missing : Bool} {colder : ℕ → ℕ → Bool} {result : Except Unit (Option (ℕ × Buffer))}
    (h : Fits first core ({.claim id notify missing}+{.resident id buffer}+held))
    (hexec : core.insert colder id buffer = some (result,next)) :
    Fits first next (insertLeaves id notify missing buffer result+held) := by
  obtain ⟨⟨cache,answer⟩,hinsert⟩ :
    ∃ result, core.ram.cache.insert colder (asResident id buffer) = result := ⟨_,rfl⟩
  have hstep : core.ram.step (.insert colder (asResident id buffer)) =
      some (core.ram.store cache,.inserted answer) := by
    change some (core.ram.store (core.ram.cache.insert colder (asResident id buffer)).1,
      (.inserted (core.ram.cache.insert colder (asResident id buffer)).2 : RamCache.Answer)) = _
    rw [hinsert]
  have haccounted := h.ram_step hstep
  unfold EngineCore.insert at hexec
  rw [hstep] at hexec
  cases answer with
  | error refused =>
    cases hexec
    obtain ⟨rfl,-⟩ := insert_refuses hinsert
    exact h
  | ok evicted =>
    cases hexec
    have hmoves := insert_moves h.addressed hinsert
    have hreservations : Reservations (core.ram.store cache) core.tickets core.nextTicket
        (held.bind Token.reserved) (held.bind Token.falling) := by
      have hsame := h.reservations.same (rfl : (core.ram.store cache).live = core.ram.live) rfl
      simpa using hsame
    have harrive := h.arrive held haccounted hreservations ⟨rfl,rfl,rfl,rfl,rfl,rfl,rfl⟩ hmoves
      (insert_mem h.addressed hinsert)
    cases evicted with
    | none => simpa [released] using harrive
    | some victim =>
      simpa [released, withId, ExpertResident.entry, add_comm, add_left_comm, add_assoc] using harrive

/-- A demand set is reserved under a new ticket; its victims go to the caller. -/
lemma tryReserveExactDemand {ids : List ℕ}
    {result : Except ReservationError (ℕ × List (ℕ × Buffer))} (h : Fits first core held)
    (hexec : core.tryReserveExactDemand ids = some (result,next)) :
    Fits first next (reserveLeaves ids result+held) := by
  have hstep : core.ram.step (.tryReserveExactDemand ids) = core.ram.tryReserve ids := rfl
  unfold EngineCore.tryReserveExactDemand at hexec
  obtain ⟨error,hspec⟩ | ⟨requests,plan,emptied,victims,hplan,hspec⟩ :=
    tryReserveExactDemand_spec h.accounted.rooms ids
  · have hreserve : core.ram.step (.tryReserveExactDemand ids) =
        some (core.ram.store core.ram.cache,.reserved (.error error)) := by
      rw [hstep, System.tryReserve, hspec]
    rw [hreserve] at hexec
    cases hexec
    change Fits first core (0+held)
    rwa [zero_add]
  · have hreserve : core.ram.step (.tryReserveExactDemand ids) =
        some (⟨emptied.reserve plan.finalReservations,core.ram.live++
          [⟨plan.guards,ids.zip plan.requestFinalLayers,0⟩],core.ram.falling⟩,
          .reserved (.ok ⟨⟨plan.guards,ids.zip plan.requestFinalLayers,0⟩,plan.evictionIds,
            victims⟩)) := by
      rw [hstep, System.tryReserve, hspec]
    have haccounted := h.ram_step hreserve
    rw [hreserve] at hexec
    cases hexec
    have hpopped := popVictims_moves _ h.addressed hplan.planned.popped
    have hmoves : Moves core.ram.cache (emptied.reserve plan.finalReservations)
        (victims.map ExpertResident.entry : List _) 0 := by
      have hall := hpopped.trans (.same hpopped.addressed
        (rfl : (emptied.reserve plan.finalReservations).numLayers = _) rfl fun _ => rfl)
      rwa [add_zero, add_zero] at hall
    have hids : (((ids.zip plan.requestFinalLayers).drop 0).map Prod.fst) = ids := by
      rw [List.drop_zero]
      exact List.map_fst_zip hplan.length.le
    have hvictims : residentTokens (victims.map core.withId) =
        released core (victims.map ExpertResident.entry : List _) := by
      simp [residentTokens, released, withId, ExpertResident.entry, Function.comp_def]
    have hreservations := h.reservations.reserve ⟨plan.guards,ids.zip plan.requestFinalLayers,0⟩
      (rfl : System.live ⟨emptied.reserve plan.finalReservations,_,_⟩ = _) rfl hids
    have hafter := h.rearrange ({.reservation core.nextTicket ids}+held) haccounted hmoves
      (by simpa using hreservations) (by constructor <;> simp)
    rw [← hvictims, add_left_comm, ← add_assoc] at hafter
    exact hafter

/-- The commit of a missing expert is never refused. -/
lemma commit {pending : List ℕ} {result : Except Unit Bool}
    (h : Fits first core ({.reservation ticket (id::pending)}+{.claim id notify true}+
      {.resident id buffer}+held)) (hexec : core.commit ticket id buffer = some (result,next)) :
    (∃ kept, result = .ok kept) ∧ Fits first next ({.reservation ticket pending}+
      {.claim id notify false}+{.resident id buffer}+held) := by
  have hreservations : Reservations core.ram core.tickets core.nextTicket
      ((ticket,id::pending)::ₘ held.bind Token.reserved) (held.bind Token.falling) := by
    simpa using h.reservations
  obtain ⟨r,-,hr,hpending⟩ := hreservations.live
  have hnext : ∃ final, r.requests[r.nextRequest]? = some (id,final) ∧
      (r.requests.drop (r.nextRequest+1)).map Prod.fst = pending := by
    cases hdrop : r.requests.drop r.nextRequest with
    | nil =>
      rw [hdrop] at hpending
      cases hpending
    | cons request requests =>
      rw [hdrop] at hpending
      obtain ⟨rfl,rfl⟩ := List.cons.inj hpending
      refine ⟨request.2,?_,?_⟩
      · rw [← List.head?_drop, hdrop]
        rfl
      · rw [← List.tail_drop, hdrop]
        rfl
  obtain ⟨final,hrequest,hleft⟩ := hnext
  have hordered := h.accounted.ordered r (List.mem_of_getElem? hr)
  have hstep : core.ram.step (.commit (core.tickets.idxOf ticket) (asResident id buffer)) =
      core.ram.commit (core.tickets.idxOf ticket) (asResident id buffer) := rfl
  unfold EngineCore.commit at hexec
  cases final with
  | none =>
    have hcommit : core.ram.step (.commit (core.tickets.idxOf ticket) (asResident id buffer)) =
        some (⟨core.ram.cache,core.ram.live.set (core.tickets.idxOf ticket) r.advance,
          core.ram.falling⟩,.committed (.ok false)) := by
      rw [hstep, System.commit, hr]
      dsimp only
      rw [commit_evicted hrequest]
    have haccounted := h.ram_step hcommit
    rw [hcommit] at hexec
    cases hexec
    refine ⟨⟨false,rfl⟩,?_⟩
    have hadvance := hreservations.advance r.advance
      (rfl : System.live ⟨core.ram.cache,core.ram.live.set _ _,_⟩ = _) rfl hleft
    have hafter := h.rearrange ({.claim id notify true}+({.reservation ticket pending}+
      {.resident id buffer}+held)) haccounted (.refl h.addressed) (by simpa using hadvance)
      (by constructor <;> simp [Multiset.cons_swap])
    rw [released, Multiset.map_zero, zero_add] at hafter
    have hlooked := hafter.look false nofun
    rw [← add_assoc, ← add_assoc, add_comm {Token.claim id notify false}] at hlooked
    exact hlooked
  | some layer =>
    have hlayer := hordered.addressed _ _ (List.mem_of_getElem? hrequest)
    have hrange := tryLayerIdx_eq_some hlayer
    have hmissing : core.ram.cache.contains id = false :=
      h.flight.missing id notify (by simp)
    obtain ⟨hmem,-⟩ | ⟨-,inner,hinner,hentries,hcap⟩ := @commit_final core.ram.cache r
      (asResident id buffer) layer hrequest hordered.consistent
      (h.accounted.remainingIn_le hr hrange) (h.accounted.room layer hrange)
    · obtain ⟨b,hb⟩ := ExpertCache.mem_residentIds.mp hmem
      exact absurd ((mem_residents h.addressed).mpr ⟨layer,hb⟩)
        ((contains_eq_false h.addressed).mp hmissing b)
    · generalize hcache : ({ core.ram.cache.caches layer with
        inner := inner
        reservedSlots := (core.ram.cache.caches layer).reservedSlots-1 } : ExpertCache) = cache at hinner
      have hcommit : core.ram.step (.commit (core.tickets.idxOf ticket) (asResident id buffer)) =
          some (⟨core.ram.cache.setLayer layer cache,
            core.ram.live.set (core.tickets.idxOf ticket) (r.consume layer),
            core.ram.falling⟩,.committed (.ok true)) := by
        rw [hstep, System.commit, hr]
        dsimp only
        rw [hinner]
      have haccounted := h.ram_step hcommit
      rw [hcommit] at hexec
      cases hexec
      refine ⟨⟨true,rfl⟩,?_⟩
      rw [← tryLayerIdx_congr h.accounted.numLayers h.accounted.stride] at hlayer
      obtain ⟨hmoves,hin⟩ := @moves_join core.ram.cache h.addressed layer cache (asResident id buffer)
        hlayer (by rw [← hcache]; exact hentries)
      have hturn : (((r.consume layer).requests.drop (r.consume layer).nextRequest).map Prod.fst) =
        pending := hleft
      have hadvance := hreservations.advance (r.consume layer)
        (rfl : System.live ⟨core.ram.cache.setLayer layer cache,core.ram.live.set _ _,_⟩ = _) rfl hturn
      have hready : Fits first core ({.claim id notify true}+{.resident id buffer}+
          ({.reservation ticket (id::pending)}+held)) := by
        convert h using 1
        abel
      have harrive := hready.arrive ({.reservation ticket pending}+held) haccounted
        (by simpa using hadvance) (by constructor <;> simp) hmoves hin
      rw [released, Multiset.map_zero, zero_add] at harrive
      convert harrive using 1
      abel

lemma dropReservation {pending : List ℕ} {guards : List (ℕ × ℕ)}
    (h : Fits first core ({.reservation ticket pending}+held))
    (hexec : core.dropReservation ticket = some (guards,next)) :
    Fits first next (slotTokens guards+held) := by
  have hreservations : Reservations core.ram core.tickets core.nextTicket
      ((ticket,pending)::ₘ held.bind Token.reserved) (held.bind Token.falling) := by
    simpa using h.reservations
  obtain ⟨r,-,hr,-⟩ := hreservations.live
  have hstep : core.ram.step (.drop (core.tickets.idxOf ticket)) =
      some (⟨core.ram.cache,core.ram.live.eraseIdx (core.tickets.idxOf ticket),
        core.ram.falling++r.guards core.ram.cache.numLayers⟩,.unit) := by
    change some (core.ram.drop _,_) = _
    rw [System.drop, hr]
  have haccounted := h.ram_step hstep
  unfold EngineCore.dropReservation at hexec
  dsimp only at hexec
  rw [hr, hstep] at hexec
  cases hexec
  have hfall := hreservations.fall (r.guards core.ram.cache.numLayers)
    (rfl : System.live ⟨core.ram.cache,core.ram.live.eraseIdx _,core.ram.falling++_⟩ = _) rfl
  rw [← falling_slotTokens (r.guards core.ram.cache.numLayers), ← Multiset.add_bind,
    ← zero_add (held.bind Token.reserved), ← reserved_slotTokens (r.guards core.ram.cache.numLayers),
    ← Multiset.add_bind] at hfall
  have hafter := h.rearrange (slotTokens (r.guards core.ram.cache.numLayers)+held) haccounted
    (.refl h.addressed) hfall (by constructor <;> simp)
  rwa [released, Multiset.map_zero, zero_add] at hafter

lemma releaseSlots {layer remaining : ℕ} (h : Fits first core ({.slots layer remaining}+held))
    (hexec : core.releaseSlots layer remaining = some ((),next)) : Fits first next held := by
  have hreservations : Reservations core.ram core.tickets core.nextTicket (held.bind Token.reserved)
      ((layer,remaining)::ₘ held.bind Token.falling) := by simpa using h.reservations
  unfold EngineCore.releaseSlots at hexec
  obtain ⟨⟨ram,answer⟩,hstep,heq⟩ := Option.map_eq_some_iff.mp hexec
  cases heq
  have haccounted := h.ram_step hstep
  obtain ⟨hlive,hfalling,hmoves⟩ := release_effect h.addressed hstep (by
    rw [← Multiset.mem_coe, ← hreservations.falling]
    exact Multiset.mem_cons_self _ _)
  have hrelease := hreservations.release hlive hfalling
  have hafter := h.rearrange held haccounted hmoves hrelease (by constructor <;> simp)
  rwa [released, Multiset.map_zero, zero_add] at hafter

lemma newResident (h : Fits first core ({.filled id buffer}+held)) :
    Fits first (core.hold buffer) ({.resident id buffer}+held) := by
  refine ⟨h.accounted,h.addressed,?_,?_,h.slots,?_,?_,?_,?_⟩
  · simpa using h.flight
  · simpa using h.wakes
  · have hbuffers : Buffers core.pool core.holders (buffer::ₘ held.bind Token.raw)
        (held.bind Token.behind+core.cachedBuffers) := by simpa using h.buffers
    simpa [cachedBuffers] using hbuffers.wrap
  · simpa using h.reservations
  · simpa using h.permits
  · simpa [cachedPairs] using h.contents

lemma dropResident (h : Fits first core ({.resident id buffer}+held)) :
    Fits first (core.drop buffer) held := by
  refine ⟨h.accounted,h.addressed,?_,?_,?_,?_,?_,?_,?_⟩
  · simpa using h.flight
  · simpa using h.wakes
  · have hslots := h.slots
    dsimp only [EngineCore.drop]
    split_ifs
    · simpa using hslots
    · exact hslots
  · have hbuffers : Buffers core.pool core.holders (held.bind Token.raw)
        (buffer::ₘ (held.bind Token.behind+core.cachedBuffers)) := by simpa using h.buffers
    simpa [cachedBuffers] using hbuffers.drop
  · simpa using h.reservations
  · simpa using h.permits
  · have hcontents : Contents core.content
        ((id,buffer)::ₘ (held.bind Token.known+core.cachedPairs)) := by simpa using h.contents
    exact fun pair hmem => hcontents pair (Multiset.mem_cons_of_mem hmem)

lemma dropBuffer (h : Fits first core ({.buffer buffer}+held)) :
    Fits first { core with pool := core.pool.release buffer } held := by
  refine ⟨h.accounted,h.addressed,?_,?_,?_,?_,?_,?_,?_⟩
  · simpa using h.flight
  · simpa using h.wakes
  · simpa using h.slots
  · have hbuffers : Buffers core.pool core.holders (buffer::ₘ held.bind Token.raw)
        (held.bind Token.behind+core.cachedBuffers) := by simpa using h.buffers
    simpa [cachedBuffers] using hbuffers.give
  · simpa using h.reservations
  · simpa using h.permits
  · simpa [cachedPairs] using h.contents

lemma acquire {pool : BufferPool} (h : Fits first core held)
    (hacquire : core.pool.tryAcquire = some (buffer,pool)) :
    buffer.slot = .primary ∧ Fits first { core with pool := pool } ({.buffer buffer}+held) := by
  obtain ⟨hslot,hbuffers⟩ := h.buffers.acquire hacquire
  refine ⟨hslot,h.accounted,h.addressed,?_,?_,?_,?_,?_,?_,?_⟩
  · simpa using h.flight
  · simpa using h.wakes
  · have hslots := h.slots
    rwa [← (slots_tryAcquire hacquire).1, ← (slots_tryAcquire hacquire).2] at hslots
  · simpa [cachedBuffers] using hbuffers
  · simpa using h.reservations
  · simpa using h.permits
  · simpa [cachedPairs] using h.contents

lemma acquireShadow {pool : BufferPool} (h : Fits first core held)
    (hacquire : core.pool.tryAcquireShadow = some (buffer,pool)) :
    buffer.slot = .shadow ∧ Fits first { core with pool := pool } ({.buffer buffer}+held) := by
  obtain ⟨hslot,hbuffers⟩ := h.buffers.acquireShadow hacquire
  refine ⟨hslot,h.accounted,h.addressed,?_,?_,?_,?_,?_,?_,?_⟩
  · simpa using h.flight
  · simpa using h.wakes
  · have hslots := h.slots
    rwa [← (slots_tryAcquireShadow hacquire).1, ← (slots_tryAcquireShadow hacquire).2] at hslots
  · simpa [cachedBuffers] using hbuffers
  · simpa using h.reservations
  · simpa using h.permits
  · simpa [cachedPairs] using h.contents

/-- A free slot of the table is claimed; an occupied one shows the notification of its leader. -/
lemma tryClaim (guards : List (ℕ × ℕ × Bool)) (h : Fits first core (claimTokens guards+held))
    (id : ℕ) : ∃ left, claimLeaves guards id (core.tryClaim id).1 = some left ∧
      Fits first (core.tryClaim id).2 (left+held) := by
  unfold EngineCore.tryClaim
  cases hlookup : core.inFlight.lookup id with
  | some n =>
    refine ⟨_,rfl,?_⟩
    rw [add_assoc]
    refine ⟨h.accounted,h.addressed,?_,?_,h.slots,?_,?_,?_,?_⟩
    · simpa using h.flight
    · obtain ⟨missing,hclaim⟩ := h.flight.lookup_eq_some hlookup
      have hissued : n ∈ (claimTokens guards+held).bind Token.issued := by
        obtain ⟨t,ht,hmem⟩ := Multiset.mem_bind.mp hclaim
        refine Multiset.mem_bind.mpr ⟨t,ht,?_⟩
        cases t with
        | claim i k m =>
          cases Multiset.mem_singleton.mp hmem
          exact Multiset.mem_singleton_self _
        | _ => exact absurd hmem (Multiset.notMem_zero _)
      simpa using h.wakes.watch (h.wakes.pending n hissued).1 (Nat.zero_le _)
    · simpa using h.buffers
    · simpa using h.reservations
    · simpa using h.permits
    · simpa [cachedPairs] using h.contents
  | none =>
    have hflight := h.flight.claim hlookup core.nextNotify
    have hnew : id ∉ guards.map Prod.fst := by
      intro hmem
      obtain ⟨guard,hguard,rfl⟩ := List.mem_map.mp hmem
      refine hflight.other guard.2.1 guard.2.2 ?_
      refine Multiset.mem_bind.mpr ⟨.claim guard.1 guard.2.1 guard.2.2,?_,
        Multiset.mem_singleton_self _⟩
      exact Multiset.mem_add.mpr (.inl (Multiset.mem_map.mpr ⟨guard,hguard,rfl⟩))
    refine ⟨_,if_neg hnew,?_⟩
    rw [add_assoc]
    refine ⟨h.accounted,h.addressed,?_,?_,h.slots,?_,?_,?_,?_⟩
    · simpa using hflight
    · simpa using h.wakes.claim
    · simpa [cachedBuffers] using h.buffers
    · simpa using h.reservations
    · simpa using h.permits
    · simpa [cachedPairs] using h.contents

lemma removeClaim {missing : Bool} (h : Fits first core ({.claim id notify missing}+held)) :
    Fits first (core.removeClaim id notify) ({.firing notify}+held) := by
  refine ⟨h.accounted,h.addressed,?_,?_,h.slots,?_,?_,?_,?_⟩
  · have hflight : Flight core.ram.cache core.inFlight
        ((id,notify,missing)::ₘ held.bind Token.claimed) := by simpa using h.flight
    simpa [EngineCore.removeClaim] using hflight.remove
  · simpa [EngineCore.removeClaim] using h.wakes
  · simpa [EngineCore.removeClaim, cachedBuffers] using h.buffers
  · simpa [EngineCore.removeClaim] using h.reservations
  · simpa [EngineCore.removeClaim] using h.permits
  · simpa [EngineCore.removeClaim, cachedPairs] using h.contents

lemma notifyWaiters (h : Fits first core ({.firing notify}+held)) :
    Fits first (core.notifyWaiters notify) held := by
  refine ⟨h.accounted,h.addressed,?_,?_,h.slots,?_,?_,?_,?_⟩
  · simpa [EngineCore.notifyWaiters] using h.flight
  · have hwakes : Wakes core.calls core.nextNotify (notify::ₘ held.bind Token.issued)
        (held.bind Token.watched) := by simpa using h.wakes
    simpa [EngineCore.notifyWaiters] using hwakes.fire
  · simpa [EngineCore.notifyWaiters, cachedBuffers] using h.buffers
  · simpa [EngineCore.notifyWaiters] using h.reservations
  · simpa [EngineCore.notifyWaiters] using h.permits
  · simpa [EngineCore.notifyWaiters, cachedPairs] using h.contents

/-- A follower registers; later calls wake it. -/
lemma notified {seen calls : ℕ} (h : Fits first core ({.watch notify seen}+held))
    (hcalls : core.calls notify = calls) : Fits first core ({.watch notify calls}+held) := by
  refine ⟨h.accounted,h.addressed,?_,?_,h.slots,?_,?_,?_,?_⟩
  · simpa using h.flight
  · have hwakes : Wakes core.calls core.nextNotify (held.bind Token.issued)
        ({(notify,seen)}+held.bind Token.watched) := by simpa using h.wakes
    have hlt := (hwakes.watched (notify,seen) (Multiset.mem_add.mpr (.inl
      (Multiset.mem_singleton_self _)))).1
    simpa using hwakes.unwatch.watch hlt hcalls.ge
  · simpa using h.buffers
  · simpa using h.reservations
  · simpa using h.permits
  · simpa [cachedPairs] using h.contents

lemma takePermit (h : Fits first core held) (hsome : ¬ core.permits = 0) :
    Fits first { core with permits := core.permits-1 } ({.permit}+held) := by
  refine ⟨h.accounted,h.addressed,?_,?_,h.slots,?_,?_,?_,?_⟩
  · simpa using h.flight
  · simpa using h.wakes
  · simpa [cachedBuffers] using h.buffers
  · simpa using h.reservations
  · have hpermits := h.permits
    simp
    omega
  · simpa [cachedPairs] using h.contents

lemma givePermit (h : Fits first core ({.permit}+held)) :
    Fits first { core with permits := core.permits+1 } held := by
  refine ⟨h.accounted,h.addressed,?_,?_,h.slots,?_,?_,?_,?_⟩
  · simpa using h.flight
  · simpa using h.wakes
  · simpa [cachedBuffers] using h.buffers
  · simpa using h.reservations
  · have hpermits : core.permits+(1+(held.map Token.permits).sum) = first.permits := by
      simpa using h.permits
    dsimp only
    omega
  · simpa [cachedPairs] using h.contents

/-- A buffer is known only to its owner, or is behind a live resident. -/
lemma mem_known {pair : ℕ × Buffer} {held : Multiset Token} (h : pair ∈ held.bind Token.known) :
    pair.2 ∈ held.bind Token.raw ∨ pair.2 ∈ held.bind Token.behind := by
  obtain ⟨t,ht,hmem⟩ := Multiset.mem_bind.mp h
  cases t with
  | filled id b =>
    cases Multiset.mem_singleton.mp hmem
    exact .inl (Multiset.mem_bind.mpr ⟨_,ht,Multiset.mem_singleton_self _⟩)
  | resident id b =>
    cases Multiset.mem_singleton.mp hmem
    exact .inr (Multiset.mem_bind.mpr ⟨_,ht,Multiset.mem_singleton_self _⟩)
  | _ => exact absurd hmem (Multiset.notMem_zero _)

/-- Who owns a buffer may write to it. -/
lemma fill (content : Option ℕ) (h : Fits first core ({.buffer buffer}+held)) :
    Fits first { core with content := Function.update core.content buffer content }
      ({written buffer content}+held) := by
  have hbuffers : Buffers core.pool core.holders (buffer::ₘ held.bind Token.raw)
      (held.bind Token.behind+core.cachedBuffers) := by simpa using h.buffers
  have hnodup := hbuffers.nodup
  rw [Multiset.nodup_add, Multiset.nodup_add, Multiset.nodup_cons] at hnodup
  obtain ⟨⟨-,⟨hraw,-⟩,-⟩,-,hdisjoint⟩ := hnodup
  have harcs : buffer ∉ held.bind Token.behind+core.cachedBuffers := fun hmem =>
    Multiset.disjoint_left.mp hdisjoint (Multiset.mem_add.mpr (.inr (Multiset.mem_cons_self _ _)))
      (Multiset.mem_dedup.mpr hmem)
  have hother : ∀ pair ∈ held.bind Token.known+core.cachedPairs, pair.2 ≠ buffer := by
    rintro pair hmem rfl
    obtain hmem | hmem := Multiset.mem_add.mp hmem
    · obtain hmem | hmem := mem_known hmem
      · exact hraw hmem
      · exact harcs (Multiset.mem_add.mpr (.inl hmem))
    · obtain ⟨entry,hentry,rfl⟩ := Multiset.mem_map.mp hmem
      exact harcs (Multiset.mem_add.mpr (.inr (Multiset.mem_map.mpr ⟨entry,hentry,rfl⟩)))
  have hcontents : ∀ pair ∈ held.bind Token.known+core.cachedPairs,
      Function.update core.content buffer content pair.2 = some pair.1 := by
    intro pair hmem
    rw [Function.update_of_ne (hother pair hmem)]
    exact h.contents pair (by simpa using hmem)
  refine ⟨h.accounted,h.addressed,?_,?_,h.slots,?_,?_,?_,?_⟩
  · cases content <;> simpa [written] using h.flight
  · cases content <;> simpa [written] using h.wakes
  · cases content <;> simpa [written, cachedBuffers] using hbuffers
  · cases content <;> simpa [written] using h.reservations
  · cases content <;> simpa [written] using h.permits
  · cases content with
    | none => simpa [written, cachedPairs, Contents] using hcontents
    | some id =>
      intro pair hmem
      rw [Multiset.add_bind, Multiset.singleton_bind, add_assoc] at hmem
      obtain hmem | hmem := Multiset.mem_add.mp hmem
      · cases Multiset.mem_singleton.mp hmem
        exact Function.update_self ..
      · exact hcontents pair hmem

lemma fillAll (writes : List (Buffer × Option ℕ))
    (h : Fits first core (bufferTokens (writes.map Prod.fst)+held)) :
    Fits first { core with content := write core.content writes } (writtenTokens writes+held) := by
  induction writes generalizing held with
  | nil => exact h
  | cons w writes ih =>
    rw [List.map_cons, bufferTokens_cons, add_right_comm, add_comm] at h
    have hrest := ih h
    rw [add_left_comm] at hrest
    have hfill := hrest.fill w.2
    rw [← add_assoc] at hfill
    exact hfill

lemma writtenTokens_filled (pairs : List (ℕ × Buffer)) :
    writtenTokens (pairs.map fun pair => (pair.2,some pair.1)) = filledTokens pairs := by
  rw [writtenTokens, ← Multiset.map_coe, Multiset.map_map]
  rfl

lemma writtenTokens_torn (buffers : List Buffer) :
    writtenTokens (buffers.map fun buffer => (buffer,none)) = bufferTokens buffers := by
  rw [writtenTokens, ← Multiset.map_coe, Multiset.map_map]
  rfl

lemma readExpert (h : Fits first core ({.buffer buffer}+held)) (id : ℕ)
    (result : Option (Except String Unit)) :
    Fits first (core.readExpert id buffer result).2 (readLeaves id buffer result+held) := by
  obtain _ | (_ | _) := result
  · exact h.fill none
  · exact h.fill none
  · exact h.fill (some id)

lemma readExpertsBatch {ids : List ℕ} {buffers : List Buffer} (h : Fits first core
      (bufferTokens buffers+held)) (hlength : buffers.length = ids.length) (expected : ℕ)
    (result : Option (Except String ℕ)) :
    Fits first (core.readExpertsBatch expected ids buffers result).2
      (batchLeaves expected ids buffers result+held) := by
  have htorn := @fillAll first core held (buffers.map fun buffer => (buffer,none)) (by
    rw [List.map_map]
    exact (List.map_id buffers).symm ▸ h)
  have hfilled := @fillAll first core held ((ids.zip buffers).map fun pair => (pair.2,some pair.1)) (by
    rw [List.map_map]
    exact (List.map_snd_zip hlength.le).symm ▸ h)
  rw [writtenTokens_torn] at htorn
  rw [writtenTokens_filled] at hfilled
  obtain _ | (_ | readBytes) := result
  · exact htorn
  · exact htorn
  · unfold EngineCore.readExpertsBatch batchLeaves
    dsimp only
    split_ifs
    · exact hfilled
    · exact htorn

/-- What is disposable may be let go. -/
lemma let_go {junk : Multiset Token} (shadowSlots : ℕ) (holding : Bool)
    (hjunk : ∀ t ∈ junk, (logic shadowSlots holding).disposable t)
    (h : Fits first core (junk+held)) : Fits first core held := by
  have hzero : ∀ {β : Type} (f : Token → Multiset β), (∀ n seen, f (.watch n seen) = 0) →
      junk.bind f = 0 := by
    intro β f hf
    have hall : ∀ t ∈ junk, f t = 0 := by
      intro t ht
      cases t with
      | watch n seen => exact hf n seen
      | _ => exact (hjunk _ ht).elim
    rw [Multiset.bind_congr hall, Multiset.bind_zero]
  have hpermits : (junk.map Token.permits).sum = 0 := by
    refine Multiset.sum_eq_zero fun k hk => ?_
    obtain ⟨t,ht,rfl⟩ := Multiset.mem_map.mp hk
    cases t with
    | watch n seen => rfl
    | _ => exact (hjunk _ ht).elim
  refine ⟨h.accounted,h.addressed,?_,?_,h.slots,?_,?_,?_,?_⟩
  · simpa [hzero Token.claimed fun _ _ => rfl] using h.flight
  · have hwakes := h.wakes
    rw [Multiset.add_bind, Multiset.add_bind, hzero Token.issued fun _ _ => rfl, zero_add] at hwakes
    exact hwakes.unwatch
  · simpa [hzero Token.raw fun _ _ => rfl, hzero Token.behind fun _ _ => rfl] using h.buffers
  · simpa [hzero Token.reserved fun _ _ => rfl, hzero Token.falling fun _ _ => rfl]
      using h.reservations
  · simpa [hpermits] using h.permits
  · simpa [hzero Token.known fun _ _ => rfl] using h.contents

/-- Every rule of the logic is right. -/
theorem sound (first : EngineCore) (holding : Bool) :
    Concurrent.Sound (logic first.pool.shadowSlots holding) exec (Fits first) := by
  intro core op choice answer next needs leaves held hrule h hexec
  have hsilent : ∀ {a : Answer op}, some (a,core) = some (answer,next) → next = core := fun heq =>
    (congrArg Prod.snd (Option.some.inj heq)).symm
  cases hrule with
  | get id =>
    rw [zero_add] at h
    exact ⟨_,rfl,(h.get hexec).1⟩
  | getUnderGuard id notify missing =>
    obtain ⟨hfits,hmissing⟩ := h.get hexec
    refine ⟨_,rfl,?_⟩
    cases answer with
    | none => 
      rw [Option.map_none, Option.getD_none, zero_add] at hfits
      exact hfits.look true fun _ => hmissing rfl
    | some b => 
      change Fits first next ({Token.claim id notify missing}+{Token.resident id b}+held)
      rw [add_comm {Token.claim id notify missing}, add_assoc]
      exact hfits
  | contains id =>
    cases hsilent hexec
    exact ⟨_,rfl,h⟩
  | containsUnderGuard id notify missing =>
    cases hsilent hexec
    have hanswer : core.ram.cache.contains id = answer := congrArg Prod.fst (Option.some.inj hexec)
    refine ⟨_,rfl,h.look _ fun hseen => ?_⟩
    obtain hold | hnow := (Bool.or_eq_true _ _).mp hseen
    · subst hold
      exact h.missing
    · rw [hanswer]
      exact Bool.not_eq_true' _ |>.mp hnow
  | full =>
    cases hsilent hexec
    exact ⟨_,rfl,h⟩
  | evictLru =>
    rw [zero_add] at h
    exact ⟨_,rfl,h.evict (fun ram found => h.evictLru_moves choice.colder choice.layer) hexec⟩
  | evictLruShadowBacked =>
    rw [zero_add] at h
    exact ⟨_,rfl,h.evict (fun ram found => h.evictLruShadowBacked_moves choice.layer) hexec⟩
  | insert id notify missing b => exact ⟨_,rfl,h.insert hexec⟩
  | tryReserveExactDemand ids =>
    rw [zero_add] at h
    exact ⟨_,rfl,h.tryReserveExactDemand hexec⟩
  | commit ticket id notify pending b =>
    obtain ⟨⟨kept,rfl⟩,hfits⟩ := h.commit hexec
    exact ⟨_,rfl,hfits⟩
  | dropReservation ticket pending => exact ⟨_,rfl,h.dropReservation hexec⟩
  | releaseSlots layer remaining =>
    refine ⟨_,rfl,?_⟩
    rw [zero_add]
    exact h.releaseSlots hexec
  | newResident id b =>
    cases hexec
    exact ⟨_,rfl,h.newResident⟩
  | dropResident id b =>
    cases hexec
    refine ⟨_,rfl,?_⟩
    rw [zero_add]
    exact h.dropResident
  | dropBuffer b =>
    cases hexec
    refine ⟨_,rfl,?_⟩
    rw [zero_add]
    exact h.dropBuffer
  | tryAcquire =>
    rw [zero_add] at h
    change some core.tryAcquire = _ at hexec
    unfold EngineCore.tryAcquire at hexec
    cases hacquire : core.pool.tryAcquire with
    | none =>
      rw [hacquire] at hexec
      cases hexec
      exact ⟨0,rfl,by rwa [zero_add]⟩
    | some acquired =>
      obtain ⟨b,pool⟩ := acquired
      rw [hacquire] at hexec
      cases hexec
      obtain ⟨hslot,hfits⟩ := h.acquire hacquire
      exact ⟨{.buffer b},if_pos hslot,hfits⟩
  | tryAcquireShadow =>
    rw [zero_add] at h
    change some core.tryAcquireShadow = _ at hexec
    unfold EngineCore.tryAcquireShadow at hexec
    cases hacquire : core.pool.tryAcquireShadow with
    | none =>
      rw [hacquire] at hexec
      cases hexec
      exact ⟨0,rfl,by rwa [zero_add]⟩
    | some acquired =>
      obtain ⟨b,pool⟩ := acquired
      rw [hacquire] at hexec
      cases hexec
      obtain ⟨hslot,hfits⟩ := h.acquireShadow hacquire
      exact ⟨{.buffer b},if_pos hslot,hfits⟩
  | acquire =>
    rw [zero_add] at h
    change (if choice.goesOn then core.acquire else some (none,core)) = _ at hexec
    split_ifs at hexec
    · unfold EngineCore.acquire at hexec
      obtain ⟨⟨b,pool⟩,hacquire,heq⟩ := Option.map_eq_some_iff.mp hexec
      cases heq
      obtain ⟨hslot,hfits⟩ := h.acquire hacquire
      exact ⟨{.buffer b},if_pos hslot,hfits⟩
    · cases hexec
      exact ⟨0,rfl,by rwa [zero_add]⟩
  | shadowCapacity =>
    cases hsilent hexec
    have hanswer : core.pool.shadowSlots = answer := congrArg Prod.fst (Option.some.inj hexec)
    exact ⟨0,if_pos (hanswer.symm.trans h.slots.2),h⟩
  | tryClaim guards id =>
    have hclaim : core.tryClaim id = (answer,next) := Option.some.inj hexec
    have hfits := h.tryClaim guards id
    rwa [hclaim] at hfits
  | removeClaim id notify missing =>
    cases hexec
    exact ⟨_,rfl,h.removeClaim⟩
  | notifyWaiters notify =>
    cases hexec
    refine ⟨_,rfl,?_⟩
    rw [zero_add]
    exact h.notifyWaiters
  | notified notify seen =>
    cases hsilent hexec
    have hanswer : core.calls notify = answer := congrArg Prod.fst (Option.some.inj hexec)
    exact ⟨_,rfl,h.notified hanswer⟩
  | isInFlight id =>
    cases hsilent hexec
    exact ⟨_,rfl,h⟩
  | await notify seen =>
    refine ⟨_,rfl,?_⟩
    rw [zero_add]
    have hsame : next = core := by
      change (if choice.goesOn then if seen<core.calls notify then some (some (),core) else none
        else some (none,core)) = _ at hexec
      split_ifs at hexec
      · exact hsilent hexec
      · exact hsilent hexec
    rw [hsame]
    refine h.let_go 0 true fun t ht => ?_
    rw [Multiset.mem_singleton.mp ht]
    trivial
  | governorAdmits =>
    cases hsilent hexec
    exact ⟨_,rfl,h⟩
  | tryAcquirePermit =>
    rw [zero_add] at h
    change some core.tryAcquirePermit = _ at hexec
    unfold EngineCore.tryAcquirePermit at hexec
    split_ifs at hexec with hnone
    · cases hexec
      exact ⟨0,rfl,by rwa [zero_add]⟩
    · cases hexec
      exact ⟨{.permit},rfl,h.takePermit hnone⟩
  | releasePermit =>
    cases hexec
    refine ⟨_,rfl,?_⟩
    rw [zero_add]
    exact h.givePermit
  | spawn =>
    cases hsilent hexec
    exact ⟨_,rfl,h⟩
  | readDemand id notify b hslot =>
    cases hexec
    refine ⟨_,rfl,?_⟩
    rw [add_comm {Token.claim id notify true}, add_assoc] at h ⊢
    exact h.readExpert id _
  | readAhead id notify missing b hslot =>
    cases hexec
    refine ⟨_,rfl,?_⟩
    rw [add_comm {Token.claim id notify missing}, add_assoc, add_assoc] at h ⊢
    exact h.readExpert id _
  | readExpertsBatch expected guards buffers hslots hlength =>
    cases hexec
    refine ⟨_,rfl,?_⟩
    rw [add_comm (claimTokens _), add_assoc] at h ⊢
    exact h.readExpertsBatch (hlength.trans (List.length_map ..).symm) expected _
  | sleep =>
    cases hsilent hexec
    exact ⟨_,rfl,h⟩
  | compute =>
    cases hsilent hexec
    exact ⟨_,rfl,h⟩

end Fits
end Cores

end MicroExpertRouter.Fetch
