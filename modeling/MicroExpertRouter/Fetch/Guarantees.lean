import MicroExpertRouter.Fetch.Discipline

/-! What holds of the engine however its tasks take turns and whichever of their awaits are
cancelled: one read of an expert at a time and into a buffer of nobody else, the right bytes behind
every resident, exact demand sets, and nothing kept at the end. -/
namespace MicroExpertRouter.Fetch
open RamCache

section Tasks
variable {shadowSlots : ℕ} {holding : Bool}

/-- A demand brings its ids once each, in request order and as far as it came; no error that the
checks before it exclude. -/
def Report.Honest : Report → Prop
  | .fetched _ _ => True
  | .prefetched _ => True
  | .demanded ids sourced result => sourced <+: ids.eraseDups ∧
      (result = some (.ok ()) → sourced = ids.eraseDups) ∧
      ∀ error, result = some (.error error) → error.isInternal = false

/-- A task ends owning nothing but registrations. -/
def Settled (report : Report) (held : Multiset Token) : Prop :=
  (∀ t ∈ held, ∃ n seen, t = .watch n seen) ∧ report.Honest

lemma settled_watch (report : Report) (n seen : ℕ) (held : Multiset Token) (h : Settled report held) :
    Settled report ({.watch n seen}+held) := by
  refine ⟨fun t ht => ?_,h.2⟩
  obtain ht | ht := Multiset.mem_add.mp ht
  · exact ⟨n,seen,Multiset.mem_singleton.mp ht⟩
  · exact h.1 t ht

lemma settled_zero {report : Report} (h : report.Honest) : Settled report 0 :=
  ⟨fun _ ht => absurd ht (Multiset.notMem_zero _),h⟩

lemma idle_zero : Idle holding 0 := fun _ _ _ ht => absurd ht (Multiset.notMem_zero _)

lemma owns_compute {f : Unit → Task Report} (residents : List (ℕ × Buffer))
    (hnext : Owns (logic shadowSlots holding) Settled (f ()) (residentTokens residents)) :
    Owns (logic shadowSlots holding) Settled (ask (.compute residents) >>= f)
      (residentTokens residents) := by
  refine Owns.ask 0 (.compute residents) (add_zero _).symm (fun _ _ => trivial) ?_
  rintro ⟨⟩ left ⟨⟩
  rwa [add_zero]

lemma owns_fetchTask (id : ℕ) : Owns (logic shadowSlots holding) Settled (fetchTask id) 0 := by
  refine owns_fetchWithRetryInner settled_watch idle_zero fun result => ?_
  rw [add_zero]
  obtain _ | (_ | b) := result
  · exact settled_zero trivial
  · exact settled_zero trivial
  · refine owns_compute [(id,b)] ?_
    refine Owns.ask 0 (.dropResident id b) (add_zero _).symm (fun _ _ => trivial) ?_
    rintro ⟨⟩ left ⟨⟩
    exact settled_zero trivial

lemma owns_speculationTask (id : ℕ) :
    Owns (logic shadowSlots holding) Settled (speculationTask id) 0 := by
  refine owns_spawnPrefetch settled_watch ?_
  change Settled (.prefetched id) 0
  exact settled_zero trivial

lemma owns_demandTask (bufferSize : ℕ) (ids : List ℕ) :
    Owns (logic shadowSlots true) Settled (demandTask bufferSize ids) 0 := by
  refine owns_productionSource settled_watch idle_zero fun demanded hbrings => ?_
  obtain ⟨residents,result⟩ := demanded
  have hwanted : wanted ids [] = ids.eraseDups := by
    have hall : unresolved ids [] = ids := List.filter_eq_self.mpr fun _ _ => rfl
    rw [wanted, hall]
    rfl
  rw [add_zero]
  refine owns_compute residents ?_
  rw [← add_zero (residentTokens residents)]
  refine owns_dropResidents residents (settled_zero ⟨?_,?_,hbrings.external⟩)
  · exact hwanted ▸ hbrings.part
  · exact hwanted ▸ hbrings.whole

end Tasks

/-- What is asked of the engine. -/
inductive Request
  | fetch (id : ℕ)
  | speculate (id : ℕ)
  | demand (bufferSize : ℕ) (ids : List ℕ)
  deriving DecidableEq, Repr

namespace Request

def task : Request → Task Report
  | fetch id => fetchTask id
  | speculate id => speculationTask id
  | demand bufferSize ids => demandTask bufferSize ids

/-- A demand set keeps residents while it waits for more. -/
def holds : Request → Bool
  | demand _ _ => true
  | _ => false

end Request

abbrev Engine : Type := Concurrent EngineCore Op Answer Report

/-- Requests before a new engine. -/
def Engine.start (core : EngineCore) (requests : List Request) : Engine :=
  ⟨core,requests.map Request.task⟩

/-- The next operation of a task. -/
def Engine.next (self : Engine) (i : ℕ) : Option Op :=
  match self.programs[i]? with
  | some (.call op _) => some op
  | _ => none

/-- How a task ended. -/
def Engine.report (self : Engine) (i : ℕ) : Option Report :=
  match self.programs[i]? with
  | some (.done report) => some report
  | _ => none

namespace Op

/-- The experts that are read. -/
def reads : Op → List ℕ
  | readExpert _ id _ => [id]
  | readExpertsBatch _ ids _ => ids
  | _ => []

/-- The buffers that are written. -/
def writes : Op → List Buffer
  | readExpert _ _ buffer => [buffer]
  | readExpertsBatch _ _ buffers => buffers
  | _ => []

def isSpeculative : Op → Bool
  | readExpert foreground _ _ => !foreground
  | _ => false

end Op

/-- How many prefetches are at their reads. -/
def Engine.speculating (self : Engine) : ℕ :=
  self.programs.countP fun program => match program with
    | .call op _ => op.isSpeculative
    | .done _ => false

section Start
variable {perLayerCaps : List ℕ} {expertsPerLayer primarySlots shadowSlots maxConcurrentPrefetches : ℕ}
  {costAwareEviction : Bool} {cache : MultiLayerExpertCache}

lemma residents_withCapacities
    (hcache : MultiLayerExpertCache.withCapacities perLayerCaps expertsPerLayer = some cache) :
    ∀ layer, (cache.caches layer).inner.entries = [] := by
  unfold MultiLayerExpertCache.withCapacities at hcache
  split_ifs at hcache
  cases hcache
  intro layer
  dsimp only
  split_ifs <;> rfl

lemma entries_setCostAware
    (hcache : MultiLayerExpertCache.withCapacities perLayerCaps expertsPerLayer = some cache) (layer : ℕ) :
    ((cache.setCostAware costAwareEviction).caches layer).inner.entries = [] := by
  unfold MultiLayerExpertCache.setCostAware
  dsimp only
  split_ifs
  · exact residents_withCapacities hcache layer
  · exact residents_withCapacities hcache layer

lemma accounted_setCostAware
    (hcache : MultiLayerExpertCache.withCapacities perLayerCaps expertsPerLayer = some cache) :
    Accounted (cache.setCostAware costAwareEviction) (.new (cache.setCostAware costAwareEviction)) := by
  obtain ⟨next,answer,hstep,hnext,-⟩ := (Accounted.new hcache).step (.setCostAware costAwareEviction)
  cases hstep
  exact ⟨rfl,rfl,fun _ => rfl,hnext.distinct,hnext.room,hnext.reserved,
    List.forall_mem_nil _,List.forall_mem_nil _⟩

/-- A new engine owes nobody anything. -/
lemma fits_new (hcache : MultiLayerExpertCache.withCapacities perLayerCaps expertsPerLayer = some cache) :
    Fits (.new cache primarySlots shadowSlots maxConcurrentPrefetches costAwareEviction)
      (.new cache primarySlots shadowSlots maxConcurrentPrefetches costAwareEviction) 0 := by
  have hempty := fun layer => @entries_setCostAware _ _ costAwareEviction _ hcache layer
  have hresidents : (cache.setCostAware costAwareEviction).residents = 0 :=
    Finset.sum_eq_zero fun layer _ => by rw [hempty]; rfl
  have hnone : ∀ {β : Type} (t : β), t ∉ (0 : Multiset β) := fun _ => Multiset.notMem_zero _
  refine ⟨accounted_setCostAware hcache,?_,⟨rfl,List.nodup_nil,fun _ _ h => absurd h (hnone _)⟩,
    ⟨Multiset.nodup_zero,fun _ h => absurd h (hnone _),fun n h => absurd h (Nat.not_lt_zero n),
      fun _ _ => rfl,fun _ h => absurd h (hnone _)⟩,⟨rfl,rfl⟩,⟨?_,fun b => ?_,?_,?_⟩,
    ⟨rfl,List.nodup_nil,nofun,rfl,fun _ _ h => absurd h (hnone _),rfl⟩,rfl,?_⟩
  · intro layer entry hmem
    change entry ∈ ((cache.setCostAware costAwareEviction).caches layer).inner.entries at hmem
    rw [hempty] at hmem
    cases hmem
  · change _+_+(0 : Multiset Token).bind Token.raw+((0 : Multiset Token).bind Token.behind+
      (cache.setCostAware costAwareEviction).residents.map _).dedup = _
    rw [hresidents, Multiset.zero_bind, Multiset.zero_bind, Multiset.map_zero, add_zero, add_zero,
      Multiset.dedup_zero, add_zero]
    rfl
  · change 0 = Multiset.count b ((0 : Multiset Token).bind Token.behind+
      (cache.setCostAware costAwareEviction).residents.map _)
    rw [hresidents, Multiset.zero_bind, Multiset.map_zero, add_zero, Multiset.count_zero]
  · intro b hmem
    obtain ⟨i,-,rfl⟩ := List.mem_map.mp hmem
    rfl
  · intro b hmem
    obtain ⟨i,-,rfl⟩ := List.mem_map.mp hmem
    rfl
  · intro pair hmem
    change pair ∈ (0 : Multiset Token).bind Token.known+
      (cache.setCostAware costAwareEviction).residents.map _ at hmem
    rw [hresidents] at hmem
    exact absurd hmem (hnone _)

end Start

section Small

/-- A turn that goes on, with a read of so many bytes; and one that does not. -/
def goOn (i : ℕ) (readBytes : ℕ) : ℕ × Choice := (i,⟨0,fun _ _ => false,true,.ok readBytes⟩)

def holdBack (i : ℕ) : ℕ × Choice := (i,⟨0,fun _ _ => false,false,.ok 0⟩)

/-- A run of an engine with room for two experts, three primary buffers and a shadow one. -/
def smallRun (requests : List Request) (turns : List (ℕ × Choice)) : Option Engine :=
  (MultiLayerExpertCache.withCapacities [2] 8).bind fun cache =>
    (Engine.start (.new cache 3 1 1 false) requests).run EngineCore.exec turns

lemma of_smallRun {requests : List Request} {turns : List (ℕ × Choice)} {β : Type} {view : Engine → β}
    {seen : β} (h : (smallRun requests turns).map view = some seen) :
    ∃ cache engine, MultiLayerExpertCache.withCapacities [2] 8 = some cache ∧
      (Engine.start (.new cache 3 1 1 false) requests).run EngineCore.exec turns = some engine ∧
        view engine = seen := by
  obtain ⟨engine,hengine,hseen⟩ := Option.map_eq_some_iff.mp h
  obtain ⟨cache,hcache,hrun⟩ := Option.bind_eq_some_iff.mp hengine
  exact ⟨cache,engine,hcache,hrun,hseen⟩

/-- Two fetches on their way to the drive. -/
def twoReads : List (ℕ × Choice) :=
  [goOn 0 0,goOn 0 0,goOn 0 0,holdBack 0,goOn 0 0,goOn 1 0,goOn 1 0,goOn 1 0,holdBack 1,goOn 1 0]

/-- A demand set from its first look into the cache to its last resident. -/
def wholeDemand : List (ℕ × Choice) := List.replicate 23 (goOn 0 8)

end Small

section Needs
variable {shadowSlots : ℕ} {op : Op} {needs : Multiset Token} {leaves : Answer op → Option (Multiset Token)}

lemma claimed_claimTokens (guards : List (ℕ × ℕ × Bool)) :
    (claimTokens guards).bind Token.claimed = guards := by
  rw [claimTokens, Multiset.bind_map]
  exact (Multiset.bind_singleton (guards : Multiset (ℕ × ℕ × Bool)) id).trans (Multiset.map_id _)

/-- An expert is read under its guard. -/
lemma claimed_of_reads (hrule : Rule shadowSlots op needs leaves) :
    (op.reads : Multiset ℕ) ≤ (needs.bind Token.claimed).map Prod.fst := by
  cases hrule with
  | readDemand i n b hslot =>
    rw [Multiset.add_bind, Multiset.singleton_bind, Multiset.map_add]
    exact le_self_add
  | readAhead i n missing b hslot =>
    rw [Multiset.add_bind, Multiset.add_bind, Multiset.singleton_bind, Multiset.map_add,
      Multiset.map_add, add_assoc]
    exact le_self_add
  | readExpertsBatch expected guards buffers hslots hlength =>
    rw [Multiset.add_bind, claimed_claimTokens, Multiset.map_add, Multiset.map_coe, List.map_map]
    exact le_self_add
  | _ => exact Multiset.zero_le _

/-- A demand reads what is missing, into primary buffers. -/
lemma missing_of_reads (hrule : Rule shadowSlots op needs leaves) (hdemand : op.isSpeculative = false) :
    (∀ id ∈ op.reads, ∃ n, (id,n,true) ∈ needs.bind Token.claimed) ∧
      ∀ b ∈ op.writes, b.slot = .primary := by
  cases hrule with
  | readDemand i n b hslot =>
    refine ⟨fun id hid => ⟨n,?_⟩,fun b' hb => ?_⟩
    · rw [List.mem_singleton.mp hid, Multiset.add_bind, Multiset.singleton_bind]
      exact Multiset.mem_add.mpr (.inl (Multiset.mem_singleton_self _))
    · rwa [List.mem_singleton.mp hb]
  | readAhead i n missing b hslot => cases hdemand
  | readExpertsBatch expected guards buffers hslots hlength =>
    refine ⟨fun id hid => ?_,hslots⟩
    obtain ⟨guard,hguard,rfl⟩ := List.mem_map.mp hid
    refine ⟨guard.2,?_⟩
    rw [Multiset.add_bind, claimed_claimTokens]
    exact Multiset.mem_add.mpr (.inl (List.mem_map.mpr ⟨guard,hguard,rfl⟩))
  | _ => exact ⟨nofun,nofun⟩

/-- Speculation has a permit, and a shadow buffer where there are any. -/
lemma permit_of_reads (hrule : Rule shadowSlots op needs leaves) (hspeculative : op.isSpeculative = true) :
    1 ≤ (needs.map Token.permits).sum ∧
      (0<shadowSlots → ∀ b ∈ op.writes, b.slot = .shadow) := by
  cases hrule with
  | readAhead i n missing b hslot =>
    refine ⟨?_,fun hpositive b' hb => ?_⟩
    · rw [Multiset.map_add, Multiset.sum_add]
      exact le_add_self
    · rw [List.mem_singleton.mp hb]
      exact hslot hpositive
  | _ => cases hspeculative

/-- A buffer is written by its owner. -/
lemma raw_of_writes (hrule : Rule shadowSlots op needs leaves) :
    (op.writes : Multiset Buffer) ≤ needs.bind Token.raw := by
  cases hrule with
  | readDemand i n b hslot => 
    rw [Multiset.add_bind, Multiset.singleton_bind, Multiset.singleton_bind]
    exact le_add_self
  | readAhead i n missing b hslot =>
    rw [Multiset.add_bind, Multiset.add_bind, Multiset.singleton_bind, Multiset.singleton_bind]
    exact le_add_self.trans le_self_add
  | readExpertsBatch expected guards buffers hslots hlength =>
    rw [Multiset.add_bind, bufferTokens, Multiset.bind_map]
    have hraw : ((buffers : Multiset Buffer).bind fun b => Token.raw (.buffer b)) = buffers :=
      (Multiset.bind_singleton _ id).trans (Multiset.map_id _)
    rw [hraw]
    exact le_add_self
  | _ => exact Multiset.zero_le _

end Needs

section Runs
variable {perLayerCaps : List ℕ} {expertsPerLayer primarySlots shadowSlots maxConcurrentPrefetches : ℕ}
  {costAwareEviction : Bool} {cache : MultiLayerExpertCache} {requests : List Request}
  {turns : List (ℕ × Choice)} {engine : Engine}

lemma next_eq_some {i : ℕ} {op : Op} (h : engine.next i = some op) :
    ∃ rest, engine.programs[i]? = some (.call op rest) := by
  unfold Engine.next at h
  split at h
  case h_1 op' rest hprogram =>
    cases h
    exact ⟨rest,hprogram⟩
  case h_2 => cases h

/-- The engine fits what its tasks own, after every run. -/
theorem governed (holding : Bool)
    (hcache : MultiLayerExpertCache.withCapacities perLayerCaps expertsPerLayer = some cache)
    (hholding : ∀ request ∈ requests, request.holds = true → holding = true)
    (hrun : (Engine.start (.new cache primarySlots shadowSlots maxConcurrentPrefetches costAwareEviction)
      requests).run EngineCore.exec turns = some engine) :
    engine.Governed (logic shadowSlots holding) Settled
      (Fits (.new cache primarySlots shadowSlots maxConcurrentPrefetches costAwareEviction)) := by
  refine Concurrent.Governed.run (Fits.sound (.new cache primarySlots shadowSlots
    maxConcurrentPrefetches costAwareEviction) holding)
    (fun core junk rest hjunk h => h.let_go shadowSlots holding hjunk) ?_ hrun
  refine Concurrent.Governed.start (fun p hp => ?_) (fits_new hcache)
  obtain ⟨request,hrequest,rfl⟩ := List.mem_map.mp hp
  cases request with
  | fetch id => exact owns_fetchTask id
  | speculate id => exact owns_speculationTask id
  | demand bufferSize ids =>
    rw [hholding _ hrequest rfl]
    exact owns_demandTask bufferSize ids

variable (hcache : MultiLayerExpertCache.withCapacities perLayerCaps expertsPerLayer = some cache)
  (hrun : (Engine.start (.new cache primarySlots shadowSlots maxConcurrentPrefetches costAwareEviction)
    requests).run EngineCore.exec turns = some engine)
include hcache hrun

/-- Two tasks never read the same expert at a time, nor into the same buffer. -/
theorem reads_exclusive {i j : ℕ} (hij : i ≠ j) {op other : Op} (hi : engine.next i = some op)
    (hj : engine.next j = some other) :
    op.reads.Disjoint other.reads ∧ op.writes.Disjoint other.writes := by
  have hgoverned := governed true hcache (fun _ _ _ => rfl) hrun
  obtain ⟨rest,hp⟩ := next_eq_some hi
  obtain ⟨rest',hq⟩ := next_eq_some hj
  obtain ⟨needs,leaves,needs',leaves',others,hrule,hrule',hfits⟩ := hgoverned.calls_pair hij hp hq
  constructor
  · have hnodup : ((engine.shared.inFlight : Multiset (ℕ × ℕ)).map Prod.fst).Nodup :=
      hfits.flight.distinct
    rw [← hfits.flight.entries, Multiset.map_map, Multiset.add_bind, Multiset.add_bind,
      Multiset.map_add, Multiset.map_add, Multiset.nodup_add, Multiset.nodup_add] at hnodup
    intro id hid hid'
    exact Multiset.disjoint_left.mp hnodup.1.2.2 (Multiset.mem_of_le (claimed_of_reads hrule) hid)
      (Multiset.mem_of_le (claimed_of_reads hrule') hid')
  · intro b hb hb'
    have hnodup := hfits.buffers.nodup
    rw [Multiset.nodup_add, Multiset.nodup_add] at hnodup
    obtain ⟨⟨-,hraw,-⟩,-,-⟩ := hnodup
    rw [Multiset.add_bind, Multiset.add_bind, Multiset.nodup_add, Multiset.nodup_add] at hraw
    exact Multiset.disjoint_left.mp hraw.1.2.2 (Multiset.mem_of_le (raw_of_writes hrule) hb)
      (Multiset.mem_of_le (raw_of_writes hrule') hb')

omit hcache hrun in
theorem reads_exclusive_two : ∃ engine : Engine,
    engine.next 0 = some (.readExpert true 0 ⟨.primary,0⟩) ∧
    engine.next 1 = some (.readExpert true 1 ⟨.primary,1⟩) ∧
    (Op.reads (.readExpert true 0 ⟨.primary,0⟩)).Disjoint (Op.reads (.readExpert true 1 ⟨.primary,1⟩)) ∧
    (Op.writes (.readExpert true 0 ⟨.primary,0⟩)).Disjoint
      (Op.writes (.readExpert true 1 ⟨.primary,1⟩)) := by
  obtain ⟨cache,engine,hcache,hrun,hview⟩ := @of_smallRun [.fetch 0,.fetch 1] twoReads _
    (fun engine => (engine.next 0,engine.next 1))
    (some (.readExpert true 0 ⟨.primary,0⟩),some (.readExpert true 1 ⟨.primary,1⟩)) rfl
  obtain ⟨hfirst,hsecond⟩ := Prod.mk.inj hview
  exact ⟨engine,hfirst,hsecond,reads_exclusive hcache hrun Nat.zero_ne_one hfirst hsecond⟩

/-- What is written is not free and behind no resident. -/
lemma writes_unheld {i : ℕ} {op : Op} (hi : engine.next i = some op) {b : Buffer} (hb : b ∈ op.writes) :
    b ∉ engine.shared.pool.free ∧ b ∉ engine.shared.pool.shadow ∧ engine.shared.holders b = 0 ∧
      b ∉ engine.shared.cachedBuffers := by
  obtain ⟨rest,hp⟩ := next_eq_some hi
  obtain ⟨needs,leaves,others,hrule,hfits⟩ := (governed true hcache (fun _ _ _ => rfl) hrun).calls hp
  have hwhole := hfits.buffers.nodup
  rw [Multiset.nodup_add, Multiset.nodup_add, Multiset.add_bind] at hwhole
  obtain ⟨⟨-,-,hfree⟩,-,harcs⟩ := hwhole
  have hmem : b ∈ needs.bind Token.raw+others.bind Token.raw :=
    Multiset.mem_add.mpr (.inl (Multiset.mem_of_le (raw_of_writes hrule) hb))
  have hnot : b ∉ (needs+others).bind Token.behind+engine.shared.cachedBuffers := fun harc =>
    Multiset.disjoint_left.mp harcs (Multiset.mem_add.mpr (.inr hmem)) (Multiset.mem_dedup.mpr harc)
  refine ⟨fun hin => ?_,fun hin => ?_,?_,fun hin => hnot (Multiset.mem_add.mpr (.inr hin))⟩
  · exact Multiset.disjoint_left.mp hfree (Multiset.mem_add.mpr (.inl hin)) hmem
  · exact Multiset.disjoint_left.mp hfree (Multiset.mem_add.mpr (.inr hin)) hmem
  · rw [hfits.buffers.counted, Multiset.count_eq_zero]
    exact hnot

/-- A read writes into distinct buffers that are not free and behind no resident; what is not
speculative reads only experts outside the cache. -/
theorem reads_apart {i : ℕ} {op : Op} (hi : engine.next i = some op) :
    op.reads.Nodup ∧ op.writes.Nodup ∧
      (∀ b ∈ op.writes, b ∉ engine.shared.pool.free ∧ b ∉ engine.shared.pool.shadow ∧
        engine.shared.holders b = 0 ∧ b ∉ engine.shared.cachedBuffers) ∧
      (op.isSpeculative = false → ∀ id ∈ op.reads, engine.shared.ram.cache.contains id = false) := by
  have hgoverned := governed true hcache (fun _ _ _ => rfl) hrun
  obtain ⟨rest,hp⟩ := next_eq_some hi
  obtain ⟨needs,leaves,others,hrule,hfits⟩ := hgoverned.calls hp
  have hwhole := hfits.buffers.nodup
  rw [Multiset.nodup_add, Multiset.nodup_add, Multiset.add_bind, Multiset.nodup_add,
    Multiset.nodup_add] at hwhole
  refine ⟨?_,Multiset.coe_nodup.mp (Multiset.nodup_of_le (raw_of_writes hrule) hwhole.1.2.1.1),
    fun b hb => writes_unheld hcache hrun hi hb,fun hdemand id hid => ?_⟩
  · have hnodup : ((engine.shared.inFlight : Multiset (ℕ × ℕ)).map Prod.fst).Nodup :=
      hfits.flight.distinct
    rw [← hfits.flight.entries, Multiset.map_map, Multiset.add_bind, Multiset.map_add,
      Multiset.nodup_add] at hnodup
    exact Multiset.coe_nodup.mp (Multiset.nodup_of_le (claimed_of_reads hrule) hnodup.1)
  · obtain ⟨n,hclaim⟩ := (missing_of_reads hrule hdemand).1 id hid
    refine hfits.flight.missing id n ?_
    rw [Multiset.add_bind]
    exact Multiset.mem_add.mpr (.inl hclaim)

omit hcache hrun in
theorem reads_apart_two : ∃ engine : Engine,
    engine.next 1 = some (.readExpert true 1 ⟨.primary,1⟩) ∧
    ⟨.primary,1⟩ ∉ engine.shared.pool.free ∧ engine.shared.ram.cache.contains 1 = false := by
  obtain ⟨cache,engine,hcache,hrun,hview⟩ := @of_smallRun [.fetch 0,.fetch 1] twoReads _
    (fun engine => engine.next 1) (some (.readExpert true 1 ⟨.primary,1⟩)) rfl
  obtain ⟨-,-,hbuffers,hmissing⟩ := reads_apart hcache hrun hview
  exact ⟨engine,hview,(hbuffers _ List.mem_cons_self).1,hmissing rfl 1 List.mem_cons_self⟩

/-- Every resident in the cache, and every one that a task computes with, has the bytes of its own
expert in a buffer that is not free and that nobody writes. -/
theorem residents_true {id : ℕ} {buffer : Buffer} (hlive : (id,buffer) ∈ engine.shared.cachedPairs ∨
      ∃ i residents, engine.next i = some (.compute residents) ∧ (id,buffer) ∈ residents) :
    engine.shared.content buffer = some id ∧ buffer ∉ engine.shared.pool.free ∧
      buffer ∉ engine.shared.pool.shadow ∧ ∀ j op, engine.next j = some op → buffer ∉ op.writes := by
  have hgoverned := governed true hcache (fun _ _ _ => rfl) hrun
  have hfits : ∃ held, Fits (.new cache primarySlots shadowSlots maxConcurrentPrefetches
      costAwareEviction) engine.shared held ∧ buffer ∈ held.bind Token.behind+engine.shared.cachedBuffers ∧
        (id,buffer) ∈ held.bind Token.known+engine.shared.cachedPairs := by
    obtain hcached | ⟨i,residents,hi,hmem⟩ := hlive
    · obtain ⟨holdings,-,hfits⟩ := hgoverned
      obtain ⟨entry,hentry,heq⟩ := Multiset.mem_map.mp hcached
      cases heq
      exact ⟨_,hfits,Multiset.mem_add.mpr (.inr (Multiset.mem_map.mpr ⟨entry,hentry,rfl⟩)),
        Multiset.mem_add.mpr (.inr (Multiset.mem_map.mpr ⟨entry,hentry,rfl⟩))⟩
    · obtain ⟨rest,hp⟩ := next_eq_some hi
      obtain ⟨needs,leaves,others,hrule,hfits⟩ := hgoverned.calls hp
      cases hrule with
      | compute =>
        have htoken : Token.resident id buffer ∈ residentTokens residents+others :=
          Multiset.mem_add.mpr (.inl (Multiset.mem_map.mpr ⟨_,hmem,rfl⟩))
        exact ⟨_,hfits,Multiset.mem_add.mpr (.inl (Multiset.mem_bind.mpr
            ⟨_,htoken,Multiset.mem_singleton_self _⟩)),
          Multiset.mem_add.mpr (.inl (Multiset.mem_bind.mpr ⟨_,htoken,Multiset.mem_singleton_self _⟩))⟩
  obtain ⟨held,hfits,hbehind,hknown⟩ := hfits
  have hwhole := hfits.buffers.nodup
  rw [Multiset.nodup_add] at hwhole
  have hnot := fun hin => Multiset.disjoint_left.mp hwhole.2.2 hin (Multiset.mem_dedup.mpr hbehind)
  refine ⟨hfits.contents _ hknown,fun hin => hnot ?_,fun hin => hnot ?_,fun j op hj hin => ?_⟩
  · exact Multiset.mem_add.mpr (.inl (Multiset.mem_add.mpr (.inl hin)))
  · exact Multiset.mem_add.mpr (.inl (Multiset.mem_add.mpr (.inr hin)))
  · have hzero := (writes_unheld hcache hrun hj hin).2.2.1
    rw [hfits.buffers.counted, Multiset.count_eq_zero] at hzero
    exact hzero hbehind

omit hcache hrun in
theorem residents_true_fetched : ∃ engine : Engine,
    engine.next 0 = some (.compute [(5,⟨.primary,0⟩)]) ∧
      engine.shared.content ⟨.primary,0⟩ = some 5 := by
  obtain ⟨cache,engine,hcache,hrun,hview⟩ := @of_smallRun [.fetch 5]
    [goOn 0 0,goOn 0 0,goOn 0 0,holdBack 0,goOn 0 0,goOn 0 0,goOn 0 0,goOn 0 0,goOn 0 0,goOn 0 0] _
    (fun engine => engine.next 0) (some (.compute [(5,⟨.primary,0⟩)])) rfl
  exact ⟨engine,hview,(residents_true hcache hrun (.inr ⟨0,_,hview,List.mem_cons_self⟩)).1⟩

omit hcache hrun in
/-- Every prefetch at its read has a permit of its own. -/
lemma speculating_le {programs : List (Task Report)} {holdings : List (Multiset Token)}
    (howns : List.Forall₂ (Owns (logic shadowSlots true) Settled) programs holdings)
    (core : EngineCore) :
    Engine.speculating ⟨core,programs⟩ ≤ (holdings.sum.map Token.permits).sum := by
  induction howns with
  | nil => exact le_rfl
  | @cons program held programs holdings hhead htail ih =>
    unfold Engine.speculating at ih ⊢
    dsimp only at ih ⊢
    rw [List.sum_cons, Multiset.map_add, Multiset.sum_add, List.countP_cons, add_comm]
    refine Nat.add_le_add ?_ ih
    cases program with
    | done report => exact Nat.zero_le _
    | call op rest =>
      dsimp only
      split_ifs with hspeculative
      · obtain ⟨needs,leaves,frame,junk,hrule,rfl,-⟩ := hhead
        rw [Multiset.map_add, Multiset.map_add, Multiset.sum_add, Multiset.sum_add, add_assoc]
        exact (permit_of_reads hrule hspeculative).1.trans le_self_add
      · exact Nat.zero_le _

/-- Speculation and demands keep apart: where there are shadow buffers a prefetch reads into one of
these, a demand always into a primary one, and no more prefetches read than there are permits. -/
theorem speculation_apart :
    (∀ i op, engine.next i = some op → op.isSpeculative = true → 0<shadowSlots →
      ∀ b ∈ op.writes, b.slot = .shadow) ∧
    (∀ i op, engine.next i = some op → op.isSpeculative = false → ∀ b ∈ op.writes, b.slot = .primary) ∧
    engine.speculating+engine.shared.permits ≤
      EngineCore.prefetchPermits maxConcurrentPrefetches cache.capacity primarySlots shadowSlots := by
  have hgoverned := governed true hcache (fun _ _ _ => rfl) hrun
  refine ⟨fun i op hi hspeculative => ?_,fun i op hi hdemand => ?_,?_⟩
  · obtain ⟨rest,hp⟩ := next_eq_some hi
    obtain ⟨needs,leaves,others,hrule,-⟩ := hgoverned.calls hp
    exact (permit_of_reads hrule hspeculative).2
  · obtain ⟨rest,hp⟩ := next_eq_some hi
    obtain ⟨needs,leaves,others,hrule,-⟩ := hgoverned.calls hp
    exact (missing_of_reads hrule hdemand).2
  · obtain ⟨holdings,howns,hfits⟩ := hgoverned
    have hle := speculating_le howns engine.shared
    have hpermits := hfits.permits
    change _ = EngineCore.prefetchPermits maxConcurrentPrefetches cache.capacity primarySlots shadowSlots at hpermits
    rw [← hpermits, add_comm]
    exact Nat.add_le_add_left hle _

omit hcache hrun in
theorem speculation_apart_shadow : ∃ engine : Engine,
    engine.next 0 = some (.readExpert false 3 ⟨.shadow,0⟩) ∧ engine.speculating+engine.shared.permits ≤ 1 := by
  obtain ⟨cache,engine,hcache,hrun,hview⟩ := @of_smallRun [.speculate 3]
    [goOn 0 0,goOn 0 0,goOn 0 0,goOn 0 0,goOn 0 0,goOn 0 0,goOn 0 0,goOn 0 0] _
    (fun engine => engine.next 0) (some (.readExpert false 3 ⟨.shadow,0⟩)) rfl
  exact ⟨engine,hview,(speculation_apart hcache hrun).2.2⟩

/-- Every demand that ends tells the truth. -/
theorem reports_honest {i : ℕ} {report : Report} (h : engine.report i = some report) :
    report.Honest := by
  unfold Engine.report at h
  split at h
  case h_1 report' hprogram =>
    cases h
    obtain ⟨held,rest,hsettled,-⟩ := (governed true hcache (fun _ _ _ => rfl) hrun).at hprogram
    exact hsettled.2
  case h_2 => cases h

omit hcache hrun in
theorem reports_honest_demand : ∃ engine : Engine,
    engine.report 0 = some (.demanded [0,1] [0,1] (some (.ok ()))) ∧
      Report.Honest (.demanded [0,1] [0,1] (some (.ok ()))) := by
  obtain ⟨cache,engine,hcache,hrun,hview⟩ := @of_smallRun [.demand 4 [0,1]] wholeDemand _
    (fun engine => engine.report 0) (some (.demanded [0,1] [0,1] (some (.ok ())))) rfl
  exact ⟨engine,hview,reports_honest hcache hrun hview⟩

omit hcache hrun in
lemma watch_of_done {holding : Bool} {programs : List (Task Report)} {holdings : List (Multiset Token)}
    (howns : List.Forall₂ (Owns (logic shadowSlots holding) Settled) programs holdings)
    (hdone : ∀ program ∈ programs, ∃ report, program = .done report) :
    ∀ t ∈ holdings.sum, (logic shadowSlots holding).disposable t := by
  induction howns with
  | nil => exact fun t ht => absurd ht (Multiset.notMem_zero t)
  | @cons program held programs holdings hhead htail ih =>
    obtain ⟨⟨report,rfl⟩,hrest⟩ := List.forall_mem_cons.mp hdone
    intro t ht
    rw [List.sum_cons] at ht
    obtain ht | ht := Multiset.mem_add.mp ht
    · obtain ⟨n,seen,rfl⟩ := hhead.1 t ht
      trivial
    · exact ih hrest t ht

/-- When all tasks have ended nothing is kept: no guard, no reservation and no permit is left, and
every buffer is free or behind one cached resident. -/
theorem nothing_kept (hnext : ∀ i, engine.next i = none) :
    engine.shared.inFlight = [] ∧ engine.shared.ram.live = [] ∧ engine.shared.ram.falling = [] ∧
      (∀ layer<cache.numLayers, (engine.shared.ram.cache.caches layer).reservedSlots = 0) ∧
      engine.shared.permits =
        EngineCore.prefetchPermits maxConcurrentPrefetches cache.capacity primarySlots shadowSlots ∧
      (engine.shared.pool.free : Multiset Buffer)+engine.shared.pool.shadow+
        engine.shared.cachedBuffers = allBuffers primarySlots shadowSlots ∧
      ∀ b, engine.shared.holders b = if b ∈ engine.shared.cachedBuffers then 1 else 0 := by
  have hdone : ∀ program ∈ engine.programs, ∃ report, program = .done report := by
    intro program hmem
    obtain ⟨i,hi,hprogram⟩ := List.getElem_of_mem hmem
    cases program with
    | done report => exact ⟨report,rfl⟩
    | call op rest =>
      have hnone := hnext i
      unfold Engine.next at hnone
      rw [List.getElem?_eq_some_iff.mpr ⟨hi,hprogram⟩] at hnone
      cases hnone
  obtain ⟨holdings,howns,hfits⟩ := governed true hcache (fun _ _ _ => rfl) hrun
  rw [← add_zero holdings.sum] at hfits
  have hnone := hfits.let_go shadowSlots true (watch_of_done howns hdone)
  have hlive : engine.shared.ram.live = [] := by
    have howned := hnone.reservations.owned
    rw [Multiset.zero_bind, Multiset.map_zero] at howned
    have hlength := hnone.reservations.length
    rw [Multiset.coe_eq_zero _ |>.mp howned.symm] at hlength
    exact List.length_eq_zero_iff.mp hlength.symm
  have hfalling : engine.shared.ram.falling = [] := by
    have hzero := hnone.reservations.falling
    rw [Multiset.zero_bind] at hzero
    exact (Multiset.coe_eq_zero _).mp hzero.symm
  -- distinct experts have distinct bytes, and so distinct buffers
  have hdistinct : engine.shared.cachedBuffers.Nodup := by
    have hids := nodup_residents hnone.addressed
    rw [EngineCore.cachedBuffers]
    refine Multiset.Nodup.map_on (fun entry hentry other hother heq => ?_) hids.of_map
    have hcontent := hnone.contents (entry.1,engine.shared.object entry.1)
      (Multiset.mem_add.mpr (.inr (Multiset.mem_map.mpr ⟨entry,hentry,rfl⟩)))
    have hcontent' := hnone.contents (other.1,engine.shared.object other.1)
      (Multiset.mem_add.mpr (.inr (Multiset.mem_map.mpr ⟨other,hother,rfl⟩)))
    dsimp only at hcontent hcontent'
    rw [heq, hcontent'] at hcontent
    exact Multiset.inj_on_of_nodup_map hids entry hentry other hother (Option.some.inj hcontent).symm
  refine ⟨?_,hlive,hfalling,fun layer hlayer => ?_,?_,?_,fun b => ?_⟩
  · have hentries := hnone.flight.entries
    rw [Multiset.zero_bind, Multiset.map_zero] at hentries
    exact (Multiset.coe_eq_zero _).mp hentries.symm
  · rw [hnone.accounted.reserved layer hlayer, System.remaining, hlive, hfalling]
    rfl
  · have hpermits := hnone.permits
    rw [Multiset.map_zero, Multiset.sum_zero, add_zero] at hpermits
    exact hpermits
  · have hwhole := hnone.buffers.whole
    rw [Multiset.zero_bind, Multiset.zero_bind, add_zero, zero_add, hdistinct.dedup, hnone.slots.1,
      hnone.slots.2] at hwhole
    exact hwhole
  · rw [hnone.buffers.counted, Multiset.zero_bind, zero_add]
    split_ifs with hmem
    · exact Multiset.count_eq_one_of_mem hdistinct hmem
    · exact Multiset.count_eq_zero_of_notMem hmem

omit hcache hrun in
theorem nothing_kept_demand : ∃ engine : Engine, engine.report 0 = some (.demanded [0,1] [0,1] (some (.ok ()))) ∧
    engine.shared.inFlight = [] ∧ engine.shared.permits = 1 := by
  obtain ⟨cache,engine,hcache,hrun,hview⟩ := @of_smallRun [.demand 4 [0,1]] wholeDemand _
    (fun engine => (engine.report 0,engine.next 0,engine.programs.length))
    (some (.demanded [0,1] [0,1] (some (.ok ()))),none,1) rfl
  obtain ⟨hreport,hview⟩ := Prod.mk.inj hview
  obtain ⟨hfirst,hlength⟩ := Prod.mk.inj hview
  have hnext : ∀ i, Engine.next engine i = none := by
    intro i
    cases i with
    | zero => exact hfirst
    | succ i =>
      unfold Engine.next
      rw [List.getElem?_eq_none (by omega)]
  obtain ⟨hinFlight,-,-,-,hpermits,-⟩ := nothing_kept hcache hrun hnext
  exact ⟨engine,hreport,hinFlight,hpermits⟩

end Runs

end MicroExpertRouter.Fetch
