import MicroExpertRouter.PagedKv.FreeLists

/-! One pool shared by the block managers of many requests. Whatever the others do, a manager
reads back the pairs appended to it since it was last released. A panic ends a run. -/
namespace MicroExpertRouter.PagedKv

/-- A manager and the pairs appended to it since its last release. -/
structure Tenant (φ : Type) where
  manager : BlockManager
  appended : List (List φ × List φ)

/-- The pool and its live managers, each under a handle of its own. -/
structure System (φ : Type) where
  pool : BlockPool φ
  tenants : List (ℕ × Tenant φ)
  nextTenant : ℕ

inductive Operation (φ : Type)
  | newManager
  | append (tenant : ℕ) (k v : List φ)
  | releaseAll (tenant : ℕ)
  | dropManager (tenant : ℕ)
  | shrinkOverflowToFit

namespace System
variable {φ : Type} [Zero φ]

def new (pool : BlockPool φ) : System φ := ⟨pool,[],0⟩

/-- An operation on a handle without a manager does nothing. -/
def step (self : System φ) (operation : Operation φ) : Except Panic (System φ) :=
  match operation with
  | .newManager => .ok { self with
      tenants := (self.nextTenant,⟨.new,[]⟩)::self.tenants
      nextTenant := self.nextTenant+1 }
  | .append tenant k v =>
    match Lru.peek self.tenants tenant with
    | none => .ok self
    | some ⟨manager,appended⟩ => do
      let (pool,manager,answer) ← manager.append self.pool k v
      let appended := match answer with
        | .ok () => appended++[(k,v)]
        | .error _ => appended
      return { self with pool, tenants := Lru.put self.tenants tenant ⟨manager,appended⟩ }
  | .releaseAll tenant =>
    match Lru.peek self.tenants tenant with
    | none => .ok self
    | some ⟨manager,_⟩ => do
      let (pool,manager) ← manager.releaseAll self.pool
      return { self with pool, tenants := Lru.put self.tenants tenant ⟨manager,[]⟩ }
  | .dropManager tenant =>
    match Lru.peek self.tenants tenant with
    | none => .ok self
    | some ⟨manager,_⟩ => do
      let (pool,_) ← manager.releaseAll self.pool
      return { self with pool, tenants := Lru.pop self.tenants tenant }
  | .shrinkOverflowToFit => .ok { self with pool := self.pool.shrinkOverflowToFit.1 }

/-- A run, as long as nothing panics. -/
def run (self : System φ) (operations : List (Operation φ)) : Except Panic (System φ) :=
  operations.foldlM step self

end System

/-- The block tables of the managers, one after another. -/
def owned {φ : Type} (tenants : List (ℕ × Tenant φ)) : List BlockId :=
  tenants.flatMap fun tenant => tenant.2.manager.blockTable

/-- The manager has the blocks for its tokens, and they hold what was appended. -/
structure Serves {φ : Type} (pool : BlockPool φ) (tenant : Tenant φ) : Prop where
  length : tenant.appended.length = tenant.manager.seqLen
  table : tenant.manager.blockTable.length =
    (tenant.manager.seqLen+poolBlockTokens-1)/poolBlockTokens
  holds : ∀ i pair, tenant.appended[i]? = some pair →
    ∃ id, tenant.manager.blockTable[i/poolBlockTokens]? = some id ∧
      pool.cell id (i % poolBlockTokens) = pair

section Managers
variable {φ : Type} {pool next : BlockPool φ} {tenant : Tenant φ} {others : List BlockId}
  {kvDim capacity : ℕ} {maxOverflowCapacity : Option ℕ}

lemma Sound.perm {ids ids' : List BlockId}
    (h : Sound kvDim capacity maxOverflowCapacity pool ids) (hperm : ids.Perm ids') :
    Sound kvDim capacity maxOverflowCapacity pool ids' :=
  { h with partition := h.partition.perm hperm }

lemma serves_empty (pool : BlockPool φ) : Serves pool ⟨⟨[],0⟩,[]⟩ := by
  refine ⟨rfl,?_,fun i pair hi => ?_⟩
  · change 0 = (0+poolBlockTokens-1)/poolBlockTokens
    decide
  · cases hi

/-- A manager whose blocks are kept still serves. -/
lemma Serves.kept (h : Serves pool tenant)
    (hkept : Kept pool next tenant.manager.blockTable) : Serves next tenant := by
  refine { h with holds := fun i pair hi => ?_ }
  obtain ⟨id,hid,hcell⟩ := h.holds i pair hi
  refine ⟨id,hid,?_⟩
  rw [hkept id (List.mem_of_getElem? hid) _ (Nat.mod_lt _ (by decide))]
  exact hcell

/-- A manager reads back what was appended to it. -/
lemma Serves.reads (h : Serves pool tenant) (hsized : Sized pool)
    (hvalid : ∀ id ∈ tenant.manager.blockTable, pool.Valid id) {i : ℕ} {pair : List φ × List φ}
    (hi : tenant.appended[i]? = some pair) :
    tenant.manager.key pool i = .ok pair.1 ∧ tenant.manager.value pool i = .ok pair.2 := by
  obtain ⟨id,hid,hcell⟩ := h.holds i pair hi
  have hlt : i<tenant.manager.seqLen := by
    rw [← h.length]
    exact (List.getElem?_eq_some_iff.mp hi).1
  have haddr : tenant.manager.physicalAddr i = .ok (id,i % poolBlockTokens) := by
    rw [BlockManager.physicalAddr, if_neg (Nat.not_le.mpr hlt), hid]
  have hj : i % poolBlockTokens<poolBlockTokens := Nat.mod_lt _ (by decide)
  have hok := hvalid id (List.mem_of_getElem? hid)
  rw [BlockManager.key, BlockManager.value, haddr, ← hcell]
  exact ⟨readKey_eq hsized hok hj,readValue_eq hsized hok hj⟩

/-- A written token keeps the pool sound. -/
lemma Written.sound {id : BlockId} {inBlock : ℕ} {k v : List φ} {ids : List BlockId}
    (h : Written pool id inBlock k v next)
    (hsound : Sound kvDim capacity maxOverflowCapacity pool ids) :
    Sound kvDim capacity maxOverflowCapacity next ids := by
  have hframe := h.frame
  generalize next.keys = keys at hframe
  generalize next.values = values at hframe
  generalize next.overflowKeys = overflowKeys at hframe
  generalize next.overflowValues = overflowValues at hframe
  have hsized := h.sized
  subst hframe
  exact { hsound with sized := hsized, partition := { hsound.partition with } }

end Managers

/-- Why an append is refused. -/
structure Exhausted {φ : Type} (maxOverflowCapacity : Option ℕ) (pool : BlockPool φ) : Prop where
  free : pool.free = []
  overflowFree : pool.overflowFree = []
  capped : maxOverflowCapacity = some pool.overflowCapacity

/-- A block for the next token is there. -/
structure Extended {φ : Type} (kvDim capacity : ℕ) (maxOverflowCapacity : Option ℕ)
    (pool : BlockPool φ) (manager : BlockManager) (others : List BlockId) (next : BlockPool φ)
    (manager' : BlockManager) (id : BlockId) : Prop where
  sound : Sound kvDim capacity maxOverflowCapacity next (manager'.blockTable++others)
  kept : Kept pool next (manager.blockTable++others)
  seqLen : manager'.seqLen = manager.seqLen
  earlier : manager.blockTable <+: manager'.blockTable
  trailing : manager'.blockTable[manager.seqLen/poolBlockTokens]? = some id
  length : manager'.blockTable.length = manager.seqLen/poolBlockTokens+1

section Appends
variable {φ : Type} {pool : BlockPool φ} {manager : BlockManager} {others : List BlockId}
  {kvDim capacity : ℕ} {maxOverflowCapacity : Option ℕ}

/-- The new pair comes after those the manager holds. -/
lemma Serves.extend {tenant : Tenant φ} {middle next : BlockPool φ} {manager' : BlockManager}
    {id : BlockId} {k v : List φ} (hserves : Serves pool tenant)
    (hextended : Extended kvDim capacity maxOverflowCapacity pool tenant.manager others middle
      manager' id)
    (hwritten : Written middle id (tenant.manager.seqLen % poolBlockTokens) k v next) :
    Serves next ⟨{ manager' with seqLen := tenant.manager.seqLen+1 },tenant.appended++[(k,v)]⟩ := by
  have hpartition := hextended.sound.partition
  have hnodup := (hpartition.nodup hextended.sound.sized).of_append_left
  refine ⟨?_,?_,fun i pair hi => ?_⟩
  · simp only [List.length_append, List.length_singleton, hserves.length]
  · simp only [hextended.length, poolBlockTokens]
    omega
  · rcases Nat.lt_or_ge i tenant.appended.length with hlt | hge
    · rw [List.getElem?_append_left hlt] at hi
      obtain ⟨other,hother,hcell⟩ := hserves.holds i pair hi
      have hother' : manager'.blockTable[i/poolBlockTokens]? = some other := by
        obtain ⟨more,hmore⟩ := hextended.earlier
        rw [← hmore, List.getElem?_append_left (List.getElem?_eq_some_iff.mp hother).1]
        exact hother
      refine ⟨other,hother',?_⟩
      have hmod : i % poolBlockTokens<poolBlockTokens := Nat.mod_lt _ (by decide)
      have hmem := List.mem_append_left others (List.mem_of_getElem? hother)
      have hvalid := hpartition.valid other
        (List.mem_append_left others (List.mem_of_getElem? hother'))
      -- The same block at another place of the table would be owned twice.
      have hne : (other,i % poolBlockTokens) ≠ (id,tenant.manager.seqLen % poolBlockTokens) := by
        intro heq
        obtain ⟨hid,hin⟩ := Prod.ext_iff.mp heq
        dsimp only at hid hin
        subst hid
        have hplace := (List.getElem?_inj (List.getElem?_eq_some_iff.mp hother').1 hnodup).mp
          (hother'.trans hextended.trailing.symm)
        rw [hserves.length] at hlt
        unfold poolBlockTokens at hplace hin
        omega
      rw [hwritten.others other _ hvalid hmod hne, hextended.kept other hmem _ hmod]
      exact hcell
    · have heq : i = tenant.manager.seqLen := by
        have hbound := (List.getElem?_eq_some_iff.mp hi).1
        rw [List.length_append, List.length_singleton] at hbound
        rw [← hserves.length]
        omega
      rw [heq, ← hserves.length, List.getElem?_concat_length] at hi
      subst heq
      exact ⟨id,hextended.trailing,hwritten.own.trans (Option.some.inj hi)⟩

variable [Zero φ]

/-- What the allocation of an append can do. -/
lemma trailing_cases
    (hsound : Sound kvDim capacity maxOverflowCapacity pool (manager.blockTable++others))
    (htable : manager.blockTable.length = (manager.seqLen+poolBlockTokens-1)/poolBlockTokens) :
    (∃ panic, manager.trailing pool = .error panic ∧ panic.ofGrowth) ∨
      (manager.trailing pool = .ok (pool,.error .exhausted) ∧
        Exhausted maxOverflowCapacity pool) ∨
      ∃ next manager' id, manager.trailing pool = .ok (next,.ok manager') ∧
        Extended kvDim capacity maxOverflowCapacity pool manager others next manager' id := by
  unfold BlockManager.trailing
  unfold poolBlockTokens at htable ⊢
  by_cases hfull : manager.seqLen % 16 = 0
  · have hlength : manager.blockTable.length = manager.seqLen/16 := by omega
    rw [if_pos hfull, if_neg (not_not.mpr hlength)]
    obtain ⟨panic,hpanic,hgrowth⟩ | ⟨hnone,hfree,hoverflow,max,hmax,hle⟩ |
      ⟨next,id,hsome,hallocated⟩ := allocate_cases pool
    · rw [hpanic]
      exact .inl ⟨panic,rfl,hgrowth⟩
    · rw [hnone]
      have hmax' : maxOverflowCapacity = some max := hsound.max_eq.symm.trans hmax
      have heq := le_antisymm (hsound.capped max hmax') hle
      exact .inr (.inl ⟨rfl,hfree,hoverflow,by rw [hmax', heq]⟩)
    · rw [hsome]
      refine .inr (.inr ⟨next,{ manager with blockTable := manager.blockTable++[id] },id,rfl,?_⟩)
      refine ⟨?_,?_,rfl,List.prefix_append _ _,?_,?_⟩
      · refine (hallocated.sound hsound).perm ?_
        rw [List.append_assoc]
        exact List.perm_middle.symm
      · intro other hother inBlock hj
        exact hallocated.cell_eq hsound.sized (hsound.partition.valid other hother) hj
      · unfold poolBlockTokens
        rw [← hlength, List.getElem?_concat_length]
      · unfold poolBlockTokens
        rw [List.length_append, hlength]
        rfl
  · have hlength : manager.blockTable.length = manager.seqLen/16+1 := by omega
    rw [if_neg hfull]
    have hlt : manager.seqLen/16 < manager.blockTable.length := by omega
    exact .inr (.inr ⟨pool,manager,_,rfl,hsound,fun _ _ _ _ => rfl,rfl,List.prefix_refl _,
      List.getElem?_eq_getElem hlt,hlength⟩)

/-- What an append can do. -/
lemma append_cases {tenant : Tenant φ} (k v : List φ)
    (hsound : Sound kvDim capacity maxOverflowCapacity pool
      (tenant.manager.blockTable++others)) (hserves : Serves pool tenant) :
    (∃ panic, tenant.manager.append pool k v = .error panic ∧
        (panic.ofGrowth ∨ panic = .vectorLength ∧ ¬ (k.length = kvDim ∧ v.length = kvDim))) ∨
      (tenant.manager.append pool k v = .ok (pool,tenant.manager,.error .exhausted) ∧
        Exhausted maxOverflowCapacity pool) ∨
      ∃ next manager', tenant.manager.append pool k v = .ok (next,manager',.ok ()) ∧
        Sound kvDim capacity maxOverflowCapacity next (manager'.blockTable++others) ∧
        Kept pool next others ∧ Serves next ⟨manager',tenant.appended++[(k,v)]⟩ := by
  obtain ⟨panic,hpanic,hgrowth⟩ | ⟨hnone,hexhausted⟩ | ⟨middle,manager',id,hsome,hextended⟩ :=
    trailing_cases hsound hserves.table
  · rw [BlockManager.append, hpanic]
    exact .inl ⟨panic,rfl,.inl hgrowth⟩
  · rw [BlockManager.append, hnone]
    exact .inr (.inl ⟨rfl,hexhausted⟩)
  · have happend : tenant.manager.append pool k v =
        (middle.writeToken id (tenant.manager.seqLen % poolBlockTokens) k v).bind fun next =>
          .ok (next,{ manager' with seqLen := tenant.manager.seqLen+1 },.ok ()) := by
      rw [BlockManager.append, hsome]
      simp only [bind, Except.bind, hextended.trailing]
      rfl
    rw [happend]
    have hvalid := hextended.sound.partition.valid id
      (List.mem_append_left others (List.mem_of_getElem? hextended.trailing))
    have hkv := hextended.sound.kvDim_eq
    by_cases hlengths : k.length = kvDim ∧ v.length = kvDim
    · obtain ⟨next,hwrite,hwritten⟩ := writeToken_eq hextended.sound.sized hvalid
        (Nat.mod_lt _ (by decide)) (hlengths.1.trans hkv.symm) (hlengths.2.trans hkv.symm)
      rw [hwrite]
      refine .inr (.inr ⟨next,_,rfl,hwritten.sound hextended.sound,?_,
        hserves.extend hextended hwritten⟩)
      intro other hother inBlock hj
      have hmem := List.mem_append_right manager'.blockTable hother
      have hnodup := hextended.sound.partition.nodup hextended.sound.sized
      have hne : other ≠ id := fun heq => (List.disjoint_of_nodup_append hnodup)
        (List.mem_of_getElem? hextended.trailing) (heq ▸ hother)
      rw [hwritten.others other inBlock (hextended.sound.partition.valid other hmem) hj
        (fun heq => hne (congrArg Prod.fst heq))]
      exact hextended.kept other (List.mem_append_right _ hother) inBlock hj
    · have hwrite : middle.writeToken id (tenant.manager.seqLen % poolBlockTokens) k v =
          .error .vectorLength := by
        unfold BlockPool.writeToken
        rw [hkv]
        by_cases hk : k.length = kvDim
        · rw [if_neg (not_not.mpr hk), if_pos fun hv => hlengths ⟨hk,hv⟩]
        · rw [if_pos hk]
      rw [hwrite]
      exact .inl ⟨.vectorLength,rfl,.inr ⟨rfl,hlengths⟩⟩

end Appends

/-- What holds between operations. -/
structure Consistent {φ : Type} (kvDim capacity : ℕ) (maxOverflowCapacity : Option ℕ)
    (system : System φ) : Prop where
  distinct : Lru.Distinct system.tenants
  fresh : ∀ tenant ∈ system.tenants, tenant.1<system.nextTenant
  sound : Sound kvDim capacity maxOverflowCapacity system.pool (owned system.tenants)
  serves : ∀ tenant ∈ system.tenants, Serves system.pool tenant.2

section Steps
variable {φ : Type} {system next : System φ} {operation : Operation φ} {handle : ℕ}
  {tenant : Tenant φ} {kvDim capacity : ℕ} {maxOverflowCapacity : Option ℕ}

/-- The tables of one manager and of the others. -/
lemma owned_perm {tenants : List (ℕ × Tenant φ)} (h : Lru.Distinct tenants)
    (hmem : (handle,tenant) ∈ tenants) :
    (owned tenants).Perm (tenant.manager.blockTable++owned (Lru.pop tenants handle)) :=
  (h.perm_pop hmem).flatMap_right _

/-- One manager is replaced, the others keep their blocks. -/
lemma Consistent.put (h : Consistent kvDim capacity maxOverflowCapacity system)
    (hmem : (handle,tenant) ∈ system.tenants) {pool : BlockPool φ} {tenant' : Tenant φ}
    (hsound : Sound kvDim capacity maxOverflowCapacity pool
      (tenant'.manager.blockTable++owned (Lru.pop system.tenants handle)))
    (hkept : Kept system.pool pool (owned (Lru.pop system.tenants handle)))
    (hserves : Serves pool tenant') :
    Consistent kvDim capacity maxOverflowCapacity
      { system with pool, tenants := Lru.put system.tenants handle tenant' } where
  distinct := h.distinct.put handle tenant'
  fresh := by
    refine List.forall_mem_cons.mpr ⟨h.fresh (handle,tenant) hmem,fun other hother => ?_⟩
    exact h.fresh other (Lru.mem_pop.mp hother).1
  sound := hsound
  serves := by
    refine List.forall_mem_cons.mpr ⟨hserves,fun other hother => ?_⟩
    refine (h.serves other (Lru.mem_pop.mp hother).1).kept fun id hid => hkept id ?_
    exact List.mem_flatMap.mpr ⟨other,hother,hid⟩

/-- One manager leaves, the others keep their blocks. -/
lemma Consistent.pop (h : Consistent kvDim capacity maxOverflowCapacity system)
    {pool : BlockPool φ} (hsound : Sound kvDim capacity maxOverflowCapacity pool
      (owned (Lru.pop system.tenants handle)))
    (hkept : Kept system.pool pool (owned (Lru.pop system.tenants handle))) :
    Consistent kvDim capacity maxOverflowCapacity
      { system with pool, tenants := Lru.pop system.tenants handle } where
  distinct := h.distinct.pop handle
  fresh := fun other hother => h.fresh other (Lru.mem_pop.mp hother).1
  sound := hsound
  serves := by
    intro other hother
    refine (h.serves other (Lru.mem_pop.mp hother).1).kept fun id hid => hkept id ?_
    exact List.mem_flatMap.mpr ⟨other,hother,hid⟩

/-- Releasing the blocks of a manager leaves those of the others. -/
lemma Consistent.releaseAll (h : Consistent kvDim capacity maxOverflowCapacity system)
    (hmem : (handle,tenant) ∈ system.tenants) :
    ∃ pool, tenant.manager.releaseAll system.pool = .ok (pool,⟨[],0⟩) ∧
      Sound kvDim capacity maxOverflowCapacity pool (owned (Lru.pop system.tenants handle)) ∧
      ∀ ids, Kept system.pool pool ids := by
  obtain ⟨pool,hrelease,hframe,hsound⟩ := releaseBlocks_sound tenant.manager.blockTable system.pool
    (h.sound.perm (owned_perm h.distinct hmem))
  refine ⟨pool,?_,hsound,fun ids id _ inBlock _ => ?_⟩
  · rw [BlockManager.releaseAll, hrelease]
    rfl
  · rw [hframe]
    rfl

variable [Zero φ]

/-- A step that does not panic keeps everything consistent. -/
lemma Consistent.step (h : Consistent kvDim capacity maxOverflowCapacity system)
    (hstep : system.step operation = .ok next) :
    Consistent kvDim capacity maxOverflowCapacity next := by
  cases operation with
  | newManager =>
    cases hstep
    refine ⟨?_,?_,h.sound,?_⟩
    · refine List.nodup_cons.mpr ⟨fun hmem => ?_,h.distinct⟩
      obtain ⟨other,hother,heq⟩ := List.mem_map.mp hmem
      exact absurd heq (h.fresh other hother).ne
    · exact List.forall_mem_cons.mpr ⟨Nat.lt_succ_self _,
        fun other hother => Nat.lt_succ_of_lt (h.fresh other hother)⟩
    · exact List.forall_mem_cons.mpr ⟨serves_empty _,h.serves⟩
  | append handle k v =>
    unfold System.step at hstep
    cases hpeek : Lru.peek system.tenants handle with
    | none =>
      simp only [hpeek] at hstep
      cases hstep
      exact h
    | some tenant =>
      simp only [hpeek] at hstep
      have hmem := Lru.peek_mem hpeek
      have hsound := h.sound.perm (owned_perm h.distinct hmem)
      obtain ⟨panic,hpanic,-⟩ | ⟨hnone,-⟩ | ⟨pool,manager,hsome,hnext,hkept,hserves⟩ :=
        append_cases k v hsound (h.serves _ hmem)
      · rw [hpanic] at hstep
        cases hstep
      · rw [hnone] at hstep
        cases hstep
        exact h.put hmem hsound (fun _ _ _ _ => rfl) (h.serves _ hmem)
      · rw [hsome] at hstep
        cases hstep
        exact h.put hmem hnext hkept hserves
  | releaseAll handle =>
    unfold System.step at hstep
    cases hpeek : Lru.peek system.tenants handle with
    | none =>
      simp only [hpeek] at hstep
      cases hstep
      exact h
    | some tenant =>
      simp only [hpeek] at hstep
      obtain ⟨pool,hrelease,hsound,hkept⟩ := h.releaseAll (Lru.peek_mem hpeek)
      rw [hrelease] at hstep
      cases hstep
      exact h.put (Lru.peek_mem hpeek) hsound (hkept _) (serves_empty _)
  | dropManager handle =>
    unfold System.step at hstep
    cases hpeek : Lru.peek system.tenants handle with
    | none =>
      simp only [hpeek] at hstep
      cases hstep
      exact h
    | some tenant =>
      simp only [hpeek] at hstep
      obtain ⟨pool,hrelease,hsound,hkept⟩ := h.releaseAll (Lru.peek_mem hpeek)
      rw [hrelease] at hstep
      cases hstep
      exact h.pop hsound (hkept _)
  | shrinkOverflowToFit =>
    cases hstep
    obtain ⟨hsound,hkept⟩ := shrinkOverflowToFit_sound h.sound
    refine { h with sound := hsound, serves := fun other hother => ?_ }
    refine (h.serves other hother).kept fun id hid => hkept id ?_
    exact List.mem_flatMap.mpr ⟨other,hother,hid⟩

lemma Consistent.run (operations : List (Operation φ)) :
    ∀ system : System φ, Consistent kvDim capacity maxOverflowCapacity system →
      system.run operations = .ok next → Consistent kvDim capacity maxOverflowCapacity next := by
  induction operations with
  | nil =>
    intro system h hrun
    cases hrun
    exact h
  | cons operation operations ih =>
    intro system h hrun
    obtain ⟨middle,hstep,hrest⟩ := bind_eq_ok.mp hrun
    exact ih middle (h.step hstep) hrest

end Steps

/-- The isolation of the requests that share a pool. -/
structure Isolated {φ : Type} [Zero φ] (kvDim capacity : ℕ) (maxOverflowCapacity : Option ℕ)
    (system : System φ) : Prop where
  primary : ∀ index<capacity, system.pool.free.count index+
    (system.tenants.map fun tenant => tenant.2.manager.blockTable.count ⟨index⟩).sum = 1
  overflow : ∀ index<system.pool.overflowCapacity, system.pool.overflowFree.count index+
    (system.tenants.map fun tenant => tenant.2.manager.blockTable.count (.overflow index)).sum = 1
  capped : ∀ max, maxOverflowCapacity = some max → system.pool.overflowCapacity ≤ max
  table : ∀ tenant ∈ system.tenants, tenant.2.manager.blockTable.length =
    (tenant.2.manager.seqLen+poolBlockTokens-1)/poolBlockTokens
  length : ∀ tenant ∈ system.tenants, tenant.2.manager.seqLen = tenant.2.appended.length
  reads : ∀ tenant ∈ system.tenants, ∀ i pair, tenant.2.appended[i]? = some pair →
    tenant.2.manager.key system.pool i = .ok pair.1 ∧
      tenant.2.manager.value system.pool i = .ok pair.2
  appends : ∀ tenant ∈ system.tenants, ∀ k v panic,
    tenant.2.manager.append system.pool k v = .error panic →
      panic.ofGrowth ∨ panic = .vectorLength ∧ ¬ (k.length = kvDim ∧ v.length = kvDim)
  exhausted : ∀ tenant ∈ system.tenants, ∀ k v pool manager,
    tenant.2.manager.append system.pool k v = .ok (pool,manager,.error .exhausted) →
      pool = system.pool ∧ manager = tenant.2.manager ∧ Exhausted maxOverflowCapacity system.pool
  releases : ∀ tenant ∈ system.tenants, ∀ panic,
    tenant.2.manager.releaseAll system.pool ≠ .error panic

section Isolation
variable {φ : Type} {system : System φ} {pool : BlockPool φ} {kvDim capacity : ℕ}
  {maxOverflowCapacity : Option ℕ}

lemma count_owned (tenants : List (ℕ × Tenant φ)) (id : BlockId) :
    (owned tenants).count id =
      (tenants.map fun tenant => tenant.2.manager.blockTable.count id).sum :=
  List.count_flatMap

lemma Consistent.isolated [Zero φ] (h : Consistent kvDim capacity maxOverflowCapacity system) :
    Isolated kvDim capacity maxOverflowCapacity system where
  primary := by
    intro index hindex
    rw [← count_owned]
    exact h.sound.partition.count_primary h.sound.sized (hindex.trans_eq h.sound.capacity_eq.symm)
  overflow := by
    intro index hindex
    rw [← count_owned]
    exact h.sound.partition.count_overflow h.sound.sized hindex
  capped := h.sound.capped
  table := fun tenant htenant => (h.serves tenant htenant).table
  length := fun tenant htenant => (h.serves tenant htenant).length.symm
  reads := by
    intro tenant htenant i pair hi
    refine (h.serves tenant htenant).reads h.sound.sized (fun id hid => ?_) hi
    exact h.sound.partition.valid id (List.mem_flatMap.mpr ⟨tenant,htenant,hid⟩)
  appends := by
    intro tenant htenant k v panic hpanic
    obtain ⟨panic',hpanic',hkind⟩ | ⟨hnone,-⟩ | ⟨pool,manager,hsome,-⟩ :=
      append_cases k v (h.sound.perm (owned_perm h.distinct htenant)) (h.serves tenant htenant)
    · cases hpanic.symm.trans hpanic'
      exact hkind
    · cases hpanic.symm.trans hnone
    · cases hpanic.symm.trans hsome
  exhausted := by
    intro tenant htenant k v pool manager hrefused
    obtain ⟨panic,hpanic,-⟩ | ⟨hnone,hexhausted⟩ | ⟨pool,manager,hsome,-⟩ :=
      append_cases k v (h.sound.perm (owned_perm h.distinct htenant)) (h.serves tenant htenant)
    · cases hrefused.symm.trans hpanic
    · cases hrefused.symm.trans hnone
      exact ⟨rfl,rfl,hexhausted⟩
    · cases hrefused.symm.trans hsome
  releases := by
    intro tenant htenant panic hpanic
    obtain ⟨pool,hrelease,-⟩ := h.releaseAll htenant
    cases hpanic.symm.trans hrelease

variable [Zero φ]

/-- What the constructor accepts. -/
lemma withThresholds_eq_some
    (h : withThresholds kvDim capacity maxOverflowCapacity = some pool) :
    capacity % 2^32<overflowBit ∧
      pool = { kvDim, capacity, maxOverflowCapacity
               blockFloats := poolBlockTokens*kvDim
               keys := List.replicate (poolBlockTokens*kvDim*capacity) 0
               values := List.replicate (poolBlockTokens*kvDim*capacity) 0
               free := List.range (capacity % 2^32)
               overflowKeys := []
               overflowValues := []
               overflowFree := []
               overflowCapacity := 0 } := by
  unfold withThresholds checkedMul at h
  by_cases hdim : kvDim = 0
  · rw [if_pos hdim] at h
    cases h
  by_cases hcapacity : capacity = 0
  · rw [if_neg hdim, if_pos hcapacity] at h
    cases h
  by_cases hblock : poolBlockTokens*kvDim ≤ usizeMax
  · rw [if_neg hdim, if_neg hcapacity, if_pos hblock] at h
    dsimp only at h
    by_cases htotal : poolBlockTokens*kvDim*capacity ≤ usizeMax
    · rw [if_pos htotal] at h
      dsimp only at h
      split_ifs at h with hfits hbits
      refine ⟨by unfold overflowBit at hbits ⊢; omega,(Option.some.inj h).symm⟩
    · rw [if_neg htotal] at h
      cases h
  · rw [if_neg hdim, if_neg hcapacity, if_neg hblock] at h
    cases h

/-- A new pool has all its blocks on the free list. -/
lemma consistent_new (h : withThresholds kvDim capacity maxOverflowCapacity = some pool)
    (hcapacity : capacity<2^32) :
    Consistent kvDim capacity maxOverflowCapacity (System.new pool) := by
  obtain ⟨hbits,rfl⟩ := withThresholds_eq_some h
  rw [Nat.mod_eq_of_lt hcapacity] at hbits ⊢
  refine ⟨List.nodup_nil,fun _ hmem => ?_,⟨rfl,rfl,rfl,fun _ _ => Nat.zero_le _,?_,?_⟩,
    fun _ hmem => ?_⟩
  · cases hmem
  · refine ⟨rfl,hbits.le,Nat.zero_le _,?_,?_,(Nat.zero_mul _).symm,(Nat.zero_mul _).symm⟩
    · exact List.length_replicate.trans (Nat.mul_comm _ _)
    · exact List.length_replicate.trans (Nat.mul_comm _ _)
  · refine ⟨?_,List.Perm.refl _,fun _ hmem => ?_⟩
    · exact List.Perm.of_eq (List.append_nil _)
    · cases hmem
  · cases hmem

/-- Isolation over whole runs. Every accepted pool has it exactly when its capacity was not cut
on the way to the free list. -/
theorem isolated_iff_capacity (kvDim capacity : ℕ) (maxOverflowCapacity : Option ℕ)
    (pool : BlockPool φ) (h : withThresholds kvDim capacity maxOverflowCapacity = some pool) :
    (∀ operations system, (System.new pool).run operations = .ok system →
      Isolated kvDim capacity maxOverflowCapacity system) ↔ capacity<2^32 := by
  constructor
  · intro hall
    have hprimary := (hall [] (System.new pool) rfl).primary
    obtain ⟨hbits,rfl⟩ := withThresholds_eq_some h
    by_contra hlarge
    have hcount := hprimary overflowBit (by unfold overflowBit; omega)
    have hmissing : overflowBit ∉ List.range (capacity % 2^32) := by
      rw [List.mem_range]
      omega
    change (List.range (capacity % 2^32)).count overflowBit+0 = 1 at hcount
    rw [List.count_eq_zero_of_not_mem hmissing] at hcount
    cases hcount
  · intro hcapacity operations system hrun
    exact ((consistent_new h hcapacity).run operations _ hrun).isolated

theorem isolated_iff_capacity_two : ∃ pool : BlockPool ℕ,
    withThresholds 1 2 (some 1) = some pool ∧ ∀ operations system,
      (System.new pool).run operations = .ok system → Isolated 1 2 (some 1) system :=
  ⟨_,rfl,(isolated_iff_capacity 1 2 (some 1) _ rfl).mpr (by decide)⟩

/-- With a capacity of 2^32 the free list is empty, and the first block is nowhere. -/
theorem truncated_capacity_loses_blocks : ∃ pool : BlockPool ℕ,
    withThresholds 1 (2^32) none = some pool ∧ ∃ operations system,
      (System.new pool).run operations = .ok system ∧ ¬ Isolated 1 (2^32) none system := by
  refine ⟨_,rfl,[],_,rfl,fun h => ?_⟩
  have hcount := h.primary 0 (by decide)
  cases hcount

end Isolation

end MicroExpertRouter.PagedKv
