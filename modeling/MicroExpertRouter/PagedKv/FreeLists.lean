import MicroExpertRouter.PagedKv.Cells

/-! The two free lists and the block tables share out the blocks of the pool: every block is in
exactly one of them, through allocation, release and the reclamation of the overflow slab. -/
namespace MicroExpertRouter.PagedKv

/-- The indices within one slab of a list of blocks. -/
def indices (overflow : Bool) (ids : List BlockId) : List ℕ :=
  (ids.filter fun id => id.isOverflow == overflow).map BlockId.index

section Indices
variable {overflow : Bool} {id : BlockId} {ids more : List BlockId}

lemma indices_cons_same (h : id.isOverflow = overflow) :
    indices overflow (id::ids) = id.index::indices overflow ids := by
  rw [indices, List.filter_cons_of_pos (by rw [h, beq_self_eq_true]), List.map_cons]
  rfl

lemma indices_cons_other (h : id.isOverflow = !overflow) :
    indices overflow (id::ids) = indices overflow ids := by
  rw [indices, List.filter_cons_of_neg (by rw [h]; cases overflow <;> simp)]
  rfl

lemma Perm.indices (h : ids.Perm more) (overflow : Bool) :
    (indices overflow ids).Perm (indices overflow more) :=
  (h.filter _).map _

end Indices

/-- The owned blocks are blocks of the pool, and what they leave is on the free lists. -/
structure Partition {φ : Type} (pool : BlockPool φ) (owned : List BlockId) : Prop where
  primary : (pool.free++indices false owned).Perm (List.range pool.capacity)
  overflow : (pool.overflowFree++indices true owned).Perm (List.range pool.overflowCapacity)
  valid : ∀ id ∈ owned, pool.Valid id

section Partition
variable {φ : Type} {pool next : BlockPool φ} {owned others ids : List BlockId} {id : BlockId}

lemma Partition.perm (h : Partition pool owned) (hperm : owned.Perm others) :
    Partition pool others where
  primary := ((Perm.indices hperm.symm false).append_left _).trans h.primary
  overflow := ((Perm.indices hperm.symm true).append_left _).trans h.overflow
  valid := fun id hid => h.valid id (hperm.mem_iff.mpr hid)

/-- Among blocks of the pool, an index of one slab stands for one block. -/
lemma count_indices (h : Sized pool) (hid : pool.Valid id)
    (hvalid : ∀ other ∈ owned, pool.Valid other) :
    (indices id.isOverflow owned).count id.index = owned.count id := by
  rw [indices, List.count, List.countP_map, List.countP_filter, List.count]
  refine List.countP_congr fun other hother => ?_
  simp only [Function.comp_apply, Bool.and_eq_true, beq_iff_eq]
  constructor
  · rintro ⟨hindex,hslab⟩
    exact eq_of_index h.capacity_le h.overflow_le (hvalid other hother) hid hslab hindex
  · rintro rfl
    exact ⟨rfl,rfl⟩

/-- A primary block is once free or once owned. -/
lemma Partition.count_primary (h : Partition pool owned) (hsized : Sized pool) {index : ℕ}
    (hindex : index<pool.capacity) : pool.free.count index+owned.count ⟨index⟩ = 1 := by
  have hbit : index<overflowBit := hindex.trans_le hsized.capacity_le
  have hid : pool.Valid ⟨index⟩ := mem_blockIds.mpr (.inl ⟨index,hindex,rfl⟩)
  have hcount := count_indices hsized hid h.valid
  rw [isOverflow_primary hbit, index_primary hbit] at hcount
  rw [← hcount, ← List.count_append, h.primary.count_eq]
  exact List.count_eq_one_of_mem List.nodup_range (List.mem_range.mpr hindex)

/-- So is an overflow block. -/
lemma Partition.count_overflow (h : Partition pool owned) (hsized : Sized pool) {index : ℕ}
    (hindex : index<pool.overflowCapacity) :
    pool.overflowFree.count index+owned.count (.overflow index) = 1 := by
  have hbit : index<overflowBit := hindex.trans_le hsized.overflow_le
  have hid : pool.Valid (.overflow index) := mem_blockIds.mpr (.inr ⟨index,hindex,rfl⟩)
  have hcount := count_indices hsized hid h.valid
  rw [isOverflow_overflow hbit, index_overflow hbit] at hcount
  rw [← hcount, ← List.count_append, h.overflow.count_eq]
  exact List.count_eq_one_of_mem List.nodup_range (List.mem_range.mpr hindex)

/-- The next overflow index still has its high bit clear. -/
lemma newIndex_lt (h : Sized pool) (hspace : pool.overflowCapacity % 2^32 &&& overflowBit = 0) :
    pool.overflowCapacity<overflowBit ∧ pool.overflowCapacity % 2^32 = pool.overflowCapacity := by
  have hle : pool.overflowCapacity ≤ 2^31 := h.overflow_le
  have hmod : pool.overflowCapacity % 2^32 = pool.overflowCapacity := Nat.mod_eq_of_lt (by omega)
  rw [hmod] at hspace
  refine ⟨lt_of_le_of_ne hle fun heq => ?_,hmod⟩
  rw [heq] at hspace
  exact absurd hspace (by decide)

/-- No block is owned twice. -/
lemma Partition.nodup (h : Partition pool owned) (hsized : Sized pool) : owned.Nodup := by
  rw [List.nodup_iff_count_le_one]
  intro id
  by_cases hid : id ∈ owned
  · obtain ⟨index,hindex,rfl⟩ | ⟨index,hindex,rfl⟩ := mem_blockIds.mp (h.valid id hid)
    · have hcount := h.count_primary hsized hindex
      omega
    · have hcount := h.count_overflow hsized hindex
      omega
  · rw [List.count_eq_zero_of_not_mem hid]
    omega

end Partition

/-- The pool of a constructor call, with some of its blocks owned. -/
structure Sound {φ : Type} (kvDim capacity : ℕ) (maxOverflowCapacity : Option ℕ)
    (pool : BlockPool φ) (owned : List BlockId) : Prop where
  kvDim_eq : pool.kvDim = kvDim
  capacity_eq : pool.capacity = capacity
  max_eq : pool.maxOverflowCapacity = maxOverflowCapacity
  capped : ∀ max, maxOverflowCapacity = some max → pool.overflowCapacity ≤ max
  sized : Sized pool
  partition : Partition pool owned

/-- The blocks keep their contents. -/
def Kept {φ : Type} (pool next : BlockPool φ) (ids : List BlockId) : Prop :=
  ∀ id ∈ ids, ∀ inBlock<poolBlockTokens, next.cell id inBlock = pool.cell id inBlock

/-- How a block leaves the free lists, or comes to be. -/
inductive Allocated {φ : Type} [Zero φ] (pool : BlockPool φ) : BlockPool φ → BlockId → Prop
  | primary (index : ℕ) (free : List ℕ) (hfree : pool.free = index::free) :
    Allocated pool { pool with free } ⟨index⟩
  | recycled (index : ℕ) (overflowFree : List ℕ) (hfree : pool.overflowFree = index::overflowFree) :
    Allocated pool { pool with overflowFree } (.overflow index)
  | grown (hcap : ∀ max, pool.maxOverflowCapacity = some max → pool.overflowCapacity < max)
    (hspace : pool.overflowCapacity % 2^32 &&& overflowBit = 0) :
    Allocated pool { pool with
      overflowKeys := pool.overflowKeys++List.replicate pool.blockFloats 0
      overflowValues := pool.overflowValues++List.replicate pool.blockFloats 0
      overflowCapacity := pool.overflowCapacity+1 } (.overflow (pool.overflowCapacity % 2^32))

/-- A panic of the allocator: out of block ids, or out of memory. -/
def Panic.ofGrowth (panic : Panic) : Prop := panic = .blockIdSpace ∨ panic = .capacityOverflow

section Allocation
variable {φ : Type} [Zero φ] {pool next : BlockPool φ} {owned : List BlockId} {id : BlockId}
  {kvDim capacity : ℕ} {maxOverflowCapacity : Option ℕ}

lemma grow_cases (pool : BlockPool φ) :
    (∃ panic, pool.grow = .error panic ∧ panic.ofGrowth) ∨
      (pool.grow = .ok (pool,none) ∧
        ∃ max, pool.maxOverflowCapacity = some max ∧ max ≤ pool.overflowCapacity) ∨
      ∃ next id, pool.grow = .ok (next,some id) ∧ Allocated pool next id := by
  unfold BlockPool.grow
  by_cases hcap : pool.maxOverflowCapacity.any fun max => decide (max ≤ pool.overflowCapacity)
  · rw [if_pos hcap]
    obtain ⟨max,hmax,hle⟩ := Option.any_eq_true _ _ |>.mp hcap
    exact .inr (.inl ⟨rfl,max,hmax,of_decide_eq_true hle⟩)
  rw [if_neg hcap]
  dsimp only
  by_cases hspace : pool.overflowCapacity % 2^32 &&& overflowBit = 0
  · rw [if_neg (not_not.mpr hspace)]
    by_cases hkeys : vecFits (pool.overflowKeys.length+pool.blockFloats) = false
    · rw [if_pos hkeys]
      exact .inl ⟨_,rfl,.inr rfl⟩
    rw [if_neg hkeys]
    by_cases hvalues : vecFits (pool.overflowValues.length+pool.blockFloats) = false
    · rw [if_pos hvalues]
      exact .inl ⟨_,rfl,.inr rfl⟩
    rw [if_neg hvalues]
    refine .inr (.inr ⟨_,_,rfl,.grown (fun max hmax => ?_) hspace⟩)
    rw [hmax, Option.any_some, decide_eq_true_iff, Nat.not_le] at hcap
    exact hcap
  · rw [if_pos hspace]
    exact .inl ⟨_,rfl,.inl rfl⟩

/-- What `allocate` can do. -/
lemma allocate_cases (pool : BlockPool φ) :
    (∃ panic, pool.allocate = .error panic ∧ panic.ofGrowth) ∨
      (pool.allocate = .ok (pool,none) ∧ pool.free = [] ∧ pool.overflowFree = [] ∧
        ∃ max, pool.maxOverflowCapacity = some max ∧ max ≤ pool.overflowCapacity) ∨
      ∃ next id, pool.allocate = .ok (next,some id) ∧ Allocated pool next id := by
  unfold BlockPool.allocate
  cases hfree : pool.free with
  | cons index free => exact .inr (.inr ⟨_,_,rfl,.primary index free hfree⟩)
  | nil =>
    cases hoverflow : pool.overflowFree with
    | cons index overflowFree =>
      exact .inr (.inr ⟨{ pool with overflowFree },.overflow index,by rw [hfree],
        .recycled index overflowFree hoverflow⟩)
    | nil =>
      obtain hpanic | ⟨hnone,hmax⟩ | hsome := grow_cases pool
      · exact .inl hpanic
      · exact .inr (.inl ⟨hnone,rfl,rfl,hmax⟩)
      · exact .inr (.inr hsome)

lemma Allocated.sized (h : Allocated pool next id) (hsized : Sized pool) : Sized next := by
  cases h with
  | primary index free hfree => exact { hsized with }
  | recycled index overflowFree hfree => exact { hsized with }
  | grown hcap hspace =>
    exact { hsized with
      overflow_le := (newIndex_lt hsized hspace).1
      overflowKeys := by
        rw [List.length_append, hsized.overflowKeys, List.length_replicate, Nat.succ_mul]
      overflowValues := by
        rw [List.length_append, hsized.overflowValues, List.length_replicate, Nat.succ_mul] }

/-- An allocation keeps all contents. -/
lemma Allocated.cell_eq (h : Allocated pool next id) (hsized : Sized pool) {other : BlockId}
    (hother : pool.Valid other) {inBlock : ℕ} (hj : inBlock<poolBlockTokens) :
    next.cell other inBlock = pool.cell other inBlock := by
  cases h with
  | primary index free hfree => rfl
  | recycled index overflowFree hfree => rfl
  | grown hcap hspace =>
    have hrange := hsized.inRange hother hj
    unfold BlockPool.keysOf BlockPool.valuesOf at hrange
    unfold BlockPool.cell BlockPool.keysOf BlockPool.valuesOf
    cases hslab : other.isOverflow with
    | false => rfl
    | true =>
      rw [hslab] at hrange
      exact Prod.ext (Slab.read_append _ hrange.1) (Slab.read_append _ hrange.2)

lemma Allocated.valid (h : Allocated pool next id) {other : BlockId} (hother : pool.Valid other) :
    next.Valid other := by
  cases h with
  | primary index free hfree => exact hother
  | recycled index overflowFree hfree => exact hother
  | grown hcap hspace =>
    obtain ⟨index,hindex,rfl⟩ | ⟨index,hindex,rfl⟩ := mem_blockIds.mp hother
    · exact mem_blockIds.mpr (.inl ⟨index,hindex,rfl⟩)
    · exact mem_blockIds.mpr (.inr ⟨index,Nat.lt_succ_of_lt hindex,rfl⟩)

/-- The allocated block goes from the free lists to its owner. -/
lemma Allocated.partition (h : Allocated pool next id) (hsized : Sized pool)
    (hpartition : Partition pool owned) : Partition next (id::owned) := by
  have hvalid : ∀ other ∈ owned, next.Valid other := fun other hother =>
    h.valid (hpartition.valid other hother)
  cases h with
  | primary index free hfree =>
    have hperm := hpartition.primary
    rw [hfree] at hperm
    have hindex : index<pool.capacity := List.mem_range.mp (hperm.mem_iff.mp (List.mem_cons_self ..))
    have hbit := hindex.trans_le hsized.capacity_le
    refine ⟨?_,?_,List.forall_mem_cons.mpr ⟨mem_blockIds.mpr (.inl ⟨index,hindex,rfl⟩),hvalid⟩⟩
    · rw [indices_cons_same (isOverflow_primary hbit), index_primary hbit]
      exact List.perm_middle.trans hperm
    · rw [indices_cons_other (isOverflow_primary hbit)]
      exact hpartition.overflow
  | recycled index overflowFree hfree =>
    have hperm := hpartition.overflow
    rw [hfree] at hperm
    have hindex : index<pool.overflowCapacity :=
      List.mem_range.mp (hperm.mem_iff.mp (List.mem_cons_self ..))
    have hbit := hindex.trans_le hsized.overflow_le
    refine ⟨?_,?_,List.forall_mem_cons.mpr ⟨mem_blockIds.mpr (.inr ⟨index,hindex,rfl⟩),hvalid⟩⟩
    · rw [indices_cons_other (isOverflow_overflow hbit)]
      exact hpartition.primary
    · rw [indices_cons_same (isOverflow_overflow hbit), index_overflow hbit]
      exact List.perm_middle.trans hperm
  | grown hcap hspace =>
    obtain ⟨hbit,hmod⟩ := newIndex_lt hsized hspace
    rw [hmod]
    refine ⟨?_,?_,List.forall_mem_cons.mpr
      ⟨mem_blockIds.mpr (.inr ⟨_,Nat.lt_succ_self _,rfl⟩),hvalid⟩⟩
    · rw [indices_cons_other (isOverflow_overflow hbit)]
      exact hpartition.primary
    · rw [indices_cons_same (isOverflow_overflow hbit), index_overflow hbit, List.range_succ]
      exact List.perm_middle.trans
        ((hpartition.overflow.cons _).trans (List.perm_append_singleton _ _).symm)

/-- An allocation keeps the pool sound. -/
lemma Allocated.sound (h : Allocated pool next id)
    (hsound : Sound kvDim capacity maxOverflowCapacity pool owned) :
    Sound kvDim capacity maxOverflowCapacity next (id::owned) := by
  have hsized := h.sized hsound.sized
  have hpartition := h.partition hsound.sized hsound.partition
  cases h with
  | primary index free hfree => exact { hsound with sized := hsized, partition := hpartition }
  | recycled index overflowFree hfree =>
    exact { hsound with sized := hsized, partition := hpartition }
  | grown hcap hspace =>
    exact { hsound with
      sized := hsized
      partition := hpartition
      capped := fun max hmax => hcap max (hsound.max_eq.trans hmax) }

end Allocation

section Release
variable {φ : Type} {pool : BlockPool φ} {owned : List BlockId} {id : BlockId} {kvDim capacity : ℕ}
  {maxOverflowCapacity : Option ℕ}

/-- Releasing an owned block puts it back on its free list. -/
lemma release_sound (h : Sound kvDim capacity maxOverflowCapacity pool (id::owned)) :
    ∃ next, pool.release id = .ok next ∧
      next = { pool with free := next.free, overflowFree := next.overflowFree } ∧
      Sound kvDim capacity maxOverflowCapacity next owned := by
  have hvalid := List.forall_mem_cons.mp h.partition.valid
  have hprimary := h.partition.primary
  have hoverflow := h.partition.overflow
  unfold BlockPool.release
  obtain ⟨index,hindex,rfl⟩ | ⟨index,hindex,rfl⟩ := mem_blockIds.mp hvalid.1
  · have hbit := hindex.trans_le h.sized.capacity_le
    rw [indices_cons_same (isOverflow_primary hbit), index_primary hbit] at hprimary
    rw [indices_cons_other (isOverflow_primary hbit)] at hoverflow
    rw [isOverflow_primary hbit]
    refine ⟨{ pool with free := index::pool.free },?_,rfl,?_⟩
    · rw [if_neg Bool.false_ne_true, if_pos hindex]
    · exact { h with
        sized := { h.sized with }
        partition := ⟨List.perm_middle.symm.trans hprimary,hoverflow,hvalid.2⟩ }
  · have hbit := hindex.trans_le h.sized.overflow_le
    rw [indices_cons_other (isOverflow_overflow hbit)] at hprimary
    rw [indices_cons_same (isOverflow_overflow hbit), index_overflow hbit] at hoverflow
    rw [isOverflow_overflow hbit, index_overflow hbit]
    refine ⟨{ pool with overflowFree := index::pool.overflowFree },?_,rfl,?_⟩
    · rw [if_pos rfl, if_pos hindex]
    · exact { h with
        sized := { h.sized with }
        partition := ⟨hprimary,List.perm_middle.symm.trans hoverflow,hvalid.2⟩ }

/-- The loop of `release_all` gives back a whole table. -/
lemma releaseBlocks_sound (ids : List BlockId) :
    ∀ pool : BlockPool φ, Sound kvDim capacity maxOverflowCapacity pool (ids++owned) →
      ∃ next, BlockManager.releaseBlocks ids pool = .ok next ∧
        next = { pool with free := next.free, overflowFree := next.overflowFree } ∧
        Sound kvDim capacity maxOverflowCapacity next owned := by
  induction ids with
  | nil => exact fun pool h => ⟨pool,rfl,rfl,h⟩
  | cons id ids ih =>
    intro pool h
    obtain ⟨middle,hrelease,hmiddle,hsound⟩ := release_sound h
    obtain ⟨next,hrest,hnext,hdone⟩ := ih middle hsound
    refine ⟨next,?_,?_,hdone⟩
    · rw [BlockManager.releaseBlocks, hrelease]
      exact hrest
    · rw [hnext, hmiddle]

/-- Reclaiming the overflow slab takes no owned block with it. -/
lemma shrinkOverflowToFit_sound (h : Sound kvDim capacity maxOverflowCapacity pool owned) :
    Sound kvDim capacity maxOverflowCapacity pool.shrinkOverflowToFit.1 owned ∧
      Kept pool pool.shrinkOverflowToFit.1 owned := by
  unfold BlockPool.shrinkOverflowToFit
  by_cases hused : pool.overflowFree.length<pool.overflowCapacity
  · rw [if_pos hused]
    exact ⟨h,fun _ _ _ _ => rfl⟩
  rw [if_neg hused]
  by_cases hempty : pool.overflowCapacity = 0
  · dsimp only
    rw [if_pos hempty]
    exact ⟨h,fun _ _ _ _ => rfl⟩
  dsimp only
  rw [if_neg hempty]
  have hlength := h.partition.overflow.length_eq
  rw [List.length_append, List.length_range] at hlength
  have hnone : indices true owned = [] := List.eq_nil_of_length_eq_zero (by omega)
  have howned : ∀ id ∈ owned, id.isOverflow = false := by
    intro id hid
    cases hslab : id.isOverflow with
    | false => rfl
    | true =>
      have hmem : id.index ∈ indices true owned :=
        List.mem_map_of_mem (List.mem_filter.mpr ⟨hid,by rw [hslab]; rfl⟩)
      rw [hnone] at hmem
      cases hmem
  refine ⟨{ h with capped := fun _ _ => Nat.zero_le _, sized := ?_, partition := ?_ },?_⟩
  · exact { h.sized with
      overflow_le := Nat.zero_le _
      overflowKeys := (Nat.zero_mul _).symm
      overflowValues := (Nat.zero_mul _).symm }
  · refine ⟨h.partition.primary,by rw [hnone]; exact List.Perm.refl _,fun id hid => ?_⟩
    obtain ⟨index,hindex,rfl⟩ | ⟨index,hindex,rfl⟩ := mem_blockIds.mp (h.partition.valid id hid)
    · exact mem_blockIds.mpr (.inl ⟨index,hindex,rfl⟩)
    · have hslab := howned _ hid
      rw [isOverflow_overflow (hindex.trans_le h.sized.overflow_le)] at hslab
      cases hslab
  · intro id hid inBlock _
    unfold BlockPool.cell BlockPool.keysOf BlockPool.valuesOf
    rw [howned id hid]
    rfl

end Release

end MicroExpertRouter.PagedKv
