import Mathlib.Data.Nat.Bitwise
import MicroExpertRouter.PagedKv.Pool

/-! The pool as a memory of cells, one for each token of each block. Writing a cell leaves the
others alone, and so does everything the free lists do. -/
namespace MicroExpertRouter.PagedKv

section Identifiers
variable {index other : ℕ}

lemma raw_overflow (h : index<overflowBit) : (BlockId.overflow index).raw = overflowBit+index := by
  have hor := Nat.two_pow_add_eq_or_of_lt (i := 31) (b := index) h 1
  rw [Nat.mul_one] at hor
  change index ||| overflowBit = _
  rw [Nat.or_comm]
  exact hor.symm

@[simp] lemma isOverflow_overflow (h : index<overflowBit) :
    (BlockId.overflow index).isOverflow = true := by
  rw [BlockId.isOverflow, decide_eq_true_iff, raw_overflow h]
  have hbit : (overflowBit+index).testBit 31 = true := by
    rw [overflowBit, Nat.testBit_two_pow_add_eq, Nat.testBit_lt_two_pow h]
    rfl
  change (overflowBit+index) &&& 2^31 ≠ 0
  rw [Nat.and_two_pow, hbit]
  norm_num

@[simp] lemma isOverflow_primary (h : index<overflowBit) :
    (BlockId.mk index).isOverflow = false := by
  rw [BlockId.isOverflow, decide_eq_false_iff_not, not_not]
  change index &&& 2^31 = 0
  rw [Nat.and_two_pow, Nat.testBit_lt_two_pow h]
  norm_num

@[simp] lemma index_overflow (h : index<overflowBit) : (BlockId.overflow index).index = index := by
  rw [BlockId.index, raw_overflow h]
  change (2^31+index) &&& (2^31-1) = index
  rw [Nat.and_two_pow_sub_one_eq_mod, Nat.add_mod_left]
  exact Nat.mod_eq_of_lt h

@[simp] lemma index_primary (h : index<overflowBit) : (BlockId.mk index).index = index := by
  rw [BlockId.index]
  change index &&& (2^31-1) = index
  rw [Nat.and_two_pow_sub_one_eq_mod]
  exact Nat.mod_eq_of_lt h

end Identifiers

/-- The blocks of a pool. -/
def blockIds (capacity overflowCapacity : ℕ) : List BlockId :=
  (List.range capacity).map BlockId.mk++(List.range overflowCapacity).map BlockId.overflow

lemma mem_blockIds {capacity overflowCapacity : ℕ} {id : BlockId} :
    id ∈ blockIds capacity overflowCapacity ↔
      (∃ index<capacity, id = ⟨index⟩) ∨ ∃ index<overflowCapacity, id = .overflow index := by
  simp only [blockIds, List.mem_append, List.mem_map, List.mem_range, eq_comm]

/-- An identifier is its slab and its index. -/
lemma eq_of_index {capacity overflowCapacity : ℕ} {a b : BlockId} (hcapacity : capacity ≤ overflowBit)
    (hoverflow : overflowCapacity ≤ overflowBit) (ha : a ∈ blockIds capacity overflowCapacity)
    (hb : b ∈ blockIds capacity overflowCapacity) (hslab : a.isOverflow = b.isOverflow)
    (hindex : a.index = b.index) : a = b := by
  rcases mem_blockIds.mp ha with ⟨i,hi,rfl⟩ | ⟨i,hi,rfl⟩
  · rcases mem_blockIds.mp hb with ⟨j,hj,rfl⟩ | ⟨j,hj,rfl⟩
    · rw [index_primary (by omega), index_primary (by omega)] at hindex
      rw [hindex]
    · have hi' : i<overflowBit := by omega
      have hj' : j<overflowBit := by omega
      rw [isOverflow_primary hi', isOverflow_overflow hj'] at hslab
      cases hslab
  · rcases mem_blockIds.mp hb with ⟨j,hj,rfl⟩ | ⟨j,hj,rfl⟩
    · have hi' : i<overflowBit := by omega
      have hj' : j<overflowBit := by omega
      rw [isOverflow_overflow hi', isOverflow_primary hj'] at hslab
      cases hslab
    · rw [index_overflow (by omega), index_overflow (by omega)] at hindex
      rw [hindex]

/-- The slabs have room for all blocks. -/
structure Sized {φ : Type} (pool : BlockPool φ) : Prop where
  blockFloats : pool.blockFloats = poolBlockTokens*pool.kvDim
  capacity_le : pool.capacity ≤ overflowBit
  overflow_le : pool.overflowCapacity ≤ overflowBit
  keys : pool.keys.length = pool.capacity*pool.blockFloats
  values : pool.values.length = pool.capacity*pool.blockFloats
  overflowKeys : pool.overflowKeys.length = pool.overflowCapacity*pool.blockFloats
  overflowValues : pool.overflowValues.length = pool.overflowCapacity*pool.blockFloats

namespace BlockPool
variable {φ : Type}

/-- A block of the pool. -/
def Valid (self : BlockPool φ) (id : BlockId) : Prop :=
  id ∈ blockIds self.capacity self.overflowCapacity

def keysOf (self : BlockPool φ) (id : BlockId) : List φ :=
  if id.isOverflow then self.overflowKeys else self.keys

def valuesOf (self : BlockPool φ) (id : BlockId) : List φ :=
  if id.isOverflow then self.overflowValues else self.values

/-- The cached pair of one token. -/
def cell (self : BlockPool φ) (id : BlockId) (inBlock : ℕ) : List φ × List φ :=
  (Slab.read (self.keysOf id) (self.blockOffset id inBlock) self.kvDim,
    Slab.read (self.valuesOf id) (self.blockOffset id inBlock) self.kvDim)

end BlockPool

section Cells
variable {φ : Type} {pool : BlockPool φ} {id other : BlockId} {inBlock j : ℕ} {k v : List φ}

/-- A token of a block lies within its slab. -/
lemma Sized.inRange (h : Sized pool) (hid : pool.Valid id) (hj : inBlock<poolBlockTokens) :
    pool.blockOffset id inBlock+pool.kvDim ≤ (pool.keysOf id).length ∧
      pool.blockOffset id inBlock+pool.kvDim ≤ (pool.valuesOf id).length := by
  have hwithin : ∀ {index count : ℕ}, index<count →
      index*pool.blockFloats+inBlock*pool.kvDim+pool.kvDim ≤ count*pool.blockFloats := by
    intro index count hindex
    have htokens : (inBlock+1)*pool.kvDim ≤ poolBlockTokens*pool.kvDim :=
      Nat.mul_le_mul_right _ hj
    have hblocks : (index+1)*pool.blockFloats ≤ count*pool.blockFloats :=
      Nat.mul_le_mul_right _ hindex
    rw [← h.blockFloats] at htokens
    rw [Nat.add_mul, Nat.one_mul] at htokens hblocks
    omega
  have hcapacity := h.capacity_le
  have hoverflow := h.overflow_le
  unfold BlockPool.blockOffset BlockPool.keysOf BlockPool.valuesOf
  rcases mem_blockIds.mp hid with ⟨index,hindex,rfl⟩ | ⟨index,hindex,rfl⟩
  · rw [isOverflow_primary (by omega), index_primary (by omega)]
    simp only [Bool.false_eq_true, if_false]
    rw [h.keys, h.values]
    exact ⟨hwithin hindex,hwithin hindex⟩
  · rw [isOverflow_overflow (by omega), index_overflow (by omega)]
    simp only [if_true]
    rw [h.overflowKeys, h.overflowValues]
    exact ⟨hwithin hindex,hwithin hindex⟩

lemma readKey_eq (h : Sized pool) (hid : pool.Valid id) (hj : inBlock<poolBlockTokens) :
    pool.readKey id inBlock = .ok (pool.cell id inBlock).1 := by
  unfold BlockPool.readKey BlockPool.copyFrom
  rw [if_neg (Nat.not_le.mpr hj)]
  exact if_pos (h.inRange hid hj).1

lemma readValue_eq (h : Sized pool) (hid : pool.Valid id) (hj : inBlock<poolBlockTokens) :
    pool.readValue id inBlock = .ok (pool.cell id inBlock).2 := by
  unfold BlockPool.readValue BlockPool.copyFrom
  rw [if_neg (Nat.not_le.mpr hj)]
  exact if_pos (h.inRange hid hj).2

/-- Two cells of one slab do not meet. -/
lemma Sized.disjoint (h : Sized pool) (hid : pool.Valid id) (hother : pool.Valid other)
    (hj : inBlock<poolBlockTokens) (hj' : j<poolBlockTokens)
    (hslab : other.isOverflow = id.isOverflow) (hne : (other,j) ≠ (id,inBlock)) :
    pool.blockOffset other j+pool.kvDim ≤ pool.blockOffset id inBlock ∨
      pool.blockOffset id inBlock+pool.kvDim ≤ pool.blockOffset other j := by
  have hblock : ∀ {a b i n : ℕ}, a<b → i<poolBlockTokens →
      a*pool.blockFloats+i*pool.kvDim+pool.kvDim ≤ b*pool.blockFloats+n*pool.kvDim := by
    intro a b i n hab hi
    have htokens : (i+1)*pool.kvDim ≤ poolBlockTokens*pool.kvDim := Nat.mul_le_mul_right _ hi
    have hblocks : (a+1)*pool.blockFloats ≤ b*pool.blockFloats := Nat.mul_le_mul_right _ hab
    rw [← h.blockFloats] at htokens
    rw [Nat.add_mul, Nat.one_mul] at htokens hblocks
    omega
  have htoken : ∀ {i n : ℕ}, i<n → i*pool.kvDim+pool.kvDim ≤ n*pool.kvDim := by
    intro i n hin
    rw [← Nat.succ_mul]
    exact Nat.mul_le_mul_right _ hin
  unfold BlockPool.blockOffset
  rcases lt_trichotomy other.index id.index with hlt | heq | hlt
  · exact .inl (hblock hlt hj')
  · have hsame := eq_of_index h.capacity_le h.overflow_le hother hid hslab heq
    subst hsame
    rcases lt_trichotomy j inBlock with hlt | rfl | hlt
    · have htokens := htoken hlt
      omega
    · exact absurd rfl hne
    · have htokens := htoken hlt
      omega
  · exact .inr (hblock hlt hj)

/-- A slab after a copy: the copied range, and every range apart from it. -/
lemma read_copied {slab : List φ} {offset : ℕ} (hroom : offset+pool.kvDim ≤ slab.length)
    (hk : k.length = pool.kvDim) :
    (Slab.write slab offset k).length = slab.length ∧
      Slab.read (Slab.write slab offset k) offset pool.kvDim = k ∧
      ∀ start, start+pool.kvDim ≤ offset ∨ offset+pool.kvDim ≤ start →
        Slab.read (Slab.write slab offset k) start pool.kvDim = Slab.read slab start pool.kvDim := by
  rw [← hk] at hroom ⊢
  exact ⟨Slab.length_write hroom,Slab.read_write hroom,
    fun start hstart => Slab.read_write_disjoint hroom hstart⟩

/-- What a write of one token changes. -/
structure Written (pool : BlockPool φ) (id : BlockId) (inBlock : ℕ) (k v : List φ)
    (next : BlockPool φ) : Prop where
  frame : next = { pool with
    keys := next.keys
    values := next.values
    overflowKeys := next.overflowKeys
    overflowValues := next.overflowValues }
  sized : Sized next
  own : next.cell id inBlock = (k,v)
  others : ∀ other j, pool.Valid other → j<poolBlockTokens → (other,j) ≠ (id,inBlock) →
    next.cell other j = pool.cell other j

/-- Writing a token of a block of the pool stays in bounds and changes its cell only. -/
lemma writeToken_eq (h : Sized pool) (hid : pool.Valid id) (hj : inBlock<poolBlockTokens)
    (hk : k.length = pool.kvDim) (hv : v.length = pool.kvDim) :
    ∃ next, pool.writeToken id inBlock k v = .ok next ∧ Written pool id inBlock k v next := by
  obtain ⟨hkeys,hvalues⟩ := h.inRange hid hj
  unfold BlockPool.writeToken
  rw [if_neg (not_not.mpr hk), if_neg (not_not.mpr hv), if_neg (Nat.not_le.mpr hj)]
  obtain ⟨hkeyLength,hkey,hkeyOther⟩ := read_copied hkeys hk
  obtain ⟨hvalueLength,hvalue,hvalueOther⟩ := read_copied hvalues hv
  cases hslab : id.isOverflow with
  | true =>
    have hkeysOf : pool.keysOf id = pool.overflowKeys := if_pos hslab
    have hvaluesOf : pool.valuesOf id = pool.overflowValues := if_pos hslab
    rw [hkeysOf] at hkeys hkeyLength hkey hkeyOther
    rw [hvaluesOf] at hvalues hvalueLength hvalue hvalueOther
    have hkeyCopy : pool.copyInto pool.overflowKeys (pool.blockOffset id inBlock) k = .ok _ :=
      if_pos hkeys
    have hvalueCopy : pool.copyInto pool.overflowValues (pool.blockOffset id inBlock) v = .ok _ :=
      if_pos hvalues
    refine ⟨{ pool with
      overflowKeys := Slab.write pool.overflowKeys (pool.blockOffset id inBlock) k
      overflowValues := Slab.write pool.overflowValues (pool.blockOffset id inBlock) v },?_,
      rfl,?_,?_,?_⟩
    · simp only [if_true, hkeyCopy, hvalueCopy]
      rfl
    · exact { h with
        overflowKeys := hkeyLength.trans h.overflowKeys
        overflowValues := hvalueLength.trans h.overflowValues }
    · unfold BlockPool.cell BlockPool.keysOf BlockPool.valuesOf
      rw [hslab]
      exact Prod.ext hkey hvalue
    · intro other j hother hj' hne
      unfold BlockPool.cell BlockPool.keysOf BlockPool.valuesOf
      cases hside : other.isOverflow with
      | false => rfl
      | true =>
        have hapart := h.disjoint hid hother hj hj' (hside.trans hslab.symm) hne
        exact Prod.ext (hkeyOther _ hapart) (hvalueOther _ hapart)
  | false =>
    have hkeysOf : pool.keysOf id = pool.keys := by rw [BlockPool.keysOf, hslab]; rfl
    have hvaluesOf : pool.valuesOf id = pool.values := by rw [BlockPool.valuesOf, hslab]; rfl
    rw [hkeysOf] at hkeys hkeyLength hkey hkeyOther
    rw [hvaluesOf] at hvalues hvalueLength hvalue hvalueOther
    have hkeyCopy : pool.copyInto pool.keys (pool.blockOffset id inBlock) k = .ok _ :=
      if_pos hkeys
    have hvalueCopy : pool.copyInto pool.values (pool.blockOffset id inBlock) v = .ok _ :=
      if_pos hvalues
    refine ⟨{ pool with
      keys := Slab.write pool.keys (pool.blockOffset id inBlock) k
      values := Slab.write pool.values (pool.blockOffset id inBlock) v },?_,rfl,?_,?_,?_⟩
    · simp only [Bool.false_eq_true, if_false, hkeyCopy, hvalueCopy]
      rfl
    · exact { h with
        keys := hkeyLength.trans h.keys
        values := hvalueLength.trans h.values }
    · unfold BlockPool.cell BlockPool.keysOf BlockPool.valuesOf
      rw [hslab]
      exact Prod.ext hkey hvalue
    · intro other j hother hj' hne
      unfold BlockPool.cell BlockPool.keysOf BlockPool.valuesOf
      cases hside : other.isOverflow with
      | true => rfl
      | false =>
        have hapart := h.disjoint hid hother hj hj' (hside.trans hslab.symm) hne
        exact Prod.ext (hkeyOther _ hapart) (hvalueOther _ hapart)

end Cells

end MicroExpertRouter.PagedKv
