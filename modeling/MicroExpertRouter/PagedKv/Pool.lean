import MicroExpertRouter.Lib.Lru
import MicroExpertRouter.Lib.Machine
import MicroExpertRouter.Lib.Slab

/-! The shared physical block pool of `block_pool.rs` and the block managers of its requests. A
panic is a value; the debug assertions are kept. Floats are cells of any type with a zero. -/
namespace MicroExpertRouter.PagedKv

/-- `POOL_BLOCK_TOKENS`. -/
def poolBlockTokens : ℕ := 16

/-- `OVERFLOW_BIT`. -/
def overflowBit : ℕ := 2^31

/-- `BlockId`, a `u32` whose high bit tells the slab. -/
structure BlockId where
  raw : ℕ
  deriving DecidableEq, Repr

def BlockId.isOverflow (self : BlockId) : Bool := decide (self.raw &&& overflowBit ≠ 0)

/-- `self.0 & !OVERFLOW_BIT`. -/
def BlockId.index (self : BlockId) : ℕ := self.raw &&& (overflowBit-1)

/-- `BlockId(idx | OVERFLOW_BIT)`. -/
def BlockId.overflow (index : ℕ) : BlockId := ⟨index ||| overflowBit⟩

inductive Panic
  | blockIdSpace
  | capacityOverflow
  | releasedRange
  | vectorLength
  | blockOffset
  | slabRange
  | blockTable
  | readPastSeqLen
  deriving DecidableEq, Repr

inductive BlockAllocError
  | exhausted
  deriving DecidableEq, Repr

/-- `BlockPool`. The free lists are stacks, top first; the pressure thresholds are left out but
for the overflow cap. -/
structure BlockPool (φ : Type) where
  kvDim : ℕ
  capacity : ℕ
  blockFloats : ℕ
  keys : List φ
  values : List φ
  free : List ℕ
  overflowKeys : List φ
  overflowValues : List φ
  overflowFree : List ℕ
  overflowCapacity : ℕ
  maxOverflowCapacity : Option ℕ

/-- A `Vec<f32>` of more than `isize::MAX` bytes is refused. -/
def vecFits (floats : ℕ) : Bool := decide (4*floats ≤ isizeMax)

section Pool
variable {φ : Type} [Zero φ]

/-- `with_thresholds`, without a pool where it panics; the size of a block overflows as in a
checked build. The free list and the check of the identifier space see the capacity as a `u32`. -/
def withThresholds (kvDim capacity : ℕ) (maxOverflowCapacity : Option ℕ) : Option (BlockPool φ) :=
  if kvDim = 0 then none
  else if capacity = 0 then none
  else
    match checkedMul usizeMax poolBlockTokens kvDim with
    | none => none
    | some blockFloats =>
      match checkedMul usizeMax blockFloats capacity with
      | none => none
      | some total =>
        if vecFits total = false then none
        else if capacity % 2^32 ≤ overflowBit-1 then
          some { kvDim, capacity, blockFloats, maxOverflowCapacity
                 keys := List.replicate total 0
                 values := List.replicate total 0
                 free := List.range (capacity % 2^32)
                 overflowKeys := []
                 overflowValues := []
                 overflowFree := []
                 overflowCapacity := 0 }
        else none

/-- The growing end of `allocate`. -/
def BlockPool.grow (self : BlockPool φ) : Except Panic (BlockPool φ × Option BlockId) :=
  if self.maxOverflowCapacity.any fun max => decide (max ≤ self.overflowCapacity) then
    .ok (self,none)
  else
    let newIndex := self.overflowCapacity % 2^32
    if newIndex &&& overflowBit ≠ 0 then .error .blockIdSpace
    else if vecFits (self.overflowKeys.length+self.blockFloats) = false then
      .error .capacityOverflow
    else if vecFits (self.overflowValues.length+self.blockFloats) = false then
      .error .capacityOverflow
    else
      .ok ({ self with
        overflowKeys := self.overflowKeys++List.replicate self.blockFloats 0
        overflowValues := self.overflowValues++List.replicate self.blockFloats 0
        overflowCapacity := self.overflowCapacity+1 },some (.overflow newIndex))

def BlockPool.allocate (self : BlockPool φ) : Except Panic (BlockPool φ × Option BlockId) :=
  match self.free with
  | index::free => .ok ({ self with free },some ⟨index⟩)
  | [] =>
    match self.overflowFree with
    | index::overflowFree => .ok ({ self with overflowFree },some (.overflow index))
    | [] => self.grow

end Pool

section Access
variable {φ : Type}

namespace BlockPool

def release (self : BlockPool φ) (id : BlockId) : Except Panic (BlockPool φ) :=
  if id.isOverflow then
    if id.index<self.overflowCapacity then
      .ok { self with overflowFree := id.index::self.overflowFree }
    else .error .releasedRange
  else if id.raw<self.capacity then .ok { self with free := id.raw::self.free }
  else .error .releasedRange

/-- Where a token of a block lies in its slab. -/
def blockOffset (self : BlockPool φ) (id : BlockId) (inBlock : ℕ) : ℕ :=
  id.index*self.blockFloats+inBlock*self.kvDim

/-- `slab[off..off + kv_dim].copy_from_slice(source)`. -/
def copyInto (self : BlockPool φ) (slab : List φ) (offset : ℕ) (source : List φ) :
    Except Panic (List φ) :=
  if offset+self.kvDim ≤ slab.length then .ok (Slab.write slab offset source)
  else .error .slabRange

def writeToken (self : BlockPool φ) (id : BlockId) (inBlock : ℕ) (k v : List φ) :
    Except Panic (BlockPool φ) :=
  if k.length ≠ self.kvDim then .error .vectorLength
  else if v.length ≠ self.kvDim then .error .vectorLength
  else if poolBlockTokens ≤ inBlock then .error .blockOffset
  else
    let offset := self.blockOffset id inBlock
    if id.isOverflow then do
      let overflowKeys ← self.copyInto self.overflowKeys offset k
      let overflowValues ← self.copyInto self.overflowValues offset v
      return { self with overflowKeys, overflowValues }
    else do
      let keys ← self.copyInto self.keys offset k
      let values ← self.copyInto self.values offset v
      return { self with keys, values }

/-- `&slab[off..off + kv_dim]`. -/
def copyFrom (self : BlockPool φ) (slab : List φ) (offset : ℕ) : Except Panic (List φ) :=
  if offset+self.kvDim ≤ slab.length then .ok (Slab.read slab offset self.kvDim)
  else .error .slabRange

def readKey (self : BlockPool φ) (id : BlockId) (inBlock : ℕ) : Except Panic (List φ) :=
  if poolBlockTokens ≤ inBlock then .error .blockOffset
  else self.copyFrom (if id.isOverflow then self.overflowKeys else self.keys)
    (self.blockOffset id inBlock)

def readValue (self : BlockPool φ) (id : BlockId) (inBlock : ℕ) : Except Panic (List φ) :=
  if poolBlockTokens ≤ inBlock then .error .blockOffset
  else self.copyFrom (if id.isOverflow then self.overflowValues else self.values)
    (self.blockOffset id inBlock)

def shrinkOverflowToFit (self : BlockPool φ) : BlockPool φ × ℕ :=
  if self.overflowFree.length<self.overflowCapacity then (self,0)
  else
    let reclaimed := self.overflowCapacity
    if reclaimed = 0 then (self,0)
    else ({ self with
      overflowKeys := []
      overflowValues := []
      overflowFree := []
      overflowCapacity := 0 },reclaimed)

end BlockPool

end Access

/-- `BlockManager`, without the pool it shares. -/
structure BlockManager where
  blockTable : List BlockId
  seqLen : ℕ
  deriving DecidableEq, Repr

namespace BlockManager
variable {φ : Type}

def new : BlockManager := ⟨[],0⟩

/-- The trailing block of an `append`, allocated when the one before is full. -/
def trailing [Zero φ] (self : BlockManager) (pool : BlockPool φ) :
    Except Panic (BlockPool φ × Except BlockAllocError BlockManager) :=
  if self.seqLen % poolBlockTokens = 0 then
    if self.blockTable.length ≠ self.seqLen/poolBlockTokens then .error .blockTable
    else do
      let (pool,id) ← pool.allocate
      match id with
      | none => return (pool,.error .exhausted)
      | some id => return (pool,.ok { self with blockTable := self.blockTable++[id] })
  else .ok (pool,.ok self)

def append [Zero φ] (self : BlockManager) (pool : BlockPool φ) (k v : List φ) :
    Except Panic (BlockPool φ × BlockManager × Except BlockAllocError Unit) := do
  let (pool,extended) ← self.trailing pool
  match extended with
  | .error e => return (pool,self,.error e)
  | .ok manager =>
    match manager.blockTable[self.seqLen/poolBlockTokens]? with
    | none => .error .blockTable
    | some id => do
      let pool ← pool.writeToken id (self.seqLen % poolBlockTokens) k v
      return (pool,{ manager with seqLen := self.seqLen+1 },.ok ())

/-- `physical_addr`. -/
def physicalAddr (self : BlockManager) (i : ℕ) : Except Panic (BlockId × ℕ) :=
  if self.seqLen ≤ i then .error .readPastSeqLen
  else
    match self.blockTable[i/poolBlockTokens]? with
    | none => .error .blockTable
    | some id => .ok (id,i % poolBlockTokens)

def key (self : BlockManager) (pool : BlockPool φ) (i : ℕ) : Except Panic (List φ) := do
  let (id,inBlock) ← self.physicalAddr i
  pool.readKey id inBlock

def value (self : BlockManager) (pool : BlockPool φ) (i : ℕ) : Except Panic (List φ) := do
  let (id,inBlock) ← self.physicalAddr i
  pool.readValue id inBlock

/-- The loop of `release_all`. -/
def releaseBlocks : List BlockId → BlockPool φ → Except Panic (BlockPool φ)
  | [], pool => .ok pool
  | id::ids, pool => do
    let pool ← pool.release id
    releaseBlocks ids pool

def releaseAll (self : BlockManager) (pool : BlockPool φ) :
    Except Panic (BlockPool φ × BlockManager) := do
  let pool ← releaseBlocks self.blockTable pool
  return (pool,⟨[],0⟩)

end BlockManager

end MicroExpertRouter.PagedKv
