import MicroExpertRouter.Lib.Slab

/-! The paged KV cache of one layer, of `transformer.rs`. A call that panics has no result. What a
call takes from the allocator and gives back to it stands beside its result. -/
namespace MicroExpertRouter.Attention

def pagedBlockTokens : ℕ := 16

def freeBlocksCap : ℕ := 8

/-- The key half or the value half: its block table, and its free list with the last block pushed
in front. -/
structure Half (α : Type) where
  blocks : List (List α)
  free : List (List α)

/-- How many blocks a call allocates, and the blocks it releases with what they hold then. -/
structure Effect (α : Type) where
  allocated : ℕ
  released : List (List α)

def Effect.andThen {α : Type} (first second : Effect α) : Effect α :=
  ⟨first.allocated+second.allocated,first.released++second.released⟩

namespace Half
variable {α : Type} [Zero α]

/-- One more block at the end of the table, from the free list if it has one; and how many blocks
this allocates. -/
def grow (dim : ℕ) (self : Half α) : Half α × ℕ :=
  match self.free with
  | b::rest => (⟨self.blocks++[b.map fun _ => 0],rest⟩,0)
  | [] => (⟨self.blocks++[List.replicate (pagedBlockTokens*dim) 0],[]⟩,1)

/-- Copy a row into its place in the last block. -/
def writeRow (dim inBlock : ℕ) (row : List α) (self : Half α) : Option (Half α) := do
  let b ← self.blocks.getLast?
  if inBlock*dim+dim ≤ b.length ∧ row.length = dim then
    return { self with blocks := self.blocks.dropLast++[Slab.write b (inBlock*dim) row] }
  else none

/-- The loop of `evict_before`: each block that leaves the front of the table goes to the free list
or, when this is full, back to the allocator. -/
def evict : ℕ → Half α → Half α × List (List α)
  | 0, self => (self,[])
  | n+1, self => match self.blocks with
    | [] => evict n self
    | b::rest =>
      if self.free.length<freeBlocksCap then evict n ⟨rest,b::self.free⟩
      else ((evict n ⟨rest,self.free⟩).1,b::(evict n ⟨rest,self.free⟩).2)

/-- The row of an absolute position. -/
def row (dim evictedBlocks i : ℕ) (self : Half α) : Option (List α) :=
  let absBlock := i/pagedBlockTokens
  if absBlock<evictedBlocks then none
  else do
    let b ← self.blocks[absBlock-evictedBlocks]?
    let start := i % pagedBlockTokens*dim
    if start+dim ≤ b.length then return Slab.read b start dim else none

/-- `zeroize_blocks`. -/
def zeroizeBlocks (blocks : List (List α)) : List (List α) := blocks.map fun b => b.map fun _ => 0

/-- All blocks of this half. -/
def all (self : Half α) : List (List α) := self.blocks++self.free

def zeroized (self : Half α) : Half α := ⟨zeroizeBlocks self.blocks,zeroizeBlocks self.free⟩

def empty : Half α := ⟨[],[]⟩

end Half

structure KvCache (α : Type) where
  keys : Half α
  values : Half α
  evictedBlocks : ℕ
  seqLen : ℕ
  kvDim : ℕ
  vDim : ℕ

namespace KvCache
variable {α : Type} [Zero α]

def newKv (kDim vDim : ℕ) : KvCache α := ⟨.empty,.empty,0,0,kDim,vDim⟩

/-- The block that `append` opens at a block boundary, with the assertion on the table. -/
def openBlock (self : KvCache α) : Option (KvCache α × ℕ) :=
  let blockIdx := self.seqLen/pagedBlockTokens
  if self.seqLen % pagedBlockTokens = 0 then
    if self.evictedBlocks ≤ blockIdx ∧ self.keys.blocks.length = blockIdx-self.evictedBlocks then
      some ({ self with
        keys := (self.keys.grow self.kvDim).1
        values := (self.values.grow self.vDim).1 },
        (self.keys.grow self.kvDim).2+(self.values.grow self.vDim).2)
    else none
  else some (self,0)

def append (self : KvCache α) (k v : List α) : Option (KvCache α × Effect α) :=
  if k.length = self.kvDim ∧ v.length = self.vDim then do
    let inBlock := self.seqLen % pagedBlockTokens
    let (opened,allocated) ← self.openBlock
    let keys ← opened.keys.writeRow self.kvDim inBlock k
    let values ← opened.values.writeRow self.vDim inBlock v
    return ({ self with keys := keys, values := values, seqLen := self.seqLen+1 },⟨allocated,[]⟩)
  else none

def reset (self : KvCache α) : KvCache α × Effect α :=
  ({ self with keys := .empty, values := .empty, evictedBlocks := 0, seqLen := 0 },
    ⟨0,self.keys.all++self.values.all⟩)

def zeroize (self : KvCache α) : KvCache α × Effect α :=
  reset { self with keys := self.keys.zeroized, values := self.values.zeroized }

/-- How many blocks `evict_before` drops. -/
def blocksToDrop (self : KvCache α) (pos : ℕ) : ℕ :=
  min (min pos self.seqLen/pagedBlockTokens-self.evictedBlocks) self.keys.blocks.length

def evictBefore (self : KvCache α) (pos : ℕ) : KvCache α × Effect α :=
  let targetEvicted := min pos self.seqLen/pagedBlockTokens
  if targetEvicted ≤ self.evictedBlocks then (self,⟨0,[]⟩)
  else
    let blocksToDrop := self.blocksToDrop pos
    if blocksToDrop = 0 then (self,⟨0,[]⟩)
    else
      ({ self with
        keys := (self.keys.evict blocksToDrop).1
        values := (self.values.evict blocksToDrop).1
        evictedBlocks := self.evictedBlocks+blocksToDrop },
        ⟨0,(self.keys.evict blocksToDrop).2++(self.values.evict blocksToDrop).2⟩)

def key (self : KvCache α) (i : ℕ) : Option (List α) := self.keys.row self.kvDim self.evictedBlocks i

def value (self : KvCache α) (i : ℕ) : Option (List α) :=
  self.values.row self.vDim self.evictedBlocks i

def numBlocks (self : KvCache α) : ℕ := self.keys.blocks.length

end KvCache

/-- A call on a cache. -/
inductive Call (α : Type)
  | append (k v : List α)
  | evictBefore (pos : ℕ)
  | reset
  | zeroize

namespace KvCache
variable {α : Type} [Zero α]

def step (self : KvCache α) : Call α → Option (KvCache α × Effect α)
  | .append k v => self.append k v
  | .evictBefore pos => some (self.evictBefore pos)
  | .reset => some self.reset
  | .zeroize => some self.zeroize

def run : KvCache α → List (Call α) → Option (KvCache α × Effect α)
  | self, [] => some (self,⟨0,[]⟩)
  | self, call::calls => do
    let (next,effect) ← self.step call
    let (last,effects) ← run next calls
    return (last,effect.andThen effects)

end KvCache

/-- The rows that the calls append, since the last `reset` or `zeroize`. -/
def appended {α : Type} (rows : List (List α × List α)) : List (Call α) → List (List α × List α)
  | [] => rows
  | .append k v::calls => appended (rows++[(k,v)]) calls
  | .evictBefore _::calls => appended rows calls
  | .reset::calls => appended [] calls
  | .zeroize::calls => appended [] calls

section Attend
variable {α : Type} [Zero α]

inductive AttentionMode
  | slidingWindow (window : ℕ)
  | global
  deriving DecidableEq, Repr

/-- The first position that is attended. -/
def AttentionMode.start (tMax : ℕ) : AttentionMode → ℕ
  | slidingWindow window => tMax-window
  | global => 0

/-- The rows that `cpu_attend` reads. -/
def KvCache.attended (self : KvCache α) (mode : AttentionMode) : Option (List (List α × List α)) :=
  let tMax := self.seqLen
  let tStart := mode.start tMax
  (List.range' tStart (tMax-tStart)).mapM fun t => do return (← self.key t,← self.value t)

/-- What one token does to a cache: the rows it attends, and the blocks that are resident then and
after the eviction. -/
structure Attended (α : Type) where
  rows : List (List α × List α)
  resident : ℕ
  kept : ℕ

/-- One token of the decode loop on a layer, with or without the eviction that follows the attention
of a sliding window. -/
def KvCache.decodeToken (self : KvCache α) (evicting : Bool) (window pos : ℕ)
    (row : List α × List α) : Option (KvCache α × Attended α) := do
  let (cache,_) ← self.append row.1 row.2
  let rows ← cache.attended (.slidingWindow window)
  let after := if evicting then (cache.evictBefore (pos-window)).1 else cache
  return (after,⟨rows,cache.numBlocks,after.numBlocks⟩)

def KvCache.decode (evicting : Bool) (window : ℕ) :
    KvCache α → ℕ → List (List α × List α) → Option (KvCache α × List (Attended α))
  | self, _, [] => some (self,[])
  | self, pos, row::tokens => do
    let (next,attended) ← self.decodeToken evicting window pos row
    let (last,rest) ← next.decode evicting window (pos+1) tokens
    return (last,attended::rest)

end Attend

end MicroExpertRouter.Attention
