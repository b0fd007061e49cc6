import MicroExpertRouter.Lib.OnceTable

/-! Rotary embedding of `transformer.rs`, plain, scaled and from a cache. The operations on `f32` are
parameters, and its values are compared by their bits. Where a loop indexes out of bounds it panics,
and there is no result. -/
namespace MicroExpertRouter.Rope

/-- Arithmetic on `f32`. A product with one is the other factor. -/
structure FloatOps (F : Type) where
  add : F → F → F
  sub : F → F → F
  mul : F → F → F
  div : F → F → F
  powf : F → F → F
  sin : F → F
  cos : F → F
  ofNat : ℕ → F
  one : F
  two : F
  mul_one : ∀ x, mul x one = x

structure YarnRope (F : Type) where
  invFreq : List F
  attnFactor : F

structure RopePair (F : Type) where
  sin : F
  cos : F

section Rotation
variable {F : Type} (ops : FloatOps F)

/-- Rotate an entry and the one half a vector behind. -/
def turn (half : ℕ) (pair : ℕ → Option (RopePair F)) (v : List F) (i : ℕ) : Option (List F) := do
  let p ← pair i
  let a ← v[i]?
  let b ← v[i+half]?
  return (v.set i (ops.sub (ops.mul a p.cos) (ops.mul b p.sin))).set (i+half)
    (ops.add (ops.mul a p.sin) (ops.mul b p.cos))

/-- The loop that the three rotations share. -/
def rotate (v : List F) (pair : ℕ → Option (RopePair F)) : Option (List F) :=
  (List.range (v.length/2)).foldlM (turn ops (v.length/2) pair) v

def applyRopePairs (v : List F) (pairs : List (RopePair F)) : Option (List F) :=
  rotate ops v fun i => pairs[i]?

/-- The inverse frequency of a pair. -/
def inverseFrequency (base : F) (dim i : ℕ) : F :=
  ops.div ops.one (ops.powf base (ops.div (ops.mul ops.two (ops.ofNat i)) (ops.ofNat dim)))

def applyRopeInplace (v : List F) (pos : ℕ) (base : F) : Option (List F) :=
  rotate ops v fun i =>
    let theta := ops.mul (ops.ofNat pos) (inverseFrequency ops base v.length i)
    some ⟨ops.sin theta,ops.cos theta⟩

/-- The sine and the cosine at a position, times a factor. -/
def scaledPair (m : F) (pos : ℕ) (inv : F) : RopePair F :=
  let theta := ops.mul (ops.ofNat pos) inv
  ⟨ops.mul (ops.sin theta) m,ops.mul (ops.cos theta) m⟩

def applyRopeScaledInplace (v : List F) (pos : ℕ) (yarn : YarnRope F) : Option (List F) :=
  rotate ops v fun i => yarn.invFreq[i]?.map (scaledPair ops yarn.attnFactor pos)

def applyRopeMaybeScaled (v : List F) (pos : ℕ) (base : F) : Option (YarnRope F) → Option (List F)
  | some yarn => applyRopeScaledInplace ops v pos yarn
  | none => applyRopeInplace ops v pos base

end Rotation

/-- One row for each position, filled at its first use. -/
structure RopeCache (F : Type) where
  ropeDim : ℕ
  base : F
  yarn : Bool
  attnFactor : F
  invFreq : List F
  rows : List (Option (List (RopePair F)))

namespace RopeCache
variable {F : Type} (ops : FloatOps F)

def withPositions (ropeDim : ℕ) (base : F) (yarn : Option (YarnRope F)) (positions : ℕ) :
    Option (RopeCache F) :=
  if ropeDim = 0 ∨ ropeDim % 2 ≠ 0 then none
  else
    let half := ropeDim/2
    let rows := List.replicate positions none
    match yarn with
    | some y =>
      if y.invFreq.length = half then some ⟨ropeDim,base,true,y.attnFactor,y.invFreq,rows⟩ else none
    | none =>
      some ⟨ropeDim,base,false,ops.one,(List.range half).map (inverseFrequency ops base ropeDim),rows⟩

/-- `matches`: the caller's configuration, as far as it is compared. -/
def fits [DecidableEq F] (self : RopeCache F) (ropeDim : ℕ) (base : F) (yarn : Option (YarnRope F)) :
    Bool :=
  self.ropeDim == ropeDim && self.base == base && self.yarn == yarn.isSome
    && self.attnFactor == (yarn.map YarnRope.attnFactor).getD ops.one

def computeRow (self : RopeCache F) (pos : ℕ) : List (RopePair F) :=
  self.invFreq.map (scaledPair ops self.attnFactor pos)

def applyInplace (self : RopeCache F) (v : List F) (pos : ℕ) : Option (List F) × RopeCache F :=
  let row := OnceTable.getOrInit self.rows (self.computeRow ops) pos
  (applyRopePairs ops v row.1,{ self with rows := row.2 })

end RopeCache

section Cached
variable {F : Type} [DecidableEq F] (ops : FloatOps F)

def applyRopeWithCache (v : List F) (pos : ℕ) (base : F) (yarn : Option (YarnRope F)) :
    Option (RopeCache F) → Option (List F) × Option (RopeCache F)
  | some cache =>
    if cache.fits ops v.length base yarn then
      let applied := cache.applyInplace ops v pos
      (applied.1,some applied.2)
    else (applyRopeMaybeScaled ops v pos base yarn,some cache)
  | none => (applyRopeMaybeScaled ops v pos base yarn,none)

/-- A use of a cache: a call of `apply_inplace` or of `apply_rope_with_cache`. -/
inductive Use (F : Type)
  | applyInplace (v : List F) (pos : ℕ)
  | applyRopeWithCache (v : List F) (pos : ℕ) (base : F) (yarn : Option (YarnRope F))

def RopeCache.use (cache : RopeCache F) : Use F → RopeCache F
  | .applyInplace v pos => (cache.applyInplace ops v pos).2
  | .applyRopeWithCache v pos base yarn =>
    (Rope.applyRopeWithCache ops v pos base yarn (some cache)).2.getD cache

/-- The cache after some uses. -/
def RopeCache.run (cache : RopeCache F) (uses : List (Use F)) : RopeCache F :=
  uses.foldl (RopeCache.use ops) cache

end Cached
end MicroExpertRouter.Rope
