import MicroExpertRouter.Experts.Sizes
import MicroExpertRouter.Parallel.RowChunks

/-! The direct execution of a Q8_0 expert, of `inference.rs`: products with the blocks of the payload
by the scalar kernel, into a reused scratch. An index or a range outside of its slice panics. -/
namespace MicroExpertRouter.Experts
open Quant (part byteAt divCeil slice u16FromLeBytes)
open Parallel (RowSplit RowWriter)

/-- `Q8DirectScratch`. -/
structure Q8DirectScratch where
  gate : List ℚ
  gated : List ℚ

structure Q8DirectLayout where
  gate : List UInt8
  up : List UInt8
  down : List UInt8
  dModel : ℕ
  dFf : ℕ
  gateUpRowAligned : Bool
  downRowAligned : Bool

/-- `silu`, `f32::clamp` with its two bounds, and the limit that is installed. -/
structure Activation where
  silu : ℚ → ℚ
  clamp : ℚ → ℚ → ℚ → ℚ
  swigluLimit : Option ℚ

def Activation.limitGate (self : Activation) (gate : ℚ) : ℚ :=
  match self.swigluLimit with
  | some limit => self.clamp gate (-limit) limit
  | none => gate

section Layout

def invalidLayout (msg : String) : DecodeError := .read (.weights (.invalidLayout msg))

def validateQ8DirectLayout (bytes : List UInt8) (xLen yLen dModel dFf : ℕ) :
    Except DecodeError Q8DirectLayout :=
  if dModel = 0 ∨ dFf = 0 then
    .error (invalidLayout
      s!"Q8_0 dimensions must be non-zero, got d_model={dModel}, d_ff={dFf}")
  else if xLen ≠ dModel ∨ yLen ≠ dModel then
    .error (invalidLayout
      s!"Q8_0 activation dimensions mismatch: x={xLen}, y={yLen}, d_model={dModel}")
  else do
    let weights ← okOr (checkedMul usizeMax dModel dFf)
      (invalidLayout "Q8_0 projection element count overflow")
    let blocks := divCeil weights 32
    let projectionBytes ← okOr (checkedMul usizeMax blocks 34)
      (invalidLayout "Q8_0 projection byte count overflow")
    let need ← okOr (checkedMul usizeMax projectionBytes 3)
      (invalidLayout "Q8_0 expert byte count overflow")
    if bytes.length<need then
      if expertSizeToleranceBytes<need ∧ need-bytes.length ≤ expertSizeToleranceBytes then
        .error (.truncatedPayload bytes.length need dModel dFf)
      else .error (bufferTooSmall bytes.length need dModel dFf)
    else
      let logical := bytes.take need
      let gate := logical.take projectionBytes
      let rest := logical.drop projectionBytes
      let up := rest.take projectionBytes
      let down := rest.drop projectionBytes
      if gate.length % 34 ≠ 0 ∨ up.length % 34 ≠ 0 ∨ down.length % 34 ≠ 0 then
        .error (invalidLayout "Q8_0 projection range does not end on a 34-byte block boundary")
      else .ok {
        gate := gate
        up := up
        down := down
        dModel := dModel
        dFf := dFf
        gateUpRowAligned := dModel % 32 = 0
        downRowAligned := dFf % 32 = 0 }

end Layout

section Reads

/-- `xs[i]`. -/
def readAt {α : Type} (xs : List α) (i : ℕ) : Except DecodeError α := okOr xs[i]? .panic

/-- `src[start..stop]`. -/
def readRange (src : List UInt8) (start stop : ℕ) : Except DecodeError (List UInt8) :=
  okOr (slice src start stop) .panic

/-- `y[i] += v`. -/
def addAt (y : List ℚ) (i : ℕ) (v : ℚ) : Except DecodeError (List ℚ) :=
  if i<y.length then .ok (y.modify i (·+v)) else .error .panic

/-- `xs.chunks_exact(n)`. -/
def chunksExact {α : Type} (n : ℕ) (xs : List α) : List (List α) :=
  (List.range (xs.length/n)).map fun k => (xs.drop (k*n)).take n

variable (half : UInt16 → ℚ)

/-- The first two bytes of a block. -/
def blockScale (block : List UInt8) : Except DecodeError ℚ := do
  let a ← readAt block 0
  let b ← readAt block 1
  return half (u16FromLeBytes a b)

/-- A signed byte behind them. -/
def signedAt (block : List UInt8) (i : ℕ) : Except DecodeError ℚ := do
  let q ← readAt block (2+i)
  return (q.toInt8.toInt : ℚ)

end Reads

section Kernels
variable (half : UInt16 → ℚ)

def q8_0RowDotScalar (rowBlocks : List UInt8) (x : List ℚ) : Except DecodeError ℚ :=
  ((chunksExact 34 rowBlocks).zip (chunksExact 32 x)).foldlM (fun sum turn => do
    let scale ← blockScale half turn.1
    (List.range 32).foldlM (fun sum i => do
      let q ← signedAt turn.1 i
      let activation ← readAt turn.2 i
      return sum+scale*q*activation) sum) 0

def q8_0GateUpRowScalar (gateBlocks upBlocks : List UInt8) (x : List ℚ) :
    Except DecodeError (ℚ × ℚ) :=
  (((chunksExact 34 gateBlocks).zip (chunksExact 34 upBlocks)).zip (chunksExact 32 x)).foldlM
    (fun sums turn => do
      let gateScale ← blockScale half turn.1.1
      let upScale ← blockScale half turn.1.2
      (List.range 32).foldlM (fun sums i => do
        let activation ← readAt turn.2 i
        let gate ← signedAt turn.1.1 i
        let up ← signedAt turn.1.2 i
        return (sums.1+gateScale*gate*activation,sums.2+upScale*up*activation)) sums) (0,0)

def q8_0MatvecScalarFlat (bytes : List UInt8) (rows cols : ℕ) (x y : List ℚ) :
    Except DecodeError (List ℚ) :=
  let weights := rows*cols
  (chunksExact 34 bytes).zipIdx.foldlM (fun y turn => do
    let scale ← blockScale half turn.1
    let base := turn.2*32
    let rest ← okOr (checkedSub weights base) .panic
    (List.range (min rest 32)).foldlM (fun y i => do
      let flat := base+i
      let q ← signedAt turn.1 i
      let activation ← readAt x (flat % cols)
      addAt y (flat/cols) (scale*q*activation)) y) (List.replicate y.length 0)

end Kernels

section Forward

/-- `v.resize(n, 0.0)`. -/
def resize (v : List ℚ) (n : ℕ) : List ℚ := v.take n++List.replicate (n-v.length) 0

/-- A closure that computes every slot from its row. -/
def rowWriter {T : Type} (row : ℕ → T) : RowWriter T where
  write rowStart slice := (List.range slice.length).map fun i => row (rowStart+i)
  length_write := by simp

/-- A loop over the rows of an output, whose panic is that of any row. -/
def forRows (split : RowSplit) (out : List ℚ) (cols : ℕ) (row : ℕ → Except DecodeError ℚ) :
    Except DecodeError (List ℚ) :=
  (split.run (out.map Except.ok) cols (rowWriter row)).mapM id

variable (half : UInt16 → ℚ) (act : Activation) (split : RowSplit)

/-- The first half of the pass, into the scratch. -/
def gateUpDirect (layout : Q8DirectLayout) (x : List ℚ) (scratch : Q8DirectScratch) :
    Except DecodeError Q8DirectScratch :=
  if layout.gateUpRowAligned then do
    let rowBytes := layout.dModel/32*34
    let gated ← forRows split scratch.gated layout.dModel fun row => do
      let gateBlocks ← readRange layout.gate (row*rowBytes) ((row+1)*rowBytes)
      let upBlocks ← readRange layout.up (row*rowBytes) ((row+1)*rowBytes)
      let sums ← q8_0GateUpRowScalar half gateBlocks upBlocks x
      return act.silu (act.limitGate sums.1)*sums.2
    return { scratch with gated := gated }
  else do
    let gate ← q8_0MatvecScalarFlat half layout.gate layout.dFf layout.dModel x scratch.gate
    let up ← q8_0MatvecScalarFlat half layout.up layout.dFf layout.dModel x scratch.gated
    let gated := List.zipWith (fun gate up => act.silu (act.limitGate gate)*up) gate up
    return { gate := gate, gated := gated++up.drop gate.length }

/-- The second half, into the output. -/
def downDirect (layout : Q8DirectLayout) (gated y : List ℚ) : Except DecodeError (List ℚ) :=
  if layout.downRowAligned then
    let rowBytes := layout.dFf/32*34
    forRows split y layout.dFf fun row => do
      let rowBlocks ← readRange layout.down (row*rowBytes) ((row+1)*rowBytes)
      q8_0RowDotScalar half rowBlocks gated
  else q8_0MatvecScalarFlat half layout.down layout.dModel layout.dFf gated y

/-- `forward_q8_0_direct_into_with_kernel` with the scalar kernel, which every machine has: what it
leaves in the scratch and in the output. -/
def forwardQ8_0DirectInto (bytes : List UInt8) (x : List ℚ) (dModel dFf : ℕ)
    (scratch : Q8DirectScratch) (y : List ℚ) : Except DecodeError (Q8DirectScratch × List ℚ) := do
  let layout ← validateQ8DirectLayout bytes x.length y.length dModel dFf
  let scratch ← gateUpDirect half act split layout x
    ⟨resize scratch.gate dFf,resize scratch.gated dFf⟩
  let y ← downDirect half split layout scratch.gated y
  return (scratch,y)

end Forward

end MicroExpertRouter.Experts
