import MicroExpertRouter.Lib.Machine
import MicroExpertRouter.Lib.Slab

/-! Resident dense weights of `dense_tensor.rs` and their readers. The decoder of one Q8_0 block is
a parameter, and so are the numbers; a reader that would panic returns `none`. -/
namespace MicroExpertRouter.DenseTensor

def q8_0BlockElems : ℕ := 32
def q8_0BlockBytes : ℕ := 34

inductive DenseDType
  | f32
  | q8_0
  deriving DecidableEq, Repr

inductive DenseWeightError
  | shapeOverflow (rows cols : ℕ)
  | byteLength (dtype : DenseDType) (rows cols expected actual : ℕ)
  deriving DecidableEq, Repr

inductive DenseWeight (F : Type)
  | f32 (values : List F) (rows cols : ℕ)
  | q8_0 (bytes : List UInt8) (rows cols : ℕ)

/-- `weights.div_ceil(Q8_0_BLOCK_ELEMS)`. -/
def blocksFor (weights : ℕ) : ℕ := (weights+q8_0BlockElems-1)/q8_0BlockElems

def q8_0BytesFor (weights : ℕ) : Except DenseWeightError ℕ :=
  match checkedMul usizeMax (blocksFor weights) q8_0BlockBytes with
  | none => .error (.shapeOverflow weights q8_0BlockBytes)
  | some bytes => .ok bytes

namespace DenseWeight
variable {F : Type}

/-- The length is asserted. -/
def fromF32 (values : List F) (rows cols : ℕ) : Option (DenseWeight F) :=
  if values.length = saturatingMul usizeMax rows cols then some (.f32 values rows cols) else none

def fromQ8_0Bytes (bytes : List UInt8) (rows cols : ℕ) :
    Except DenseWeightError (DenseWeight F) := do
  match checkedMul usizeMax rows cols with
  | none => .error (.shapeOverflow rows cols)
  | some weights =>
    let expected ← q8_0BytesFor weights
    if bytes.length ≠ expected then
      .error (.byteLength .q8_0 rows cols expected bytes.length)
    else return .q8_0 bytes rows cols

def rows : DenseWeight F → ℕ
  | .f32 _ rows _ => rows
  | .q8_0 _ rows _ => rows

def cols : DenseWeight F → ℕ
  | .f32 _ _ cols => cols
  | .q8_0 _ _ cols => cols

def len (self : DenseWeight F) : ℕ := self.rows*self.cols

@[simp] lemma len_q8_0 (bytes : List UInt8) (rows cols : ℕ) :
    (DenseWeight.q8_0 bytes rows cols : DenseWeight F).len = rows*cols := rfl

end DenseWeight

section Access
variable {α : Type}

/-- `xs[start..start + len]`. -/
def readSlice (xs : List α) (start len : ℕ) : Option (List α) :=
  if start+len ≤ xs.length then some (Slab.read xs start len) else none

/-- `xs[start..start + source.len()].copy_from_slice(source)`. -/
def writeSlice (xs : List α) (start : ℕ) (source : List α) : Option (List α) :=
  if start+source.length ≤ xs.length then some (Slab.write xs start source) else none

/-- `xs[i] = value`. -/
def setAt (xs : List α) (i : ℕ) (value : α) : Option (List α) :=
  if i<xs.length then some (xs.set i value) else none

end Access

section Readers
variable {F S : Type} (decode : List UInt8 → Vector F q8_0BlockElems)

/-- `dequantize_q8_0_block(&bytes[start..start + Q8_0_BLOCK_BYTES], ..)`. -/
def decodedBlock (bytes : List UInt8) (block : ℕ) : Option (Vector F q8_0BlockElems) :=
  (readSlice bytes (block*q8_0BlockBytes) q8_0BlockBytes).map decode

def dequantizeQ8_0ToF32 [Zero F] (src : List UInt8) (nWeights : ℕ) : Option (List F) := do
  let blocks := blocksFor nWeights
  if src.length<blocks*q8_0BlockBytes then none
  else
    let dst ← (List.range blocks).foldlM (fun dst b => do
      let decoded ← decodedBlock decode src b
      writeSlice dst (b*q8_0BlockElems) decoded.toList) (List.replicate (blocks*q8_0BlockElems) 0)
    return dst.take nWeights

/-- The loops that decode the blocks a range of weights meets and use the weights of the range in
each: the block before and after a row's end are clipped. -/
def forDecoded (bytes : List UInt8) (start len : ℕ) (use : S → ℕ → F → Option S) (init : S) :
    Option S :=
  let firstBlock := start/q8_0BlockElems
  let lastBlock := (start+len-1)/q8_0BlockElems
  (List.range' firstBlock (lastBlock+1-firstBlock)).foldlM (fun state block => do
    let blockStart := block*q8_0BlockElems
    let decoded ← decodedBlock decode bytes block
    let low := max start blockStart
    let high := min (start+len) (blockStart+q8_0BlockElems)
    (List.range' low (high-low)).foldlM (fun state flat => do
      let value ← decoded[flat-blockStart]?
      use state flat value) state) init

def q8_0CopyRange (bytes : List UInt8) (startWeight len : ℕ) (out : List F) : Option (List F) :=
  if len = 0 then some out
  else forDecoded decode bytes startWeight len
    (fun out flat value => setAt out (flat-startWeight) value) out

def q8_0RowDot [Zero F] [Add F] [Mul F] (bytes : List UInt8) (row cols : ℕ) (x : List F) : Option F :=
  if cols = 0 then some 0
  else
    let rowStart := row*cols
    forDecoded decode bytes rowStart cols (fun acc flat value => do
      let input ← x[flat-rowStart]?
      return acc+value*input) 0

namespace DenseWeight

def toF32Vec [Zero F] : DenseWeight F → Option (List F)
  | .f32 values _ _ => some values
  | .q8_0 bytes rows cols => dequantizeQ8_0ToF32 decode bytes (rows*cols)

/-- The row replaces what the buffer held. -/
def rowDequantInto [Zero F] (self : DenseWeight F) (row : ℕ) (_out : List F) : Option (List F) :=
  if row<self.rows then
    match self with
    | .f32 values _ cols => do
      let source ← readSlice values (row*cols) cols
      writeSlice (List.replicate cols 0) 0 source
    | .q8_0 bytes _ cols => q8_0CopyRange decode bytes (row*cols) cols (List.replicate cols 0)
  else none

/-- `matvec_into`: every place of the output is overwritten. The kernel of `matmul_row_major_into`,
which the backend selects, is a parameter. -/
def matvecInto [Zero F] [Add F] [Mul F] (matmul : List F → List F → ℕ → ℕ → ℕ → F)
    (self : DenseWeight F) (x y : List F) : Option (List F) :=
  if x.length ≠ self.cols ∨ y.length ≠ self.rows then none
  else
    match self with
    | .f32 values rows cols => some (y.mapIdx fun row _ => matmul values x rows cols row)
    | .q8_0 bytes rows cols =>
      if rows = 0 ∨ cols = 0 then some (y.map fun _ => 0)
      else (List.range y.length).mapM fun row => q8_0RowDot decode bytes row cols x

def matvec [Zero F] [Add F] [Mul F] (matmul : List F → List F → ℕ → ℕ → ℕ → F)
    (self : DenseWeight F) (x : List F) : Option (List F) :=
  self.matvecInto decode matmul x (List.replicate self.rows 0)

end DenseWeight

/-- An iterator with the block it decoded last. -/
structure DenseWeightIter (F : Type) where
  weight : DenseWeight F
  offset : ℕ
  decoded : Vector F q8_0BlockElems
  decodedBlock : Option ℕ

def DenseWeight.iter [Zero F] (self : DenseWeight F) : DenseWeightIter F :=
  ⟨self,0,Vector.replicate q8_0BlockElems 0,none⟩

lemma mod_blockElems_lt (offset : ℕ) : offset % q8_0BlockElems<q8_0BlockElems :=
  Nat.mod_lt _ (by decide)

namespace DenseWeightIter

/-- The block of the current offset is decoded unless it is the last decoded one. -/
def refill (self : DenseWeightIter F) (bytes : List UInt8) : Option (DenseWeightIter F) :=
  let block := self.offset/q8_0BlockElems
  if self.decodedBlock ≠ some block then
    (DenseTensor.decodedBlock decode bytes block).map fun decoded =>
      { self with decoded, decodedBlock := some block }
  else some self

def next (self : DenseWeightIter F) : Option (Option F × DenseWeightIter F) :=
  if self.weight.len ≤ self.offset then some (none,self)
  else
    match self.weight with
    | .f32 values _ _ =>
      values[self.offset]?.map fun value => (some value,{ self with offset := self.offset+1 })
    | .q8_0 bytes _ _ =>
      (self.refill decode bytes).map fun iter =>
        (some (iter.decoded.get ⟨self.offset % q8_0BlockElems,mod_blockElems_lt _⟩),
          { iter with offset := self.offset+1 })

/-- What the iterator yields until it ends, within some number of calls. -/
def collect : ℕ → DenseWeightIter F → Option (List F)
  | 0, _ => none
  | calls+1, self =>
    match self.next decode with
    | none => none
    | some (none,_) => some []
    | some (some value,rest) => (collect calls rest).map (value::·)

end DenseWeightIter
end Readers
end MicroExpertRouter.DenseTensor
