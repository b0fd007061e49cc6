import MicroExpertRouter.Lib.RowMajor
import MicroExpertRouter.Quant.Decoders
import MicroExpertRouter.Storage.TensorHeader

/-! The products of packed projections, of `inference.rs`: with a matrix of blocks handed over to
Candle, or with the blocks decoded one by one where the layout does not allow that. Floats are exact;
Candle and the numbers of two and four bytes are parameters. -/
namespace MicroExpertRouter.Quant
open RowMajor (entry)
open Storage (UthDtypeId ProjectionRange)

inductive WeightDtype
  | f32
  | f16
  | int8
  | q4k
  | q4_0
  | q8_0
  | q5k
  | q6k
  | bf16
  | mxfp4
  | mixed
  deriving DecidableEq, Repr

namespace WeightDtype

def asStr : WeightDtype → String
  | f32 => "f32"
  | f16 => "f16"
  | int8 => "int8"
  | q4k => "q4k"
  | q4_0 => "q4_0"
  | q8_0 => "q8_0"
  | q5k => "q5k"
  | q6k => "q6k"
  | bf16 => "bf16"
  | mxfp4 => "mxfp4"
  | mixed => "mixed"

end WeightDtype

/-- `UthDtypeId::to_weight`. -/
def toWeight : UthDtypeId → WeightDtype
  | .f32 => .f32
  | .f16 => .f16
  | .int8 => .int8
  | .q4K => .q4k
  | .q4_0 => .q4_0
  | .q8_0 => .q8_0
  | .bf16 => .bf16
  | .mxfp4 => .mxfp4
  | .q5K => .q5k
  | .q6K => .q6k
  | .mixed => .mixed

/-- The errors of these functions. -/
inductive ExpertWeightsError
  | bufferTooSmall (have_ need dModel dFf : ℕ)
  | candle (msg : String)
  | invalidLayout (msg : String)
  deriving DecidableEq, Repr

inductive ProjectionDispatchKind
  | dense
  | qMatMul
  | scalarReference
  deriving DecidableEq, Repr

/-- `a.div_ceil(b)`. -/
def divCeil (a b : ℕ) : ℕ := (a+b-1)/b

/-- The whole blocks for some weights. -/
def blockBytesFor (weights elems bytes : ℕ) : Option ℕ :=
  checkedMul usizeMax (divCeil weights elems) bytes

def projectionWeightBytesFor (weights : ℕ) : WeightDtype → Option ℕ
  | .f32 => checkedMul usizeMax weights 4
  | .f16 => checkedMul usizeMax weights 2
  | .bf16 => checkedMul usizeMax weights 2
  | .int8 => some weights
  | .q4k => blockBytesFor weights 256 144
  | .q4_0 => blockBytesFor weights 32 18
  | .q8_0 => blockBytesFor weights 32 34
  | .q5k => blockBytesFor weights 256 176
  | .q6k => blockBytesFor weights 256 210
  | .mxfp4 => none
  | .mixed => none

/-- A projection in a payload, as `projection_view` makes it, and the address of its first byte. -/
structure QuantProjectionView where
  name : String
  dtype : WeightDtype
  bytes : List UInt8
  address : ℕ
  len : ℕ
  rows : ℕ
  cols : ℕ
  weights : ℕ
  weights_eq : weights = rows*cols
  len_eq : len = bytes.length
  bytes_eq : projectionWeightBytesFor weights dtype = some bytes.length

/-- `payload.get(start..end)`. -/
def slice (payload : List UInt8) (start stop : ℕ) : Option (List UInt8) :=
  if start ≤ stop ∧ stop ≤ payload.length then some (part payload start (stop-start)) else none

lemma length_of_slice {payload bytes : List UInt8} {start len : ℕ}
    (h : slice payload start (start+len) = some bytes) : bytes.length = len := by
  unfold slice at h
  split_ifs at h with hrange
  rw [← Option.some.inj h, length_part]
  omega

/-- The view of a range that holds what its shape and dtype ask for. -/
def viewOf (name : String) (dtype : WeightDtype) (address rows cols len : ℕ) (bytes : List UInt8)
    (hexpected : projectionWeightBytesFor (rows*cols) dtype = some len) (hlen : bytes.length = len) :
    QuantProjectionView where
  name := name
  dtype := dtype
  bytes := bytes
  address := address
  len := len
  rows := rows
  cols := cols
  weights := rows*cols
  weights_eq := rfl
  len_eq := hlen.symm
  bytes_eq := hexpected.trans (congrArg some hlen.symm)

/-- `projection_view`, with the address of the payload. -/
def projectionView (payload : List UInt8) (address : ℕ) (range : ProjectionRange) (rows cols : ℕ)
    (name : String) : Except ExpertWeightsError QuantProjectionView :=
  let dtype := toWeight range.dtype
  if usizeMax<rows*cols then
    .error (.invalidLayout s!"{name} projection shape overflows usize")
  else if range.weights.toNat ≠ rows*cols then
    .error (.invalidLayout (s!"{name} projection records {range.weights.toNat} weights, " ++
      s!"expected {rows*cols}"))
  else
    match hexpected : projectionWeightBytesFor (rows*cols) dtype with
    | none => .error (.invalidLayout (s!"{name} projection dtype {dtype.asStr} is not " ++
        "executable by direct mixed dispatch"))
    | some expectedBytes =>
      if range.len.toNat ≠ expectedBytes then
        .error (.invalidLayout (s!"{name} projection length {range.len.toNat} does not match " ++
          s!"{expectedBytes} bytes for {dtype.asStr}"))
      else if usizeMax<range.offset.toNat+expectedBytes then
        .error (.invalidLayout s!"{name} projection range overflows usize")
      else
        match hbytes : slice payload range.offset.toNat (range.offset.toNat+expectedBytes) with
        | none => .error (.bufferTooSmall payload.length (range.offset.toNat+expectedBytes) cols rows)
        | some bytes => .ok (viewOf name dtype (address+range.offset.toNat) rows cols expectedBytes
            bytes hexpected (length_of_slice hbytes))

/-- The numbers of two and four bytes. -/
structure Floats where
  half : UInt16 → ℚ
  bfloat : UInt16 → ℚ
  single : List UInt8 → ℚ

/-- What is called of Candle: the product of a matrix of blocks and a vector, the product of a matrix
of floats and a vector, and an activation. -/
structure Candle where
  qmatmul : GgmlDType → List UInt8 → ℕ → ℕ → List ℚ → Except String (List ℚ)
  matmul : List ℚ → ℕ → ℕ → List ℚ → Except String (List ℚ)
  silu : ℚ → ℚ

def ggmlDtypeForOptimizedProjection : WeightDtype → Option GgmlDType
  | .q4_0 => some .q4_0
  | .q4k => some .q4k
  | .q5k => some .q5k
  | .q6k => some .q6k
  | .q8_0 => some .q8_0
  | .f32 => none
  | .f16 => none
  | .int8 => none
  | .bf16 => none
  | .mxfp4 => none
  | .mixed => none

/-- `ggml_storage_alignment`: that of `half::f16`. -/
def ggmlStorageAlignment (_ : GgmlDType) : ℕ := 2

def validateQmatmulProjection (view : QuantProjectionView) (dtype : GgmlDType) :
    Except String Unit :=
  if view.cols % dtype.blockSize ≠ 0 then
    .error "projection columns are not divisible by quantization block size"
  else if view.weights % dtype.blockSize ≠ 0 then
    .error "projection weight count is not divisible by quantization block size"
  else if view.len ≠ view.bytes.length then
    .error "projection byte slice length does not match header range length"
  else if view.bytes.length % dtype.typeSize ≠ 0 then
    .error "projection byte length is not divisible by quantized block byte size"
  else if view.address % ggmlStorageAlignment dtype ≠ 0 then
    .error "projection byte range is not aligned for Candle QStorage"
  else .ok ()

/-- The turn of `matvec_block_stream_reference` for one block, on the scratch buffer and the
output. -/
def streamBlock (view : QuantProjectionView) (x : List ℚ) (blockElems blockBytes : ℕ)
    (decode : List UInt8 → List ℚ → List ℚ) (state : List ℚ × List ℚ) (block : ℕ) :
    List ℚ × List ℚ :=
  let scratch := decode (part view.bytes (block*blockBytes) blockBytes) state.1
  let base := block*blockElems
  let n := min (view.weights-base) blockElems
  ⟨scratch,Writes.accumulate state.2 ((scratch.take n).zipIdx.map fun weight =>
    let flat := base+weight.2
    (flat/view.cols,weight.1*entry x (flat % view.cols)))⟩

def matvecBlockStreamReference (view : QuantProjectionView) (x y : List ℚ)
    (blockElems blockBytes : ℕ) (decode : List UInt8 → List ℚ → List ℚ) :
    Except ExpertWeightsError (List ℚ) :=
  let blocks := divCeil view.weights blockElems
  match checkedMul usizeMax blocks blockBytes with
  | none => .error (.invalidLayout "quantized projection byte size overflow")
  | some need =>
    if view.bytes.length<need then
      .error (.bufferTooSmall view.bytes.length need view.cols view.rows)
    else .ok ((List.range blocks).foldl (streamBlock view x blockElems blockBytes decode)
      (List.replicate blockElems 0,y)).2

def scalarReferenceQuantizedMatvec (floats : Floats) (view : QuantProjectionView) (x y : List ℚ) :
    Except ExpertWeightsError (List ℚ) :=
  match view.dtype with
  | .q4_0 => matvecBlockStreamReference view x y 32 18 (dequantizeQ4_0Block floats.half)
  | .q4k => matvecBlockStreamReference view x y 256 144 (dequantizeQ4kBlock floats.half)
  | .q5k => matvecBlockStreamReference view x y 256 176 (dequantizeQ5kBlock floats.half)
  | .q6k => matvecBlockStreamReference view x y 256 210 (dequantizeQ6kBlock floats.half)
  | .q8_0 => matvecBlockStreamReference view x y 32 34 (dequantizeQ8_0Block floats.half)
  | _ => .error (.invalidLayout (s!"{view.name} projection dtype {view.dtype.asStr} has no " ++
      "scalar quantized fallback"))

def optimizedQuantizedMatvecQmm (candle : Candle) (view : QuantProjectionView) (x y : List ℚ)
    (dtype : GgmlDType) : Except ExpertWeightsError (List ℚ) :=
  match candle.qmatmul dtype view.bytes view.rows view.cols x with
  | .error e => .error (.candle e)
  | .ok tmp =>
    if tmp.length ≠ y.length then
      .error (.invalidLayout (s!"{view.name} projection QMatMul produced {tmp.length} values, " ++
        s!"expected {y.length}"))
    else .ok tmp

def quantizedMatvecQmmOrReference (floats : Floats) (candle : Candle) (view : QuantProjectionView)
    (x y : List ℚ) : Except ExpertWeightsError (ProjectionDispatchKind × List ℚ) :=
  match ggmlDtypeForOptimizedProjection view.dtype with
  | none => (scalarReferenceQuantizedMatvec floats view x y).map (.scalarReference,·)
  | some dtype =>
    match validateQmatmulProjection view dtype with
    | .error _ => (scalarReferenceQuantizedMatvec floats view x y).map (.scalarReference,·)
    | .ok _ => (optimizedQuantizedMatvecQmm candle view x y dtype).map (.qMatMul,·)

/-- `dense_matvec_f32`, `dense_matvec_f16` and `dense_matvec_bf16`: every output is the sum over a row
of numbers of `width` bytes. -/
def denseMatvec (view : QuantProjectionView) (x y : List ℚ) (width : ℕ)
    (decode : List UInt8 → ℚ) : Except ExpertWeightsError (List ℚ) :=
  match checkedMul usizeMax view.weights width with
  | none => .error (.invalidLayout s!"{view.name} projection byte size overflow")
  | some need =>
    if view.bytes.length<need then
      .error (.bufferTooSmall view.bytes.length need view.cols view.rows)
    else .ok ((List.range y.length).map fun row =>
      let rowBytes := part view.bytes (row*view.cols*width) (view.cols*width)
      let chunks := (List.range view.cols).map fun col => part rowBytes (col*width) width
      (chunks.zip x).foldl (fun acc term => acc+decode term.1*term.2) 0)

/-- A number of two bytes. -/
def twoBytes (number : UInt16 → ℚ) (chunk : List UInt8) : ℚ :=
  number (u16FromLeBytes (byteAt chunk 0) (byteAt chunk 1))

def quantizedMatvecInto (floats : Floats) (candle : Candle) (view : QuantProjectionView)
    (x y : List ℚ) : Except ExpertWeightsError (ProjectionDispatchKind × List ℚ) :=
  if x.length ≠ view.cols then
    .error (.invalidLayout (s!"{view.name} projection input length {x.length} does not match " ++
      s!"cols {view.cols}"))
  else if y.length ≠ view.rows then
    .error (.invalidLayout (s!"{view.name} projection output length {y.length} does not match " ++
      s!"rows {view.rows}"))
  else
    let y := List.replicate y.length 0
    match view.dtype with
    | .f32 => (denseMatvec view x y 4 floats.single).map (.dense,·)
    | .f16 => (denseMatvec view x y 2 (twoBytes floats.half)).map (.dense,·)
    | .bf16 => (denseMatvec view x y 2 (twoBytes floats.bfloat)).map (.dense,·)
    | .int8 => unsupported
    | .mxfp4 => unsupported
    | .mixed => unsupported
    | _ => quantizedMatvecQmmOrReference floats candle view x y
where
  unsupported : Except ExpertWeightsError (ProjectionDispatchKind × List ℚ) :=
    .error (.invalidLayout (s!"{view.name} projection dtype {view.dtype.asStr} is not " ++
      "executable by direct mixed dispatch"))

end MicroExpertRouter.Quant
