import MicroExpertRouter.Gguf.Format
import MicroExpertRouter.Lib.Fields
import MicroExpertRouter.Quant.Projections

/-! The tensors that the converter of `gguf_loader.rs` reads, as bytes or as floats. A float is its
bits; the values of a dtype other than `F32` are a parameter. -/
namespace MicroExpertRouter.Converter
open Gguf (GgufTensorInfo GgufValue Table)
open Quant (WeightDtype part divCeil)

/-- An error by its kind, an error of the source that is read, or the end of the program by an
assertion. -/
inductive Failure
  | notFound (message : String)
  | invalidData (message : String)
  | invalidInput (message : String)
  | unsupported (message : String)
  | unexpectedEof (message : String)
  | source (e : Gguf.Failure)
  | panic
  deriving DecidableEq, Repr

/-- The text of an error. -/
def Failure.text : Failure → String
  | notFound message => message
  | invalidData message => message
  | invalidInput message => message
  | unsupported message => message
  | unexpectedEof message => message
  | source (.error e) => e.message
  | source .panic => ""
  | panic => ""

/-- The trait. -/
structure GgufSource where
  metadata : Table GgufValue
  tensorInfo : String → Option GgufTensorInfo
  readTensorOwned : String → Except Gguf.Failure (Option (List UInt8))

def GgufSource.hasTensor (self : GgufSource) (name : String) : Bool := (self.tensorInfo name).isSome

def ggmlToWeightDtype (code : ℕ) : Option WeightDtype :=
  if code = Gguf.GgmlDtype.f32 then some .f32
  else if code = Gguf.GgmlDtype.f16 then some .f16
  else if code = Gguf.GgmlDtype.bf16 then some .bf16
  else if code = Gguf.GgmlDtype.q4_0 then some .q4_0
  else if code = Gguf.GgmlDtype.q4K then some .q4k
  else if code = Gguf.GgmlDtype.q5K then some .q5k
  else if code = Gguf.GgmlDtype.q6K then some .q6k
  else if code = Gguf.GgmlDtype.q8_0 then some .q8_0
  else none

def nativeBlockSpec : WeightDtype → Option (ℕ × ℕ)
  | .q4_0 => some (32,18)
  | .q4k => some (256,144)
  | .q5k => some (256,176)
  | .q6k => some (256,210)
  | .q8_0 => some (32,34)
  | _ => none

/-- The tensor of all experts of a layer. -/
def interleavedName (layer : ℕ) (projection : String) : String :=
  s!"blk.{layer}.ffn_{projection}_exps.weight"

/-- The tensor of one expert. -/
def perExpertName (layer expert : ℕ) (projection : String) : String :=
  s!"blk.{layer}.ffn_{projection}.{expert}.weight"

/-- The data of a tensor: `read_tensor`, and the beginning of `dense_tensor_to_f32`. -/
def tensorData (gguf : GgufSource) (info : GgufTensorInfo) : Except Failure (List UInt8) :=
  match gguf.readTensorOwned info.name with
  | .error e => .error (.source e)
  | .ok none => .error (.invalidData s!"tensor {info.name} has no data slice")
  | .ok (some data) => .ok data

def readTensor (gguf : GgufSource) (name : String) : Except Failure (List UInt8) :=
  match gguf.tensorInfo name with
  | none => .error (.notFound s!"tensor {name} missing")
  | some info => tensorData gguf info

/-- `elem_count`, which wraps. -/
def elemCount (info : GgufTensorInfo) : ℕ := info.shape.prod % 2^64

/-- The values of a number of elements. -/
abbrev Dequantize := WeightDtype → List UInt8 → ℕ → List UInt32

/-- `f32::from_le_bytes` of every four bytes. -/
def f32FromLe (data : List UInt8) (elems : ℕ) : List UInt32 :=
  (List.range elems).map fun i => .ofNat (Fields.readLe data (i*4) 4)

def bytesToF32 (dequantize : Dequantize) (data : List UInt8) (dtype elems : ℕ) (name : String) :
    Except Failure (List UInt32) :=
  match ggmlToWeightDtype dtype with
  | some .f32 =>
    if data.length<elems*4 then .error (.unexpectedEof s!"tensor {name}: short F32 buffer")
    else .ok (f32FromLe data elems)
  | some .f16 =>
    if data.length<elems*2 then .error (.unexpectedEof s!"tensor {name}: short F16 buffer")
    else .ok (dequantize .f16 (data.take (elems*2)) elems)
  | some .bf16 =>
    if data.length<elems*2 then .error (.unexpectedEof s!"tensor {name}: short BF16 buffer")
    else .ok (dequantize .bf16 (data.take (elems*2)) elems)
  | some block =>
    match nativeBlockSpec block with
    | none => .error (.unsupported s!"tensor {name}: unsupported dtype code {dtype}")
    | some spec =>
      if data.length<divCeil elems spec.1*spec.2 then .error .panic
      else .ok (dequantize block data elems)
  | none => .error (.unsupported s!"tensor {name}: unsupported dtype code {dtype}")

def denseTensorToF32 (dequantize : Dequantize) (gguf : GgufSource) (info : GgufTensorInfo) :
    Except Failure (List UInt32) := do
  let data ← tensorData gguf info
  bytesToF32 dequantize data info.ggmlDtype (elemCount info) info.name

/-- `dense_layer_tensor_f32`, and `load_per_expert_matrix`, which has a longer text. -/
def tensorF32 (dequantize : Dequantize) (gguf : GgufSource) (name shape : String) (expected : ℕ) :
    Except Failure (List UInt32) :=
  match gguf.tensorInfo name with
  | none => .error (.notFound s!"tensor {name} missing")
  | some info => do
    let v ← denseTensorToF32 dequantize gguf info
    if v.length ≠ expected then
      .error (.invalidData s!"tensor {name} has {v.length} elements, expected {expected}{shape}")
    else return v

/-- The three matrices of an expert, as bytes or as floats. -/
structure Matrices (α : Type) where
  gate : List α
  up : List α
  down : List α

def Matrices.join {α : Type} (self : Matrices α) : List α := self.gate++self.up++self.down

section Floats
variable (dequantize : Dequantize) (gguf : GgufSource)

/-- `load_expert_matrices`, where the layer has no tensor of all experts. -/
def loadExpertMatrices (layer expert dModel dFf : ℕ) : Except Failure (Matrices UInt32) :=
  if gguf.hasTensor (perExpertName layer expert "gate") then do
    let gate ← tensorF32 dequantize gguf (perExpertName layer expert "gate") s!" ({dFf}x{dModel})"
      (dFf*dModel)
    let up ← tensorF32 dequantize gguf (perExpertName layer expert "up") s!" ({dFf}x{dModel})"
      (dFf*dModel)
    let down ← tensorF32 dequantize gguf (perExpertName layer expert "down") s!" ({dModel}x{dFf})"
      (dModel*dFf)
    return ⟨gate,up,down⟩
  else .error (.notFound s!"layer {layer} expert {expert} has no expert weight tensors")

def loadLayerExpertMatrices (layer numExperts dModel dFf : ℕ) :
    Except Failure (List (Matrices UInt32)) :=
  if gguf.hasTensor (interleavedName layer "gate") then do
    let gateAll ← tensorF32 dequantize gguf (interleavedName layer "gate") "" (numExperts*dFf*dModel)
    let upAll ← tensorF32 dequantize gguf (interleavedName layer "up") "" (numExperts*dFf*dModel)
    let downAll ← tensorF32 dequantize gguf (interleavedName layer "down") "" (numExperts*dModel*dFf)
    let perGateUp := dFf*dModel
    let perDown := dModel*dFf
    return (List.range numExperts).map fun e =>
      ⟨slice gateAll (e*perGateUp) perGateUp,slice upAll (e*perGateUp) perGateUp,
        slice downAll (e*perDown) perDown⟩
  else if gguf.hasTensor (perExpertName layer 0 "gate") then
    (List.range numExperts).mapM fun e => loadExpertMatrices dequantize gguf layer e dModel dFf
  else .error (.notFound s!"layer {layer} has no expert weight tensors")
where
  /-- `all[start..start + len]`. -/
  slice (all : List UInt32) (start len : ℕ) : List UInt32 := (all.drop start).take len

end Floats

section Native
variable (gguf : GgufSource)

/-- `read_layer_tensor`. -/
def readLayerTensor (numExperts : ℕ) (name : String) (size : ℕ) : Except Failure (List UInt8) := do
  let buf ← readTensor gguf name
  match checkedMul usizeMax numExperts size with
  | none => .error (.invalidData "layer tensor byte size overflow")
  | some need =>
    if buf.length<need then
      .error (.unexpectedEof s!"tensor {name}: expected {need} quantised bytes, got {buf.length}")
    else return buf

/-- `read_per_expert`. -/
def readPerExpert (name : String) (size : ℕ) : Except Failure (List UInt8) := do
  let buf ← readTensor gguf name
  if buf.length<size then
    .error (.unexpectedEof s!"tensor {name}: expected {size} quantised bytes, got {buf.length}")
  else return buf.take size

def loadLayerExpertNativeQuant (layer numExperts dModel dFf : ℕ) (dtype : WeightDtype) :
    Except Failure (List (Matrices UInt8)) :=
  match nativeBlockSpec dtype with
  | none => .error (.invalidInput ("load_layer_expert_native_quant: dtype must be Q4_0, Q4_K, " ++
      "Q5_K, Q6_K, or Q8_0"))
  | some spec =>
    match checkedMul usizeMax dFf dModel with
    | none => .error (.invalidData "d_ff * d_model overflow")
    | some perExpertWeights =>
      if perExpertWeights % spec.1 ≠ 0 then
        .error (.invalidData (s!"per-expert weight count {perExpertWeights} is not block-aligned " ++
          s!"for {dtype.asStr}"))
      else
        match checkedMul usizeMax (perExpertWeights/spec.1) spec.2 with
        | none => .error (.invalidData "expert byte size overflow")
        | some size =>
          if gguf.hasTensor (interleavedName layer "gate") then do
            let gateAll ← readLayerTensor gguf numExperts (interleavedName layer "gate") size
            let upAll ← readLayerTensor gguf numExperts (interleavedName layer "up") size
            let downAll ← readLayerTensor gguf numExperts (interleavedName layer "down") size
            return (List.range numExperts).map fun e =>
              ⟨part gateAll (e*size) size,part upAll (e*size) size,part downAll (e*size) size⟩
          else
            (List.range numExperts).mapM fun e => do
              let gate ← readPerExpert gguf (perExpertName layer e "gate") size
              let up ← readPerExpert gguf (perExpertName layer e "up") size
              let down ← readPerExpert gguf (perExpertName layer e "down") size
              return ⟨gate,up,down⟩

end Native

end MicroExpertRouter.Converter
