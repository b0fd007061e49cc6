import MicroExpertRouter.Converter.Extraction
import MicroExpertRouter.Lib.Chunks

/-! What the engine reads of an expert file: the payload behind the header, of `expert_cache.rs`, and
the three matrices in it where the decoders of `inference.rs` slice them. Beside it what the source
says of an expert. -/
namespace MicroExpertRouter.Converter
open Gguf (GgufTensorInfo)
open Quant (WeightDtype ExpertWeightsError QuantProjectionView part divCeil projectionView)
open Storage (TensorHeader MixedExpertHeader)

structure ExpertResident where
  buffer : List UInt8
  payloadOffset : ℕ
  mixedLayout : Option MixedExpertHeader

namespace ExpertResident

def newWithBlockAlign (buffer : List UInt8) (blockAlign : ℕ) : ExpertResident :=
  let stripped :=
    match MixedExpertHeader.strip buffer blockAlign with
    | some (h,payload) => (payload,some h)
    | none => ((TensorHeader.strip buffer blockAlign).2,none)
  ⟨buffer,buffer.length-stripped.1.length,stripped.2⟩

def data (self : ExpertResident) : List UInt8 := self.buffer.drop self.payloadOffset

end ExpertResident

/-- A matrix as its decoder slices it: values, or bytes of a dtype. -/
inductive Projection
  | floats (values : List UInt32)
  | blocks (dtype : WeightDtype) (bytes : List UInt8)
  deriving DecidableEq

structure ExpertSlices where
  gate : Projection
  up : Projection
  down : Projection
  deriving DecidableEq

/-- Matrices of floats. -/
def Matrices.floats (self : Matrices UInt32) : ExpertSlices :=
  ⟨.floats self.gate,.floats self.up,.floats self.down⟩

/-- Matrices of one dtype. -/
def Matrices.blocks (dtype : WeightDtype) (self : Matrices UInt8) : ExpertSlices :=
  ⟨.blocks dtype self.gate,.blocks dtype self.up,.blocks dtype self.down⟩

section Decoders

/-- The errors of the decoders. -/
inductive ReadError
  | weights (e : ExpertWeightsError)
  | misaligned (addr required : ℕ)
  deriving DecidableEq

/-- `ExpertWeights::from_bytes`, of the bytes at an address. -/
def fromBytes (bytes : List UInt8) (address dModel dFf : ℕ) : Except ReadError (Matrices UInt32) :=
  let needFloats := expertWeightCount dModel dFf
  let needBytes := saturatingMul usizeMax needFloats 4
  if bytes.length<needBytes then
    .error (.weights (.bufferTooSmall bytes.length needBytes dModel dFf))
  else if address % 4 ≠ 0 then .error (.misaligned address 4)
  else
    let floats := f32FromLe bytes needFloats
    let gateLen := dFf*dModel
    let upLen := dFf*dModel
    let downLen := dModel*dFf
    .ok ⟨floats.take gateLen,(floats.drop gateLen).take upLen,
      ((floats.drop gateLen).drop upLen).take downLen⟩

/-- The slices of three matrices of whole blocks each, before the blocks are decoded. -/
def fromBlocks (elems blockBytes : ℕ) (bytes : List UInt8) (dModel dFf : ℕ) :
    Except ReadError (Matrices UInt8) :=
  let gateN := saturatingMul usizeMax dFf dModel
  let upN := saturatingMul usizeMax dFf dModel
  let downN := saturatingMul usizeMax dModel dFf
  let gateBlocks := divCeil gateN elems
  let upBlocks := divCeil upN elems
  let downBlocks := divCeil downN elems
  let needBytes := saturatingMul usizeMax (gateBlocks+upBlocks+downBlocks) blockBytes
  if bytes.length<needBytes then
    .error (.weights (.bufferTooSmall bytes.length needBytes dModel dFf))
  else .ok ⟨part bytes 0 (gateBlocks*blockBytes),part bytes (gateBlocks*blockBytes) (upBlocks*blockBytes),
    part bytes (gateBlocks*blockBytes+upBlocks*blockBytes) (downBlocks*blockBytes)⟩

def fromBytesQ4k : List UInt8 → ℕ → ℕ → Except ReadError (Matrices UInt8) := fromBlocks 256 144

/-- Without a tolerance for payloads that are too short. -/
def fromBytesQ4_0 : List UInt8 → ℕ → ℕ → Except ReadError (Matrices UInt8) := fromBlocks 32 18

def fromBytesQ8_0 : List UInt8 → ℕ → ℕ → Except ReadError (Matrices UInt8) := fromBlocks 32 34

def fromBytesQ5k : List UInt8 → ℕ → ℕ → Except ReadError (Matrices UInt8) := fromBlocks 256 176

def fromBytesQ6k : List UInt8 → ℕ → ℕ → Except ReadError (Matrices UInt8) := fromBlocks 256 210

structure MixedQuantExpertView where
  gate : QuantProjectionView
  up : QuantProjectionView
  down : QuantProjectionView

def MixedQuantExpertView.fromPayload (payload : List UInt8) (address : ℕ) (header : MixedExpertHeader)
    (dModel dFf : ℕ) : Except ExpertWeightsError MixedQuantExpertView :=
  if header.dModel.toNat ≠ dModel ∨ header.dFf.toNat ≠ dFf then
    .error (.invalidLayout (s!"UTH2 shape d_model={header.dModel} d_ff={header.dFf} does not match " ++
      s!"runtime d_model={dModel} d_ff={dFf}"))
  else
    match header.validate payload.length with
    | .error e => .error (.invalidLayout e)
    | .ok _ => do
      let gate ← projectionView payload address header.gate dFf dModel "gate"
      let up ← projectionView payload address header.up dFf dModel "up"
      let down ← projectionView payload address header.down dModel dFf "down"
      return ⟨gate,up,down⟩

def MixedQuantExpertView.slices (self : MixedQuantExpertView) : ExpertSlices :=
  ⟨.blocks self.gate.dtype self.gate.bytes,.blocks self.up.dtype self.up.bytes,
    .blocks self.down.dtype self.down.bytes⟩

/-- The beginning of `run_inference_mixed_quant`. -/
def mixedSlices (resident : ExpertResident) (address dModel dFf : ℕ) :
    Except ReadError ExpertSlices :=
  match resident.mixedLayout with
  | none => .error (.weights (.invalidLayout ("runtime dtype is mixed but resident expert has no " ++
      "valid UTH2 header")))
  | some header =>
    ((MixedQuantExpertView.fromPayload resident.data address header dModel dFf).mapError
      ReadError.weights).map MixedQuantExpertView.slices

/-- The matrices as the decoder of a dtype slices them, of a buffer at an address; none for a dtype
that the converter does not write. -/
def expertSlices (dtype : WeightDtype) (resident : ExpertResident) (address dModel dFf : ℕ) :
    Option (Except ReadError ExpertSlices) :=
  let data := resident.data
  let start := address+resident.payloadOffset
  match dtype with
  | .f32 => some ((fromBytes data start dModel dFf).map Matrices.floats)
  | .q4k => some ((fromBytesQ4k data dModel dFf).map (Matrices.blocks .q4k))
  | .q4_0 => some ((fromBytesQ4_0 data dModel dFf).map (Matrices.blocks .q4_0))
  | .q8_0 => some ((fromBytesQ8_0 data dModel dFf).map (Matrices.blocks .q8_0))
  | .q5k => some ((fromBytesQ5k data dModel dFf).map (Matrices.blocks .q5k))
  | .q6k => some ((fromBytesQ6k data dModel dFf).map (Matrices.blocks .q6k))
  | .mixed => some (mixedSlices resident start dModel dFf)
  | .f16 => none
  | .int8 => none
  | .bf16 => none
  | .mxfp4 => none

end Decoders

section Origin

/-- The tensor of a projection of an expert, the number of experts in it, and the place of this
one. -/
structure Home where
  name : String
  copies : ℕ
  index : ℕ

def home (gguf : GgufSource) (numExperts layer expert : ℕ) (projection : String) : Home :=
  if gguf.hasTensor (interleavedName layer "gate") then
    ⟨interleavedName layer projection,numExperts,expert⟩
  else ⟨perExpertName layer expert projection,1,0⟩

/-- What the source says of a projection: its share of the bytes of the tensor, or of the values. -/
inductive Origin (dequantize : Dequantize) (gguf : GgufSource) (home : Home) : Bool → Projection → Prop
  | native {info : GgufTensorInfo} {dtype : WeightDtype} {data : List UInt8}
      (hinfo : gguf.tensorInfo home.name = some info)
      (hdtype : ggmlToWeightDtype info.ggmlDtype = some dtype) (hdata : tensorData gguf info = .ok data) :
      Origin dequantize gguf home true
        (.blocks dtype (Chunks.share data (info.byteLen/home.copies) home.index))
  | decoded {info : GgufTensorInfo} {values : List UInt32}
      (hinfo : gguf.tensorInfo home.name = some info)
      (hvalues : denseTensorToF32 dequantize gguf info = .ok values) :
      Origin dequantize gguf home false
        (.floats (Chunks.share values (values.length/home.copies) home.index))

/-- The three projections of an expert of a layer are those of the source. -/
structure FromSource (dequantize : Dequantize) (gguf : GgufSource) (native : Bool)
    (numExperts layer expert : ℕ) (slices : ExpertSlices) : Prop where
  gate : Origin dequantize gguf (home gguf numExperts layer expert "gate") native slices.gate
  up : Origin dequantize gguf (home gguf numExperts layer expert "up") native slices.up
  down : Origin dequantize gguf (home gguf numExperts layer expert "down") native slices.down

end Origin

end MicroExpertRouter.Converter
