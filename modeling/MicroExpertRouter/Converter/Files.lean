import MicroExpertRouter.Converter.Layouts

/-! The expert files that the converter of `gguf_loader.rs` writes: the parameters of the model, the
sizes, the headers and the payloads. -/
namespace MicroExpertRouter.Converter
open Gguf (GgufTensorInfo GgufValue Table)
open Quant (WeightDtype divCeil)
open Storage (TensorHeader MixedExpertHeader ProjectionRange UthDtypeId)

def defaultBlockAlign : ℕ := 4096

def q4_0LayoutStandardV1 : String := "ggml-standard-v1"

section Geometry

/-- `metadata_lookup`. -/
def lookup (table : Table GgufValue) (arch : Option String) (suffix : String) : Option GgufValue :=
  let dotted := "."++suffix
  (Lru.peek table ("llama"++dotted)).or
    ((arch.bind fun a => Lru.peek table (a++dotted)).or
      ((table.filter fun entry => entry.1.endsWith dotted).foldl least none |>.map Prod.snd))
where
  /-- The entry with the smaller key. -/
  least (best : Option (String × GgufValue)) (entry : String × GgufValue) :
      Option (String × GgufValue) :=
    match best with
    | none => some entry
    | some kept => if entry.1<kept.1 then some entry else some kept

structure Geometry where
  numLayers : ℕ
  numExperts : ℕ
  dModel : ℕ
  dFf : ℕ

def architecture (gguf : GgufSource) : Option String :=
  (Lru.peek gguf.metadata "general.architecture").bind GgufValue.asStr

/-- The parameters that the metadata or the hints say. -/
def resolveGeometry (gguf : GgufSource) (numLayersHint numExpertsHint : ℕ) :
    Except Failure Geometry :=
  let number := fun suffix => (lookup gguf.metadata (architecture gguf) suffix).bind GgufValue.asU64
  match if 0<numLayersHint then some numLayersHint else number "block_count" with
  | none => .error (.invalidData "GGUF missing `block_count`; pass --num-layers explicitly")
  | some numLayers =>
    let numExperts := if 0<numExpertsHint then numExpertsHint else (number "expert_count").getD 0
    if numExperts = 0 then
      .error (.invalidData "GGUF has no `expert_count` and no --num-experts override")
    else
      match number "embedding_length" with
      | none => .error (.invalidData "GGUF missing embedding_length")
      | some dModel =>
        let length := (lookup gguf.metadata (architecture gguf) "expert_feed_forward_length").or
          (lookup gguf.metadata (architecture gguf) "feed_forward_length")
        match length.bind GgufValue.asU64 with
        | none => .error (.invalidData "GGUF missing feed_forward_length")
        | some dFf => .ok ⟨numLayers,numExperts,dModel,dFf⟩

end Geometry

section Sizes

def expertWeightCount (dModel dFf : ℕ) : ℕ :=
  saturatingMul usizeMax (saturatingMul usizeMax dModel dFf) 3

def mxfp4ProjectionBytes (rows cols : ℕ) : ℕ :=
  saturatingAdd usizeMax (saturatingMul usizeMax rows (divCeil cols 2))
    (saturatingMul usizeMax rows (divCeil cols 32))

/-- Three matrices of whole blocks each. -/
def threeBlockBytes (dModel dFf elems bytes : ℕ) : ℕ :=
  let oneBlocks := divCeil (saturatingMul usizeMax dModel dFf) elems
  saturatingMul usizeMax (saturatingMul usizeMax oneBlocks 3) bytes

def expertWeightBytesFor (dModel dFf : ℕ) : WeightDtype → ℕ
  | .q4k => saturatingMul usizeMax (divCeil (expertWeightCount dModel dFf) 256) 144
  | .q4_0 => threeBlockBytes dModel dFf 32 18
  | .q8_0 => threeBlockBytes dModel dFf 32 34
  | .q5k => threeBlockBytes dModel dFf 256 176
  | .q6k => threeBlockBytes dModel dFf 256 210
  | .mxfp4 =>
    let gate := mxfp4ProjectionBytes dFf dModel
    let up := mxfp4ProjectionBytes dFf dModel
    let down := mxfp4ProjectionBytes dModel dFf
    saturatingAdd usizeMax (saturatingAdd usizeMax gate up) down
  | .mixed => 0
  | .f32 => saturatingMul usizeMax (expertWeightCount dModel dFf) 4
  | .f16 => saturatingMul usizeMax (expertWeightCount dModel dFf) 2
  | .bf16 => saturatingMul usizeMax (expertWeightCount dModel dFf) 2
  | .int8 => saturatingAdd usizeMax (expertWeightCount dModel dFf) 12

end Sizes

section Headers

/-- `UthDtypeId::from_weight`. -/
def fromWeight : WeightDtype → UthDtypeId
  | .f32 => .f32
  | .f16 => .f16
  | .int8 => .int8
  | .q4k => .q4K
  | .q4_0 => .q4_0
  | .q8_0 => .q8_0
  | .bf16 => .bf16
  | .mxfp4 => .mxfp4
  | .q5k => .q5K
  | .q6k => .q6K
  | .mixed => .mixed

/-- `TensorHeader::for_swiglu_expert`. -/
def forSwigluExpert (dtype : WeightDtype) (dModel dFf : ℕ) : TensorHeader where
  version := .ofNat Storage.uthVersion
  dtype := fromWeight dtype
  shape := #v[.ofNat dFf,.ofNat dModel,3,0]
  shapeRank := 3
  quantScaleOffset := 0
  quantScaleCount := if dtype = .int8 then 3 else 0
  amxTileM := 16
  amxTileN := 16
  amxTileK := 64
  flags := Storage.uthFlagPageAlignedPayload

def projectionRange (spec : ProjectionQuantSpec) (offset : ℕ) (bytes : List UInt8) :
    ProjectionRange where
  dtype := fromWeight spec.dtype
  offset := .ofNat offset
  len := .ofNat bytes.length
  weights := .ofNat spec.weights

/-- The header of an expert of a mixed plan. -/
def mixedHeader (dModel dFf : ℕ) (layout : ProjectionQuantLayout) (matrices : Matrices UInt8) :
    MixedExpertHeader :=
  .new dModel dFf (projectionRange layout.gate 0 matrices.gate)
    (projectionRange layout.up matrices.gate.length matrices.up)
    (projectionRange layout.down (matrices.gate.length+matrices.up.length) matrices.down)

end Headers

section Files

def expertName (id : ℕ) : String := s!"expert_{id}.bin"

/-- A file of at least this size. -/
def padTo (size : ℕ) (bytes : List UInt8) : List UInt8 :=
  bytes++List.replicate (size-bytes.length) 0

def f32ToLe (values : List UInt32) : List UInt8 := values.flatMap fun v => Le.encode 4 v.toNat

/-- The file of an expert whose layout is the same for all. -/
def uniformFile (emitUth : Bool) (dtype : WeightDtype) (dModel dFf expertSize : ℕ)
    (payload : List UInt8) : List UInt8 :=
  let header := if emitUth then (forSwigluExpert dtype dModel dFf).writePadded defaultBlockAlign []
    else []
  padTo expertSize (header++payload)

def mixedFile (emitUth : Bool) (dModel dFf expertSize : ℕ) (layout : ProjectionQuantLayout)
    (matrices : Matrices UInt8) : Except Failure (List UInt8) :=
  if emitUth ∧ usizeMax < matrices.gate.length+matrices.up.length then
    .error (.invalidData "mixed expert payload offset overflow")
  else
    let header := if emitUth then
      (mixedHeader dModel dFf layout matrices).writePadded defaultBlockAlign [] else []
    .ok (padTo expertSize (header++matrices.join))

/-- The files of a layer, expert by expert. -/
def layerFiles (dequantize : Dequantize) (gguf : GgufSource) (geometry : Geometry) (emitUth : Bool)
    (plan : Option NativeQuantPlan) (expertSize layer : ℕ) :
    Except Failure (List (List UInt8)) :=
  match plan with
  | some (.homogeneous dtype) => do
    let perExpert ← loadLayerExpertNativeQuant gguf layer geometry.numExperts geometry.dModel
      geometry.dFf dtype
    return perExpert.map fun matrices =>
      uniformFile emitUth dtype geometry.dModel geometry.dFf expertSize matrices.join
  | some (.mixed layouts _ _ _) => do
    let perExpert ← loadLayerExpertNativeMixed gguf layer geometry.numExperts layouts
    perExpert.mapM fun expert =>
      mixedFile emitUth geometry.dModel geometry.dFf expertSize expert.1 expert.2
  | none => do
    let perExpert ← loadLayerExpertMatrices dequantize gguf layer geometry.numExperts
      geometry.dModel geometry.dFf
    return perExpert.map fun matrices =>
      uniformFile emitUth .f32 geometry.dModel geometry.dFf expertSize (f32ToLe matrices.join)

/-- The writes of a layer, by the global ids of its experts. -/
def layerWrites (numExperts layer : ℕ) (files : List (List UInt8)) :
    List (String × List UInt8) :=
  files.zipIdx.map fun file => (expertName (layer*numExperts+file.2),file.1)

end Files

end MicroExpertRouter.Converter
