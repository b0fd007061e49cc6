import MicroExpertRouter.Converter.Sources

/-! The dtypes of the expert tensors of a source, and the plan to write their blocks as they are. -/
namespace MicroExpertRouter.Converter
open Gguf (GgufTensorInfo)
open Quant (WeightDtype part projectionWeightBytesFor)

def dtypeLabel : WeightDtype → String
  | .f32 => "F32"
  | .f16 => "F16"
  | .int8 => "INT8"
  | .q4k => "Q4_K"
  | .q4_0 => "Q4_0"
  | .q8_0 => "Q8_0"
  | .q5k => "Q5_K"
  | .q6k => "Q6_K"
  | .bf16 => "BF16"
  | .mxfp4 => "MXFP4"
  | .mixed => "MIXED"

/-- A projection of blocks. -/
structure ProjectionQuantSpec where
  dtype : WeightDtype
  blockElems : ℕ
  blockBytes : ℕ
  weights : ℕ
  payloadBytes : ℕ
  block_eq : nativeBlockSpec dtype = some (blockElems,blockBytes)
  payload_eq : projectionWeightBytesFor weights dtype = some payloadBytes

structure ProjectionQuantLayout where
  gate : ProjectionQuantSpec
  up : ProjectionQuantSpec
  down : ProjectionQuantSpec

namespace ProjectionQuantLayout

def payloadBytes (self : ProjectionQuantLayout) : Option ℕ := do
  let sum ← checkedAdd usizeMax self.gate.payloadBytes self.up.payloadBytes
  checkedAdd usizeMax sum self.down.payloadBytes

def uniformDtype (self : ProjectionQuantLayout) : Option WeightDtype :=
  if self.gate.dtype = self.up.dtype ∧ self.gate.dtype = self.down.dtype then some self.gate.dtype
  else none

def allProjectionsBlockAligned (self : ProjectionQuantLayout) : Bool :=
  [self.gate,self.up,self.down].all fun spec => spec.weights % spec.blockElems = 0

end ProjectionQuantLayout

/-- `triple_key` of three dtypes in lower case, as the histograms have it. -/
def layoutKey (gate up down : WeightDtype) : List Char :=
  ((dtypeLabel gate).toList++ '/'::(dtypeLabel up).toList++ '/'::(dtypeLabel down).toList).map
    Char.toLower

def ProjectionQuantLayout.key (self : ProjectionQuantLayout) : List Char :=
  layoutKey self.gate.dtype self.up.dtype self.down.dtype

/-- What the scan leaves for the plan. -/
structure ExpertQuantScan where
  layouts : List ProjectionQuantLayout
  rejectionReasons : List String

def nativeSpecForTensor (info : GgufTensorInfo) (weights : ℕ) (requireBlockAligned : Bool)
    (label : String) : Except String ProjectionQuantSpec :=
  match ggmlToWeightDtype info.ggmlDtype with
  | none => .error (s!"{label} uses GGML dtype {info.ggmlDtype}, which MER can size but cannot " ++
      "decode natively")
  | some dtype =>
    match hblock : nativeBlockSpec dtype with
    | none => .error (s!"{label} uses {dtype.asStr}, which is not a native quantized expert " ++
        "projection dtype")
    | some (blockElems,blockBytes) =>
      if requireBlockAligned ∧ weights % blockElems ≠ 0 then
        .error (s!"{label} has {weights} weights, not divisible by {blockElems} block elements " ++
          s!"for {dtypeLabel dtype}")
      else
        match hpayload : projectionWeightBytesFor weights dtype with
        | none => .error s!"{label} payload byte size is unsupported for {dtype.asStr}"
        | some payloadBytes => .ok ⟨dtype,blockElems,blockBytes,weights,payloadBytes,hblock,hpayload⟩

/-- One turn of the loop over the projections: a tensor of so many experts. -/
def scanProjection (gguf : GgufSource) (weights : ℕ) (aligned : Bool) (copies : ℕ)
    (label name : String) : Except Failure (Option ProjectionQuantSpec × List String) :=
  match gguf.tensorInfo name with
  | none => .ok (none,[s!"missing tensor {name}"])
  | some info =>
    match nativeSpecForTensor info weights aligned label with
    | .error reason => .ok (none,[reason])
    | .ok spec =>
      match checkedMul usizeMax copies spec.payloadBytes with
      | none => .error (.invalidData s!"tensor {name} byte count overflow")
      | some expected =>
        .ok (some spec,if info.byteLen ≠ expected then
          [s!"tensor {name} has {info.byteLen} bytes, expected {expected}"] else [])

/-- The loop over the projections: there is a layout when each has a specification. -/
def scanProjections (gguf : GgufSource) (weights : ℕ) (aligned : Bool) (copies : ℕ)
    (label name : String → String) : Except Failure (Option ProjectionQuantLayout × List String) := do
  let gate ← scanProjection gguf weights aligned copies (label "gate") (name "gate")
  let up ← scanProjection gguf weights aligned copies (label "up") (name "up")
  let down ← scanProjection gguf weights aligned copies (label "down") (name "down")
  return (layoutOf gate.1 up.1 down.1,gate.2++up.2++down.2)
where
  layoutOf : Option ProjectionQuantSpec → Option ProjectionQuantSpec → Option ProjectionQuantSpec →
      Option ProjectionQuantLayout
    | some gate, some up, some down => some ⟨gate,up,down⟩
    | _, _, _ => none

/-- One turn of the loop over the layers. -/
def scanLayer (gguf : GgufSource) (numExperts weights layer : ℕ) : Except Failure ExpertQuantScan :=
  if gguf.hasTensor (interleavedName layer "gate") then do
    let scanned ← scanProjections gguf weights true numExperts
      (fun projection => s!"layer {layer} {projection} projection") (interleavedName layer)
    return ⟨scanned.1.toList.flatMap (List.replicate numExperts),scanned.2⟩
  else if gguf.hasTensor (perExpertName layer 0 "gate") then do
    let scanned ← (List.range numExperts).mapM fun e => scanProjections gguf weights false 1
      (fun projection => s!"layer {layer} expert {e} {projection} projection") (perExpertName layer e)
    return ⟨scanned.filterMap Prod.fst,scanned.flatMap Prod.snd⟩
  else .ok ⟨[],[s!"layer {layer} has neither interleaved expert tensors nor per-expert tensors"]⟩

def scanExpertQuantLayouts (gguf : GgufSource) (numLayers numExperts dModel dFf : ℕ) :
    Except Failure ExpertQuantScan :=
  match checkedMul usizeMax dFf dModel with
  | none => .error (.invalidData "d_ff * d_model overflow")
  | some weights => do
    let layers ← (List.range numLayers).mapM fun layer => scanLayer gguf numExperts weights layer
    return ⟨layers.flatMap (·.layouts),layers.flatMap (·.rejectionReasons)⟩

/-- `n + (align - rem)`, which does not overflow for the sizes of experts. -/
def alignUp (n align : ℕ) : ℕ :=
  let rem := n % align
  if rem = 0 then n else n+(align-rem)

/-- A `BTreeMap` that counts, sorted by its keys. -/
abbrev Histogram := List (List Char × ℕ)

/-- `*hist.entry(key).or_default() += 1`. -/
def bump (key : List Char) : Histogram → Histogram
  | [] => [(key,1)]
  | (k,n)::rest =>
    if key = k then (k,n+1)::rest
    else if key<k then (key,1)::(k,n)::rest
    else (k,n)::bump key rest

def tally (keys : List (List Char)) : Histogram := keys.foldl (fun hist key => bump key hist) []

inductive NativeQuantPlan
  | homogeneous (dtype : WeightDtype)
  | mixed (layouts : List ProjectionQuantLayout) (payloadSlotSize expertSize : ℕ)
    (histogram : Histogram)

/-- The layouts are those of one dtype, in whole blocks. -/
def homogeneousDtype (layouts : List ProjectionQuantLayout) : Option WeightDtype := do
  let first ← layouts.head?
  let dtype ← first.uniformDtype
  if layouts.all (fun layout => layout.uniformDtype = some dtype) ∧
      layouts.all (·.allProjectionsBlockAligned) then
    return dtype
  else none

def ExpertQuantScan.intoPlan (self : ExpertQuantScan) (blockAlign : ℕ) (emitUth : Bool) :
    Except Failure NativeQuantPlan :=
  if self.layouts = [] then .error (.invalidData "native quant scan found no expert layouts")
  else
    match homogeneousDtype self.layouts with
    | some dtype => .ok (.homogeneous dtype)
    | none =>
      if !emitUth then
        .error (.invalidInput "mixed native quant output requires UTH2; remove --no-uth")
      else
        match self.layouts.mapM (·.payloadBytes) with
        | none => .error (.invalidData "mixed payload size overflow")
        | some payloads =>
          let payloadSlotSize := alignUp (payloads.foldl max 0) blockAlign
          match checkedAdd usizeMax payloadSlotSize blockAlign with
          | none => .error (.invalidData "mixed expert size overflow")
          | some expertSize =>
            .ok (.mixed self.layouts payloadSlotSize expertSize
              (tally (self.layouts.map (·.key))))

namespace NativeQuantPlan

def metadataDtype : NativeQuantPlan → WeightDtype
  | homogeneous dtype => dtype
  | mixed _ _ _ _ => .mixed

def metadataLayoutVersion : NativeQuantPlan → Option ℕ
  | homogeneous _ => none
  | mixed _ _ _ _ => some 2

def metadataHistogram : NativeQuantPlan → Option Histogram
  | homogeneous _ => none
  | mixed _ _ _ histogram => some histogram

def containsQ4_0 : NativeQuantPlan → Bool
  | homogeneous dtype => dtype = .q4_0
  | mixed layouts _ _ _ => layouts.any fun layout =>
      [layout.gate,layout.up,layout.down].any fun projection => projection.dtype = .q4_0

end NativeQuantPlan

/-- `buf[start..end]`, which ends the program when the buffer is too short. -/
def sliceBytes (buf : List UInt8) (e : ℕ) (spec : ProjectionQuantSpec) :
    Except Failure (List UInt8) :=
  match checkedMul usizeMax e spec.payloadBytes with
  | none => .error (.invalidData "expert slice offset overflow")
  | some start =>
    match checkedAdd usizeMax start spec.payloadBytes with
    | none => .error (.invalidData "expert slice end overflow")
    | some stop => if buf.length<stop then .error .panic else .ok (part buf start (stop-start))

def layoutAt (layouts : List ProjectionQuantLayout) (index : ℕ) (what : String) :
    Except Failure ProjectionQuantLayout :=
  match layouts[index]? with
  | none => .error (.invalidData s!"missing mixed layout for {what}")
  | some layout => .ok layout

def loadLayerExpertNativeMixed (gguf : GgufSource) (layer numExperts : ℕ)
    (layouts : List ProjectionQuantLayout) :
    Except Failure (List (ProjectionQuantLayout × Matrices UInt8)) :=
  match checkedMul usizeMax layer numExperts with
  | none => .error (.invalidData "layer expert id overflow")
  | some base =>
    if gguf.hasTensor (interleavedName layer "gate") then do
      let layout ← layoutAt layouts base "layer"
      let gateAll ← readLayerTensor gguf numExperts (interleavedName layer "gate")
        layout.gate.payloadBytes
      let upAll ← readLayerTensor gguf numExperts (interleavedName layer "up") layout.up.payloadBytes
      let downAll ← readLayerTensor gguf numExperts (interleavedName layer "down")
        layout.down.payloadBytes
      (List.range numExperts).mapM fun e => do
        let layout ← layoutAt layouts (base+e) "expert"
        let gate ← sliceBytes gateAll e layout.gate
        let up ← sliceBytes upAll e layout.up
        let down ← sliceBytes downAll e layout.down
        return (layout,⟨gate,up,down⟩)
    else
      (List.range numExperts).mapM fun e => do
        let layout ← layoutAt layouts (base+e) "expert"
        let gate ← readPerExpert gguf (perExpertName layer e "gate") layout.gate.payloadBytes
        let up ← readPerExpert gguf (perExpertName layer e "up") layout.up.payloadBytes
        let down ← readPerExpert gguf (perExpertName layer e "down") layout.down.payloadBytes
        return (layout,⟨gate,up,down⟩)

end MicroExpertRouter.Converter
