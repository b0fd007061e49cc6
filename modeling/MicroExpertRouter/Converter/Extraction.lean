import MicroExpertRouter.Converter.DenseTensors

/-! `extract_experts_from_source_inner`, and `validate_data_dir` of what it wrote. A directory is the
list of its writes, of which the last one of a name counts; the metadata stands for its JSON. -/
namespace MicroExpertRouter.Converter
open Quant (WeightDtype)
open Storage (TensorHeader MixedExpertHeader UthDtypeId)

structure ExtractOptions where
  emitUth : Bool
  nativeQuant : Bool
  expertsOnly : Bool
  archOverride : Option String

/-- The fields of `ExtractedMetadata` that `ValidationMetadata` reads. -/
structure Metadata where
  numExperts : ℕ
  dModel : ℕ
  dFf : ℕ
  expertSize : ℕ
  blockAlign : ℕ
  dtype : String
  expertLayoutVersion : Option ℕ
  projectionDtypeHistogram : Option Histogram
  q4_0Layout : Option String
  expertsWritten : Option ℕ

structure ExtractionReport where
  expertsWritten : ℕ
  denseWritten : ℕ
  totalBytes : ℕ
  expertDtype : WeightDtype
  dModel : ℕ
  dFf : ℕ
  numExpertsPerLayer : ℕ
  numLayers : ℕ

/-- The directory and the report. -/
structure Extracted where
  writes : List Write
  metadata : Metadata
  report : ExtractionReport

/-- The plan, if the dtypes of the source are kept. -/
def nativePlan (gguf : GgufSource) (geometry : Geometry) (opts : ExtractOptions) :
    Except Failure (Option NativeQuantPlan) :=
  if opts.nativeQuant then do
    let scan ← scanExpertQuantLayouts gguf geometry.numLayers geometry.numExperts geometry.dModel
      geometry.dFf
    if scan.rejectionReasons ≠ [] then
      .error (.unsupported ("--native-quant requested but quantized expert output is not possible: " ++
        "; ".intercalate scan.rejectionReasons))
    else do
      let plan ← scan.intoPlan defaultBlockAlign opts.emitUth
      return some plan
  else .ok none

def metadataDtype (plan : Option NativeQuantPlan) : WeightDtype :=
  (plan.map NativeQuantPlan.metadataDtype).getD .f32

def payloadSize (geometry : Geometry) (plan : Option NativeQuantPlan) : ℕ :=
  match plan with
  | some (.mixed _ payloadSlotSize _ _) => payloadSlotSize
  | _ => alignUp (expertWeightBytesFor geometry.dModel geometry.dFf (metadataDtype plan))
      defaultBlockAlign

def metadataOf (geometry : Geometry) (plan : Option NativeQuantPlan)
    (totalExperts expertSize expertsWritten : ℕ) : Metadata where
  numExperts := totalExperts
  dModel := geometry.dModel
  dFf := geometry.dFf
  expertSize := expertSize
  blockAlign := defaultBlockAlign
  dtype := (metadataDtype plan).asStr
  expertLayoutVersion := plan.bind NativeQuantPlan.metadataLayoutVersion
  projectionDtypeHistogram := plan.bind NativeQuantPlan.metadataHistogram
  q4_0Layout := (plan.filter NativeQuantPlan.containsQ4_0).map fun _ => q4_0LayoutStandardV1
  expertsWritten := some expertsWritten

/-- The sum of the lengths of files. -/
def bytesOf (writes : List Write) : ℕ := (writes.map fun write => write.2.length).sum

/-- `extract_experts_from_source_inner`. -/
def extractExperts (dequantize : Dequantize) (gguf : GgufSource)
    (numLayersHint numExpertsHint : ℕ) (opts : ExtractOptions) : Except Failure Extracted := do
  let geometry ← resolveGeometry gguf numLayersHint numExpertsHint
  let plan ← nativePlan gguf geometry opts
  let payload := payloadSize geometry plan
  let overhead := if opts.emitUth then defaultBlockAlign else 0
  match checkedAdd usizeMax payload overhead with
  | none => .error (.invalidData (s!"expert size overflows usize: payload_size={payload}, " ++
      s!"header_overhead={overhead}"))
  | some expertSize =>
    match checkedMul usizeMax geometry.numExperts geometry.numLayers with
    | none => .error (.invalidData ("num_experts * num_layers overflows usize: " ++
        s!"num_experts={geometry.numExperts}, num_layers={geometry.numLayers}"))
    | some totalExperts => do
      let experts ← (List.range geometry.numLayers).mapM fun layer => do
        let files ← layerFiles dequantize gguf geometry opts.emitUth plan expertSize layer
        return layerWrites geometry.numExperts layer files
      let dense ← if opts.expertsOnly then .ok [] else
        emitDense dequantize gguf geometry opts.archOverride
      return {
        writes := experts.flatten++dense
        metadata := metadataOf geometry plan totalExperts expertSize experts.flatten.length
        report := {
          expertsWritten := experts.flatten.length
          denseWritten := dense.length
          totalBytes := bytesOf (experts.flatten++dense)
          expertDtype := metadataDtype plan
          dModel := geometry.dModel
          dFf := geometry.dFf
          numExpertsPerLayer := geometry.numExperts
          numLayers := geometry.numLayers } }

section Validation

/-- The bytes of a file: those of the last write. -/
def readFile (writes : List Write) (name : String) : Option (List UInt8) :=
  Lru.peek writes.reverse name

/-- The names that `from_str_opt` knows. -/
def dtypeNames : List (String × WeightDtype) :=
  [("f32",.f32),("fp32",.f32),("f16",.f16),("fp16",.f16),("half",.f16),("i8",.int8),("int8",.int8),
    ("q8",.int8),("q4k",.q4k),("q4_k",.q4k),("q4_k_m",.q4k),("q4km",.q4k),("q4_0",.q4_0),
    ("q40",.q4_0),("q4",.q4_0),("q8_0",.q8_0),("q80",.q8_0),("q5k",.q5k),("q5_k",.q5k),("q6k",.q6k),
    ("q6_k",.q6k),("bf16",.bf16),("bfloat16",.bf16),("mxfp4",.mxfp4),("mx_fp4",.mxfp4),
    ("mixed",.mixed)]

/-- `WeightDtype::from_str_opt`. -/
def fromStrOpt (s : List Char) : Option WeightDtype :=
  let trimmed := ((s.dropWhile Char.isWhitespace).reverse.dropWhile Char.isWhitespace).reverse
  (dtypeNames.find? fun entry => entry.1.toList = trimmed.map Char.toLower).map Prod.snd

def metadataUsesQ4_0 (dtype : WeightDtype) (histogram : Option Histogram) : Bool :=
  dtype = .q4_0 || (dtype = .mixed && histogram.any fun hist => hist.any fun entry =>
    (entry.1.splitOn '/').any fun projection => fromStrOpt projection = some .q4_0)

def validateQ4_0LayoutMarker (requiresQ4_0 : Bool) (marker : Option String) (metaPath : String) :
    Except Failure Unit :=
  if !requiresQ4_0 then .ok ()
  else if marker = some q4_0LayoutStandardV1 then .ok ()
  else
    let found := marker.getD "<missing>"
    .error (.invalidData (s!"metadata {metaPath} has missing, legacy, or unsupported Q4_0 layout " ++
      s!"marker {repr found}; expected q4_0_layout={repr q4_0LayoutStandardV1}. Reconvert the " ++
      "original GGUF or regenerate this dataset before loading it"))

def tensorHeaderPrefixLen (headerBytes : ℕ) (flags : UInt32) (blockAlign : ℕ) : ℕ :=
  if flags &&& Storage.uthFlagPageAlignedPayload ≠ 0 ∧ 0<blockAlign then alignUp headerBytes blockAlign
  else headerBytes

/-- The headers of a mixed directory seen so far. -/
structure Observed where
  mixed : ℕ
  hist : Histogram

/-- The head of an expert file of a mixed directory. -/
def validateMixedHead (metadata : Metadata) (path : String) (head : List UInt8)
    (observed : Observed) : Except Failure Observed :=
  match MixedExpertHeader.probe head with
  | none => .error (.invalidData s!"expert file {path} is mixed but has no valid UTH2 header")
  | some header =>
    if header.dModel.toNat ≠ metadata.dModel ∨ header.dFf.toNat ≠ metadata.dFf then
      .error (.invalidData (s!"expert file {path} UTH2 shape d_model={header.dModel} " ++
        s!"d_ff={header.dFf} disagrees with metadata d_model={metadata.dModel} d_ff={metadata.dFf}"))
    else
      let prefixLen := tensorHeaderPrefixLen Storage.uth2Bytes header.flags metadata.blockAlign
      match checkedSub metadata.expertSize prefixLen with
      | none => .error (.invalidData "expert payload length underflow")
      | some payloadLen =>
        match header.validate payloadLen with
        | .error e => .error (.invalidData e)
        | .ok _ =>
          let key := layoutKey (Quant.toWeight header.gate.dtype) (Quant.toWeight header.up.dtype)
            (Quant.toWeight header.down.dtype)
          .ok ⟨observed.mixed+1,bump key observed.hist⟩

def validatePayloadLen (path : String) (dtype : WeightDtype) (payloadLen expectedPayload : ℕ) :
    Except Failure Unit :=
  if payloadLen<expectedPayload then
    .error (.invalidData (s!"expert file {path} payload has {payloadLen} bytes, expected at least " ++
      s!"{expectedPayload} for dtype {dtype.asStr}"))
  else .ok ()

/-- The head of an expert file of a directory of one dtype. -/
def validateUniformHead (metadata : Metadata) (dtype : WeightDtype) (path : String)
    (head : List UInt8) : Except Failure Unit :=
  let expectedPayload := alignUp (expertWeightBytesFor metadata.dModel metadata.dFf dtype)
    metadata.blockAlign
  match TensorHeader.probe head with
  | none => validatePayloadLen path dtype metadata.expertSize expectedPayload
  | some header =>
    if Quant.toWeight header.dtype ≠ dtype then
      .error (.invalidData (s!"expert file {path} UTH dtype {(Quant.toWeight header.dtype).asStr} " ++
        s!"disagrees with metadata dtype {dtype.asStr}"))
    else
      let prefixLen := tensorHeaderPrefixLen Storage.uthBytes header.flags metadata.blockAlign
      match checkedSub metadata.expertSize prefixLen with
      | none => .error (.invalidData "expert payload length underflow")
      | some payloadLen => validatePayloadLen path dtype payloadLen expectedPayload

/-- One turn of the loop over the expert files. -/
def validateExpert (writes : List Write) (metadata : Metadata) (dtype : WeightDtype)
    (observed : Observed) (id : ℕ) : Except Failure Observed :=
  let path := expertName id
  match readFile writes path with
  | none => .error (.notFound s!"expert file {path} is missing or unreadable")
  | some file =>
    if file.length ≠ metadata.expertSize then
      .error (.invalidData (s!"expert file {path} has {file.length} bytes, expected " ++
        s!"{metadata.expertSize}"))
    else
      let head := file.take (min metadata.expertSize (max Storage.uth2Bytes Storage.uthBytes))
      if dtype = .mixed then validateMixedHead metadata path head observed
      else do
        validateUniformHead metadata dtype path head
        return observed

structure DataValidationReport where
  numExperts : ℕ
  expertSize : ℕ
  blockAlign : ℕ
  dtype : WeightDtype
  mixedExperts : ℕ
  deriving DecidableEq

/-- The checks of the metadata alone. -/
def validateMetadata (metadata : Metadata) (dtype : WeightDtype) : Except Failure Unit := do
  validateQ4_0LayoutMarker (metadataUsesQ4_0 dtype metadata.projectionDtypeHistogram)
    metadata.q4_0Layout "metadata.json"
  if metadata.blockAlign = 0 ∨ ¬ metadata.blockAlign.isPowerOfTwo then
    .error (.invalidData s!"metadata block_align {metadata.blockAlign} is invalid")
  else if metadata.expertSize = 0 ∨ metadata.expertSize % metadata.blockAlign ≠ 0 then
    .error (.invalidData (s!"metadata expert_size {metadata.expertSize} is not aligned to " ++
      s!"block_align {metadata.blockAlign}"))
  else if metadata.expertsWritten.any (· ≠ metadata.numExperts) then
    .error (.invalidData (s!"metadata experts_written {metadata.expertsWritten.getD 0} does not " ++
      s!"match num_experts {metadata.numExperts}"))
  else if dtype = .mixed ∧ metadata.expertLayoutVersion ≠ some 2 then
    .error (.invalidData "metadata dtype=mixed requires expert_layout_version=2")
  else .ok ()

/-- The checks of the histogram against the headers. -/
def validateHistogram (metadata : Metadata) (dtype : WeightDtype) (observed : Histogram) :
    Except Failure Unit := do
  if dtype = .mixed then
    validateQ4_0LayoutMarker (metadataUsesQ4_0 dtype (some observed)) metadata.q4_0Layout
      "metadata.json"
  if dtype = .mixed ∧ metadata.projectionDtypeHistogram.any (· ≠ observed) then
    .error (.invalidData "mixed projection histogram mismatch")
  else .ok ()

/-- `validate_data_dir`. -/
def validateDataDir (writes : List Write) (metadata : Metadata) :
    Except Failure DataValidationReport :=
  match fromStrOpt metadata.dtype.toList with
  | none => .error (.invalidData s!"metadata dtype {repr metadata.dtype} is not supported")
  | some dtype => do
    validateMetadata metadata dtype
    let observed ← (List.range metadata.numExperts).foldlM (validateExpert writes metadata dtype)
      ⟨0,[]⟩
    validateHistogram metadata dtype observed.hist
    return ⟨metadata.numExperts,metadata.expertSize,metadata.blockAlign,dtype,observed.mixed⟩

end Validation

end MicroExpertRouter.Converter
