import MicroExpertRouter.Converter.Files

/-! The dense tensors that the converter writes beside the experts. Their manifest is left out. -/
namespace MicroExpertRouter.Converter
open Gguf (GgufTensorInfo GgufValue)

inductive ConvAttention
  | separateQkv
  | fusedQkv
  | mla
  deriving DecidableEq, Repr

structure ConvArchProfile where
  attention : ConvAttention
  usesQkNorm : Bool
  recognised : Bool
  tiedOutputByContract : Bool

def resolveConversionProfile (arch : Option String) : ConvArchProfile :=
  let name := arch.getD ""
  if name ∈ ["deepseek2","deepseek_v3","deepseek3"] then ⟨.mla,false,true,false⟩
  else if name ∈ ["phi2","phi3","phi4"] then ⟨.fusedQkv,false,true,false⟩
  else if name ∈ ["qwen3","qwen3moe","qwen3_moe"] then ⟨.separateQkv,true,true,true⟩
  else if name ∈ ["llama","mixtral","qwen2","qwen2moe","qwen2_moe","gptoss","gpt_oss","gpt-oss"] then
    ⟨.separateQkv,false,true,false⟩
  else ⟨.separateQkv,false,false,false⟩

/-- A file that is written. -/
abbrev Write := String × List UInt8

def denseManifestDims (info : GgufTensorInfo) : Option (List ℕ) :=
  match info.shape with
  | [n] => some [n,1]
  | [cols,rows] => some [rows,cols]
  | _ => none

def denseManifestFileName (canonical dtype : String) : String :=
  let stem := String.ofList (canonical.toList.map fun c => if c.isAlphanum then c else '_')
  s!"dense_{stem}.{dtype}.bin"

/-- What is asked of a required tensor. -/
structure Requirement where
  canonical : String
  expectDims : Option (List ℕ)
  expectElems : Option ℕ

/-- A required tensor of any shape. -/
def required (canonical : String) : Requirement := ⟨canonical,none,none⟩

section Emit
variable (dequantize : Dequantize) (gguf : GgufSource)

/-- `emit_dense_manifest_tensor_req` of a required tensor. -/
def emitDenseManifestTensorReq (canonical : String) : Except Failure Write :=
  match gguf.tensorInfo canonical with
  | none => .error (.invalidData (s!"architecture-required dense tensor {canonical} is absent from " ++
      "the GGUF source"))
  | some info =>
    if (denseManifestDims info).isNone then
      .error (.invalidData (s!"architecture-required dense tensor {canonical} has unsupported rank " ++
        s!"{info.shape}"))
    else if info.ggmlDtype = Gguf.GgmlDtype.q8_0 then do
      let bytes ← tensorData gguf info
      return (denseManifestFileName canonical "q8_0",bytes)
    else
      match denseTensorToF32 dequantize gguf info with
      | .ok f32s => .ok (denseManifestFileName canonical "f32",f32ToLe f32s)
      | .error .panic => .error .panic
      | .error e => .error (.unsupported (s!"architecture-required dense tensor {canonical} could " ++
          s!"not be decoded: {e.text}"))

/-- `emit_required_dense_tensor_checked`; without expectations it is the function above. -/
def emitRequired (requirement : Requirement) : Except Failure Write :=
  let canonical := requirement.canonical
  match gguf.tensorInfo canonical with
  | none => .error (.invalidData (s!"architecture-required dense tensor {canonical} is absent from " ++
      "the GGUF source"))
  | some info =>
    match denseManifestDims info with
    | none => .error (.invalidData (s!"architecture-required dense tensor {canonical} has " ++
        s!"unsupported rank {info.shape}"))
    | some dims =>
      if requirement.expectDims.any (· ≠ dims) then
        .error (.invalidData (s!"architecture-required dense tensor {canonical} has logical dims " ++
          s!"{dims}, expected {requirement.expectDims.getD []}"))
      else if requirement.expectElems.any (· ≠ dims.prod) then
        .error (.invalidData (s!"architecture-required dense tensor {canonical} has {dims.prod} " ++
          s!"elements, expected {requirement.expectElems.getD 0}"))
      else emitDenseManifestTensorReq dequantize gguf canonical

/-- `emit_legacy_f32_dense_tensor`: a tensor that is there and can be decoded. -/
def emitLegacyF32DenseTensor (canonical alias_ : String) : Except Failure (List Write) :=
  match gguf.tensorInfo canonical with
  | none => .ok []
  | some info =>
    match denseTensorToF32 dequantize gguf info with
    | .ok f32s => .ok [(alias_,f32ToLe f32s)]
    | .error .panic => .error .panic
    | .error _ => .ok []

end Emit

/-- The required tensors of a layer. -/
def layerRequirements (geometry : Geometry) (headDim : Option ℕ) (layer : ℕ) : List Requirement :=
  ["attn_q","attn_k","attn_v","attn_output","attn_norm","ffn_norm"].map
      (fun stem => required s!"blk.{layer}.{stem}.weight") ++
    headDim.toList.flatMap (fun hd => ["attn_q_norm","attn_k_norm"].map
      fun stem => ⟨s!"blk.{layer}.{stem}.weight",none,some hd⟩) ++
    [⟨s!"blk.{layer}.ffn_gate_inp.weight",some [geometry.numExperts,geometry.dModel],none⟩]

/-- The tensors of a layer that may be missing, and their files. -/
def layerOptional (layer : ℕ) : List (String × String) :=
  ["gate","up","down"].map (fun projection =>
      (s!"blk.{layer}.ffn_{projection}_shexp.weight",s!"layer_{layer}_shexp_{projection}.bin")) ++
    [(s!"blk.{layer}.ffn_gate_inp_shexp.weight",s!"layer_{layer}_shexp_gate_inp.bin")]

/-- The length of the norms of a head, where the architecture has them. -/
def resolveHeadDim (gguf : GgufSource) (profile : ConvArchProfile) (dModel : ℕ) :
    Except Failure (Option ℕ) :=
  let number := fun suffix => (lookup gguf.metadata (architecture gguf) suffix).bind GgufValue.asU64
  if !profile.usesQkNorm then .ok none
  else
    match number "attention.key_length" with
    | some hd => .ok (some hd)
    | none =>
      match (number "attention.head_count").filter (· ≠ 0) with
      | none => .error (.invalidData ("QK-Norm architecture is missing attention.key_length / " ++
          "attention.head_count needed to validate head_dim"))
      | some headCount =>
        if dModel % headCount ≠ 0 then
          .error (.invalidData (s!"QK-Norm architecture has attention.head_count {headCount} that " ++
            s!"does not divide d_model {dModel}; cannot derive a valid head_dim"))
        else .ok (some (dModel/headCount))

/-- Whether the metadata says that the output head is the embedding. -/
def tieWordEmbeddings (gguf : GgufSource) : Bool :=
  match (lookup gguf.metadata (architecture gguf) "tie_word_embeddings").or
      (Lru.peek gguf.metadata "general.tie_word_embeddings") with
  | some (.bool tied) => tied
  | _ => false

/-- The output head, which a tied one has no file of. -/
def emitOutput (dequantize : Dequantize) (gguf : GgufSource) (profile : ConvArchProfile) :
    Except Failure (List Write) :=
  if (gguf.tensorInfo "output.weight").isSome then do
    let write ← emitRequired dequantize gguf (required "output.weight")
    return [write]
  else if tieWordEmbeddings gguf ∨ profile.tiedOutputByContract then
    match (gguf.tensorInfo "token_embd.weight").bind denseManifestDims with
    | none => .error (.invalidData ("tied output head requires token_embd.weight dims to " ++
        "reconstruct the LM head"))
    | some _ => .ok []
  else .error (.invalidData ("output.weight is absent and embedding tying is not established by " ++
    "metadata or architecture contract; refusing partial conversion"))

/-- The dense tensors of a layer. -/
def emitLayer (dequantize : Dequantize) (gguf : GgufSource) (geometry : Geometry)
    (headDim : Option ℕ) (layer : ℕ) : Except Failure (List Write) := do
  let needed ← (layerRequirements geometry headDim layer).mapM (emitRequired dequantize gguf)
  let optional ← (layerOptional layer).mapM fun entry =>
    emitLegacyF32DenseTensor dequantize gguf entry.1 entry.2
  return needed++optional.flatten

/-- All dense tensors. -/
def emitDense (dequantize : Dequantize) (gguf : GgufSource) (geometry : Geometry)
    (archOverride : Option String) : Except Failure (List Write) :=
  let effectiveArch := archOverride.or (architecture gguf)
  let profile := resolveConversionProfile effectiveArch
  let shown := effectiveArch.getD "<missing>"
  if !profile.recognised then
    .error (.unsupported (s!"general.architecture {repr shown} is not a recognised convertible " ++
      "architecture; supply an explicit safe architecture override to convert a separate-QKV " ++
      "llama-like checkpoint"))
  else if profile.attention = .fusedQkv then
    .error (.unsupported (s!"architecture {repr shown} uses fused QKV attention, which the expert " ++
      "extractor does not support converting; supply a separate-QKV export"))
  else if profile.attention = .mla then
    .error (.unsupported (s!"architecture {repr shown} uses MLA (latent-KV) attention, which the " ++
      "expert extractor does not support converting"))
  else do
    let headDim ← resolveHeadDim gguf profile geometry.dModel
    let embedding ← emitRequired dequantize gguf (required "token_embd.weight")
    let norm ← emitRequired dequantize gguf (required "output_norm.weight")
    let head ← emitOutput dequantize gguf profile
    let layers ← (List.range geometry.numLayers).mapM (emitLayer dequantize gguf geometry headDim)
    return [embedding,norm]++head++layers.flatten

end MicroExpertRouter.Converter
