import MicroExpertRouter.Converter.Readers
import MicroExpertRouter.Quant.Experts

/-! The decoders of an expert, of `inference.rs`: of numbers of four and two bytes, of bytes with a
scale for every matrix, of the block formats and of the microscaled nibbles of `dequant.rs`. -/
namespace MicroExpertRouter.Experts
open Converter (ReadError expertWeightCount expertWeightBytesFor fromBlocks)
open Quant (WeightDtype GgmlDType OwnedExpertWeights Floats part byteAt divCeil slice twoBytes
  decoderOf ownWeight)
open Writes (writeBlock)

inductive DecodeError
  | read (e : ReadError)
  | truncatedPayload (have_ need dModel dFf : ℕ)
  | panic
  deriving DecidableEq

def bufferTooSmall (have_ need dModel dFf : ℕ) : DecodeError :=
  .read (.weights (.bufferTooSmall have_ need dModel dFf))

abbrev Decoder := List UInt8 → ℕ → ℕ → Except DecodeError OwnedExpertWeights

/-- `EXPERT_SIZE_TOLERANCE_BYTES`. -/
def expertSizeToleranceBytes : ℕ := 4096

section Floats
variable (floats : Floats)

/-- The number with a bit pattern. -/
def fromBits (bits : ℕ) : ℚ := floats.single (Le.encode 4 bits)

/-- `ExpertWeights::from_bytes`, of the bytes at an address. -/
def fromBytes (address : ℕ) : Decoder := fun bytes dModel dFf => do
  let view ← (Converter.fromBytes bytes address dModel dFf).mapError .read
  return {
    dModel := dModel
    dFf := dFf
    gate := view.gate.map fun v => fromBits floats v.toNat
    up := view.up.map fun v => fromBits floats v.toNat
    down := view.down.map fun v => fromBits floats v.toNat }

/-- `ExpertWeights::from_floats`. -/
def fromFloats (values : List ℚ) (dModel dFf : ℕ) : Except DecodeError OwnedExpertWeights :=
  let needFloats := expertWeightCount dModel dFf
  if values.length<needFloats then
    .error (bufferTooSmall (saturatingMul usizeMax values.length 4)
      (saturatingMul usizeMax needFloats 4) dModel dFf)
  else
    let gateLen := dFf*dModel
    let upLen := dFf*dModel
    let downLen := dModel*dFf
    let all := values.take needFloats
    .ok {
      dModel := dModel
      dFf := dFf
      gate := all.take gateLen
      up := (all.drop gateLen).take upLen
      down := ((all.drop gateLen).drop upLen).take downLen }

/-- A number for every two bytes. -/
def dequantizeHalves (number : UInt16 → ℚ) (src : List UInt8) : List ℚ :=
  (List.range (src.length/2)).map fun i => twoBytes number (part src (i*2) 2)

/-- The numbers of two bytes, of one format or the other. -/
def fromBytesHalves (number : UInt16 → ℚ) : Decoder := fun bytes dModel dFf =>
  let needFloats := expertWeightCount dModel dFf
  let needBytes := saturatingMul usizeMax needFloats 2
  if bytes.length<needBytes then .error (bufferTooSmall bytes.length needBytes dModel dFf)
  else fromFloats (dequantizeHalves number (bytes.take needBytes)) dModel dFf

def fromBytesF16 : Decoder := fromBytesHalves floats.half

def fromBytesBf16 : Decoder := fromBytesHalves floats.bfloat

end Floats

section Int8
variable (floats : Floats)

structure Int8ExpertMeta where
  gateScale : ℚ
  upScale : ℚ
  downScale : ℚ

/-- `INT8_HEADER_BYTES`. -/
def int8HeaderBytes : ℕ := 12

def Int8ExpertMeta.readFrom (bytes : List UInt8) : Option Int8ExpertMeta :=
  if bytes.length < int8HeaderBytes then none
  else some ⟨floats.single (part bytes 0 4),floats.single (part bytes 4 4),
    floats.single (part bytes 8 4)⟩

/-- Signed bytes times a scale. -/
def dequantInt8 (src : List UInt8) (scale : ℚ) : List ℚ :=
  src.map fun b => (b.toInt8.toInt : ℚ)*scale

def fromBytesInt8 : Decoder := fun bytes dModel dFf =>
  let needFloats := expertWeightCount dModel dFf
  let needBytes := saturatingAdd usizeMax needFloats int8HeaderBytes
  if bytes.length<needBytes then .error (bufferTooSmall bytes.length needBytes dModel dFf)
  else
    match Int8ExpertMeta.readFrom floats bytes with
    | none => .error .panic
    | some scales =>
      let payload := part bytes int8HeaderBytes (needBytes-int8HeaderBytes)
      let gateLen := dFf*dModel
      let upLen := dFf*dModel
      let downLen := dModel*dFf
      .ok {
        dModel := dModel
        dFf := dFf
        gate := dequantInt8 (part payload 0 gateLen) scales.gateScale
        up := dequantInt8 (part payload gateLen upLen) scales.upScale
        down := dequantInt8 (part payload (gateLen+upLen) downLen) scales.downScale }

end Int8

section Blocks
variable (half : UInt16 → ℚ) (dtype : GgmlDType)

/-- Every block is decoded into its place, and what the last one has too much is cut off. -/
def decodeBlocks (src : List UInt8) (nWeights : ℕ) : List ℚ :=
  let blocks := divCeil nWeights dtype.blockSize
  ((List.range blocks).foldl (fun dst b => writeBlock dtype.blockSize
    (decoderOf half dtype (part src (b*dtype.typeSize) dtype.typeSize)) dst b)
    (List.replicate (blocks*dtype.blockSize) 0)).take nWeights

/-- `dequantize_q4_0_to_f32` and its siblings. -/
def dequantizeToF32 (src : List UInt8) (nWeights : ℕ) : Except DecodeError (List ℚ) :=
  if src.length<divCeil nWeights dtype.blockSize*dtype.typeSize then .error .panic
  else .ok (decodeBlocks half dtype src nWeights)

/-- The decoders of the block formats. -/
def fromBytesBlocks : Decoder := fun bytes dModel dFf => do
  let view ← (fromBlocks dtype.blockSize dtype.typeSize bytes dModel dFf).mapError .read
  let gate ← dequantizeToF32 half dtype view.gate (saturatingMul usizeMax dFf dModel)
  let up ← dequantizeToF32 half dtype view.up (saturatingMul usizeMax dFf dModel)
  let down ← dequantizeToF32 half dtype view.down (saturatingMul usizeMax dModel dFf)
  return { dModel := dModel, dFf := dFf, gate := gate, up := up, down := down }

end Blocks

section Formats
variable (floats : Floats)

def fromBytesQ4k : Decoder := fromBytesBlocks floats.half .q4k

def fromBytesQ8_0 : Decoder := fromBytesBlocks floats.half .q8_0

def fromBytesQ5k : Decoder := fromBytesBlocks floats.half .q5k

def fromBytesQ6k : Decoder := fromBytesBlocks floats.half .q6k

def q4ExpertBytesWithTolerance (bytes : List UInt8) (need dModel dFf tolerance : ℕ) :
    Except DecodeError (List UInt8) :=
  if need ≤ bytes.length then .ok bytes
  else if expertSizeToleranceBytes<need ∧ need-bytes.length ≤ expertSizeToleranceBytes then
    if tolerance<need-bytes.length then
      .error (.truncatedPayload bytes.length need dModel dFf)
    else .ok (bytes++List.replicate (need-bytes.length) 0)
  else .error (bufferTooSmall bytes.length need dModel dFf)

/-- The buffer is as long as the siblings ask for. -/
def fromBytesQ4_0WithTolerance (tolerance : ℕ) : Decoder := fun bytes dModel dFf => do
  let gateBlocks := divCeil (saturatingMul usizeMax dFf dModel) 32
  let upBlocks := divCeil (saturatingMul usizeMax dFf dModel) 32
  let downBlocks := divCeil (saturatingMul usizeMax dModel dFf) 32
  let needBytes := saturatingMul usizeMax (gateBlocks+upBlocks+downBlocks) 18
  let buf ← q4ExpertBytesWithTolerance bytes needBytes dModel dFf tolerance
  fromBytesBlocks floats.half .q4_0 buf dModel dFf

def fromBytesQ4_0 : Decoder := fromBytesQ4_0WithTolerance floats 0

end Formats

section Mxfp4
variable (floats : Floats)

/-- `MXFP4_E2M1_TABLE`. -/
def mxfp4E2m1Table : List ℚ :=
  [0,1/2,1,3/2,2,3,4,6,0,-1/2,-1,-3/2,-2,-3,-4,-6]

def decodeMxfp4Nibble (nibble : UInt8) : ℚ := mxfp4E2m1Table.getD (nibble &&& 0x0F).toNat 0

def decodeE8m0Scale (e : UInt8) : ℚ := if e = 0 then 0 else fromBits floats (e.toNat*2^23)

/-- `dequant_mxfp4`, whose loops write one element after the other. -/
def dequantMxfp4 (packed scales : List UInt8) (rows cols : ℕ) : List ℚ :=
  if cols % 2 ≠ 0 then []
  else
    let blocksPerRow := divCeil cols 32
    let bytesPerRow := divCeil cols 2
    let needPacked := saturatingMul usizeMax rows bytesPerRow
    let needScales := saturatingMul usizeMax rows blocksPerRow
    if packed.length ≠ needPacked ∨ scales.length ≠ needScales then []
    else (List.range rows).flatMap fun r => (List.range cols).map fun c =>
      let byte := byteAt packed (r*bytesPerRow+c/2)
      let nibble : UInt8 := if c % 2 = 0 then byte &&& 0x0F else byte >>> 4
      decodeMxfp4Nibble nibble*decodeE8m0Scale floats (byteAt scales (r*blocksPerRow+c/32))

/-- `ok_or`. -/
def okOr {α : Type} (x : Option α) (e : DecodeError) : Except DecodeError α :=
  x.elim (.error e) .ok

/-- A matrix from an offset on, and the offset behind it. -/
def decodeProj (bytes : List UInt8) (short : DecodeError) (off rows cols : ℕ) :
    Except DecodeError (List ℚ × ℕ) := do
  let weightBytes := saturatingMul usizeMax rows (divCeil cols 2)
  let scaleBytes := saturatingMul usizeMax rows (divCeil cols 32)
  let wEnd ← okOr (checkedAdd usizeMax off weightBytes) short
  let sEnd ← okOr (checkedAdd usizeMax wEnd scaleBytes) short
  let packed ← okOr (slice bytes off wEnd) short
  let scales ← okOr (slice bytes wEnd sEnd) short
  let out := dequantMxfp4 floats packed scales rows cols
  if out.length ≠ saturatingMul usizeMax rows cols then .error short
  else return (out,sEnd)

def fromBytesMxfp4 : Decoder := fun bytes dModel dFf =>
  let needBytes := expertWeightBytesFor dModel dFf .mxfp4
  let short := bufferTooSmall bytes.length needBytes dModel dFf
  if bytes.length<needBytes then .error short
  else do
    let gate ← decodeProj floats bytes short 0 dFf dModel
    let up ← decodeProj floats bytes short gate.2 dFf dModel
    let down ← decodeProj floats bytes short up.2 dModel dFf
    return { dModel := dModel, dFf := dFf, gate := gate.1, up := up.1, down := down.1 }

end Mxfp4

/-- The decoder of a dtype, without a tolerance, for a buffer at an address. -/
def decoderFor (floats : Floats) (address : ℕ) : WeightDtype → Option Decoder
  | .f32 => some (fromBytes floats address)
  | .f16 => some (fromBytesF16 floats)
  | .bf16 => some (fromBytesBf16 floats)
  | .int8 => some (fromBytesInt8 floats)
  | .q4k => some (fromBytesQ4k floats)
  | .q4_0 => some (fromBytesQ4_0 floats)
  | .q8_0 => some (fromBytesQ8_0 floats)
  | .q5k => some (fromBytesQ5k floats)
  | .q6k => some (fromBytesQ6k floats)
  | .mxfp4 => some (fromBytesMxfp4 floats)
  | .mixed => none

section Decoded
variable {half : UInt16 → ℚ} {dtype : GgmlDType} {dModel dFf : ℕ}

lemma le_divCeil_mul (n : ℕ) {elems : ℕ} (helems : 0<elems) : n ≤ divCeil n elems*elems := by
  have hdiv := Nat.div_add_mod' (n+elems-1) elems
  have hmod := Nat.mod_lt (n+elems-1) helems
  unfold divCeil
  omega

/-- Whole blocks are decoded as the weights that their decoder reads, numbered through. -/
lemma decodeBlocks_eq {src : List UInt8} {n : ℕ}
    (h : divCeil n dtype.blockSize*dtype.typeSize ≤ src.length) :
    decodeBlocks half dtype src n = (List.range n).map (ownWeight half dtype src) := by
  have hsize := dtype.blockSize_pos
  have hfold := @Writes.foldl_writeBlock ℚ dtype.blockSize
    (fun b => decoderOf half dtype (part src (b*dtype.typeSize) dtype.typeSize))
    (ownWeight half dtype src) (List.replicate (divCeil n dtype.blockSize*dtype.blockSize) 0)
    (divCeil n dtype.blockSize) List.length_replicate.ge ?_
  · unfold decodeBlocks
    dsimp only
    rw [hfold, List.drop_eq_nil_of_le List.length_replicate.le, List.append_nil, ← List.map_take,
      List.take_range, Nat.min_eq_left (le_divCeil_mul n hsize)]
  · intro block hblock old hold
    have hstop := Nat.mul_le_mul_right dtype.typeSize (Nat.succ_le_of_lt hblock)
    rw [Nat.succ_mul] at hstop
    have hlen : (part src (block*dtype.typeSize) dtype.typeSize).length = dtype.typeSize := by
      rw [Quant.length_part]
      omega
    rw [Quant.decoderOf_eq half hlen hold]
    apply List.map_congr_left
    intro i hi
    have hlt := List.mem_range.mp hi
    have hdiv : (block*dtype.blockSize+i)/dtype.blockSize = block := by
      rw [Nat.mul_comm, Nat.mul_add_div hsize, Nat.div_eq_of_lt hlt, Nat.add_zero]
    have hmod : (block*dtype.blockSize+i) % dtype.blockSize = i := by
      rw [Nat.mul_comm, Nat.mul_add_mod, Nat.mod_eq_of_lt hlt]
    unfold ownWeight Quant.blockWeight
    rw [hdiv, hmod]

/-- The bytes of a matrix. -/
def matrixBytes (dtype : GgmlDType) (dModel dFf : ℕ) : ℕ :=
  divCeil (dFf*dModel) dtype.blockSize*dtype.typeSize

/-- An expert of blocks. -/
def blockExpert (half : UInt16 → ℚ) (dtype : GgmlDType) (bytes : List UInt8) (dModel dFf : ℕ) :
    OwnedExpertWeights :=
  let size := matrixBytes dtype dModel dFf
  { dModel := dModel
    dFf := dFf
    gate := (List.range (dFf*dModel)).map (ownWeight half dtype (part bytes 0 size))
    up := (List.range (dFf*dModel)).map (ownWeight half dtype (part bytes size size))
    down := (List.range (dModel*dFf)).map (ownWeight half dtype (part bytes (size+size) size)) }

lemma threeMatrices_eq : (divCeil (dFf*dModel) dtype.blockSize+divCeil (dFf*dModel) dtype.blockSize+
    divCeil (dFf*dModel) dtype.blockSize)*dtype.typeSize = 3*matrixBytes dtype dModel dFf := by
  unfold matrixBytes
  ring

theorem fromBytesBlocks_eq {bytes : List UInt8} (hn : dFf*dModel ≤ usizeMax)
    (hfits : 3*matrixBytes dtype dModel dFf ≤ usizeMax) :
    fromBytesBlocks half dtype bytes dModel dFf =
      if bytes.length<3*matrixBytes dtype dModel dFf then
        .error (bufferTooSmall bytes.length (3*matrixBytes dtype dModel dFf) dModel dFf)
      else .ok (blockExpert half dtype bytes dModel dFf) := by
  have hsum := @threeMatrices_eq dtype dModel dFf
  have hdecode : ∀ start, start+matrixBytes dtype dModel dFf ≤ bytes.length →
      dequantizeToF32 half dtype (part bytes start (matrixBytes dtype dModel dFf)) (dFf*dModel) =
        .ok ((List.range (dFf*dModel)).map
          (ownWeight half dtype (part bytes start (matrixBytes dtype dModel dFf)))) := by
    intro start hstop
    have hlen : divCeil (dFf*dModel) dtype.blockSize*dtype.typeSize ≤
        (part bytes start (matrixBytes dtype dModel dFf)).length := by
      rw [Quant.length_part]
      unfold matrixBytes at hstop ⊢
      omega
    unfold dequantizeToF32
    rw [if_neg (not_lt.mpr hlen), decodeBlocks_eq hlen]
  unfold fromBytesBlocks fromBlocks
  dsimp only
  rw [saturatingMul_of_le hn, saturatingMul_comm_of_le hn, saturatingMul_of_le (hsum ▸ hfits), hsum]
  split_ifs with hshort
  · rfl
  · have hgate := hdecode 0 (by omega)
    have hup := hdecode (matrixBytes dtype dModel dFf) (by omega)
    have hlast := hdecode (matrixBytes dtype dModel dFf+matrixBytes dtype dModel dFf) (by omega)
    change (do
      let gate ← dequantizeToF32 half dtype (part bytes 0 (matrixBytes dtype dModel dFf)) (dFf*dModel)
      let up ← dequantizeToF32 half dtype (part bytes (matrixBytes dtype dModel dFf)
        (matrixBytes dtype dModel dFf)) (dFf*dModel)
      let down ← dequantizeToF32 half dtype (part bytes (matrixBytes dtype dModel dFf+
        matrixBytes dtype dModel dFf) (matrixBytes dtype dModel dFf)) (dFf*dModel)
      return OwnedExpertWeights.mk dModel dFf gate up down) = _
    unfold blockExpert
    rw [hgate, hup, hlast, Nat.mul_comm dModel dFf]
    rfl

/-- The decoder of Q4_K blocks is that of `run_inference_q4k`. -/
theorem fromBytesQ4k_eq {floats : Floats} {bytes : List UInt8} (hn : dFf*dModel ≤ usizeMax)
    (hfits : 3*matrixBytes .q4k dModel dFf ≤ usizeMax) :
    fromBytesQ4k floats bytes dModel dFf =
      (Quant.fromBytesQ4k floats.half bytes dModel dFf).mapError fun e => .read (.weights e) := by
  have hsum : (divCeil (dFf*dModel) 256+divCeil (dFf*dModel) 256+divCeil (dFf*dModel) 256)*144 =
      3*matrixBytes .q4k dModel dFf := @threeMatrices_eq .q4k dModel dFf
  have hdecode : ∀ start, start+matrixBytes .q4k dModel dFf ≤ bytes.length →
      Quant.dequantizeQ4kToF32 floats.half (part bytes start (divCeil (dFf*dModel) 256*144))
        (dFf*dModel) = (List.range (dFf*dModel)).map
          (ownWeight floats.half .q4k (part bytes start (matrixBytes .q4k dModel dFf))) := by
    intro start hstop
    have hsize : divCeil (dFf*dModel) 256*144 = matrixBytes .q4k dModel dFf := rfl
    rw [hsize]
    refine @decodeBlocks_eq floats.half .q4k _ _ ?_
    change divCeil (dFf*dModel) 256*144 ≤ _
    rw [Quant.length_part]
    omega
  rw [fromBytesQ4k, fromBytesBlocks_eq hn hfits]
  unfold Quant.fromBytesQ4k
  dsimp only
  rw [saturatingMul_of_le hn, saturatingMul_comm_of_le hn, saturatingMul_of_le (hsum ▸ hfits), hsum]
  split_ifs with hshort
  · rfl
  · have hsize : matrixBytes .q4k dModel dFf = divCeil (dFf*dModel) 256*144 := rfl
    rw [hdecode 0 (by omega), hdecode (divCeil (dFf*dModel) 256*144) (by omega),
      hdecode (divCeil (dFf*dModel) 256*144+divCeil (dFf*dModel) 256*144) (by omega)]
    unfold blockExpert
    rw [Nat.mul_comm dModel dFf]
    rfl

end Decoded

end MicroExpertRouter.Experts
