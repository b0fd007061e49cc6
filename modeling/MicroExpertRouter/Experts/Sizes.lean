import MicroExpertRouter.Experts.Decoders

/-! What an expert takes up, and what its decoder asks for: the same number of bytes for every dtype,
but for Q4_K where the blocks of the three matrices are counted together and decoded apart. -/
namespace MicroExpertRouter.Experts
open Converter (expertWeightCount expertWeightBytesFor fromBlocks threeBlockBytes
  mxfp4ProjectionBytes)
open Quant (WeightDtype GgmlDType OwnedExpertWeights Floats part divCeil decoderOf ownWeight
  ggmlDtypeForOptimizedProjection projectionWeightBytesFor blockBytesFor slice twoBytes)

section Agreement

/-- Three whole matrices. -/
structure Shaped (weights : OwnedExpertWeights) (dModel dFf : ℕ) : Prop where
  gate : weights.gate.length = dFf*dModel
  up : weights.up.length = dFf*dModel
  down : weights.down.length = dModel*dFf

/-- A decoder takes whatever is as long as an expert, for an expert of the shape, and heeds nothing
behind it. -/
structure Agrees (decode : List UInt8 → Except DecodeError OwnedExpertWeights)
    (size dModel dFf : ℕ) : Prop where
  accepts_iff : ∀ bytes, (∃ weights, decode bytes = .ok weights) ↔ size ≤ bytes.length
  shaped : ∀ bytes weights, decode bytes = .ok weights → Shaped weights dModel dFf
  depends : ∀ bytes bytes', size ≤ bytes.length → size ≤ bytes'.length →
    bytes.take size = bytes'.take size → decode bytes = decode bytes'

variable {decode : List UInt8 → Except DecodeError OwnedExpertWeights} {size dModel dFf : ℕ}

theorem Agrees.of_expert (expert : List UInt8 → OwnedExpertWeights)
    (hshort : ∀ bytes, bytes.length<size → ∃ e, decode bytes = .error e)
    (hlong : ∀ bytes, size ≤ bytes.length → decode bytes = .ok (expert bytes))
    (htake : ∀ bytes, size ≤ bytes.length → expert (bytes.take size) = expert bytes)
    (hshaped : ∀ bytes, size ≤ bytes.length → Shaped (expert bytes) dModel dFf) :
    Agrees decode size dModel dFf := by
  have haccepts : ∀ bytes, (∃ weights, decode bytes = .ok weights) ↔ size ≤ bytes.length := by
    intro bytes
    constructor
    · rintro ⟨weights,hok⟩
      by_contra hlt
      obtain ⟨e,herror⟩ := hshort bytes (not_le.mp hlt)
      rw [hok] at herror
      cases herror
    · exact fun hlen => ⟨_,hlong bytes hlen⟩
  refine ⟨haccepts,?_,?_⟩
  · intro bytes weights hok
    have hlen := (haccepts bytes).mp ⟨weights,hok⟩
    rw [hlong bytes hlen] at hok
    exact Except.ok.inj hok ▸ hshaped bytes hlen
  · intro bytes bytes' hlen hlen' heq
    rw [hlong bytes hlen, hlong bytes' hlen', ← htake bytes hlen, heq, htake bytes' hlen']

/-- A part of the beginning. -/
lemma part_take {bytes : List UInt8} {start len : ℕ} (h : start+len ≤ size) :
    part (bytes.take size) start len = part bytes start len := by
  unfold part
  rw [List.drop_take, List.take_take, Nat.min_eq_left (by omega)]

end Agreement

section Sizes

/-- The size of a matrix of microscaled nibbles: two to a byte and a scale for each 32 of a row. -/
def exactMxfp4Bytes (rows cols : ℕ) : ℕ := rows*divCeil cols 2+rows*divCeil cols 32

/-- The size of an expert when no operation saturates. -/
def exactWeightBytes (dModel dFf : ℕ) : WeightDtype → ℕ
  | .f32 => 3*(dModel*dFf)*4
  | .f16 => 3*(dModel*dFf)*2
  | .bf16 => 3*(dModel*dFf)*2
  | .int8 => 3*(dModel*dFf)+12
  | .q4k => divCeil (3*(dModel*dFf)) 256*144
  | .q4_0 => 3*(divCeil (dModel*dFf) 32*18)
  | .q8_0 => 3*(divCeil (dModel*dFf) 32*34)
  | .q5k => 3*(divCeil (dModel*dFf) 256*176)
  | .q6k => 3*(divCeil (dModel*dFf) 256*210)
  | .mxfp4 => exactMxfp4Bytes dFf dModel+exactMxfp4Bytes dFf dModel+exactMxfp4Bytes dModel dFf
  | .mixed => 0

/-- The size, and the number of the weights where the source computes it first. -/
structure SizesFit (dModel dFf : ℕ) (dtype : WeightDtype) : Prop where
  bytes_le : exactWeightBytes dModel dFf dtype ≤ usizeMax
  weights_le : dtype = .q4k → 3*(dModel*dFf) ≤ usizeMax

variable {dModel dFf : ℕ}

lemma expertWeightCount_eq (h : 3*(dModel*dFf) ≤ usizeMax) :
    expertWeightCount dModel dFf = 3*(dModel*dFf) := by
  have hone : dModel*dFf ≤ usizeMax := by omega
  unfold expertWeightCount
  rw [saturatingMul_of_le hone, saturatingMul_of_le (by omega), Nat.mul_comm]

/-- Where three matrices of blocks fit, so do the weights of one of them. -/
lemma weights_le_of_blocks {n elems bytes : ℕ} (helems : 0<elems) (hratio : elems ≤ 3*bytes)
    (h : 3*(divCeil n elems*bytes) ≤ usizeMax) : n ≤ usizeMax := by
  have hle := le_divCeil_mul n helems
  have hscale := Nat.mul_le_mul_left (divCeil n elems) hratio
  have heq : divCeil n elems*(3*bytes) = 3*(divCeil n elems*bytes) := Nat.mul_left_comm _ _ _
  omega

lemma threeBlockBytes_eq {elems bytes : ℕ} (helems : 0<elems) (hratio : elems ≤ 3*bytes)
    (hbytes : 0<bytes) (h : 3*(divCeil (dModel*dFf) elems*bytes) ≤ usizeMax) :
    threeBlockBytes dModel dFf elems bytes = 3*(divCeil (dModel*dFf) elems*bytes) := by
  have hn := weights_le_of_blocks helems hratio h
  have hthree : divCeil (dModel*dFf) elems*3*bytes = 3*(divCeil (dModel*dFf) elems*bytes) := by
    rw [Nat.mul_comm _ 3, Nat.mul_assoc]
  have hcount : divCeil (dModel*dFf) elems*3 ≤ usizeMax :=
    (Nat.le_mul_of_pos_right _ hbytes).trans (hthree ▸ h)
  unfold threeBlockBytes
  dsimp only
  rw [saturatingMul_of_le hn, saturatingMul_of_le hcount, saturatingMul_of_le (hthree ▸ h), hthree]

lemma mxfp4ProjectionBytes_eq {rows cols : ℕ} (h : exactMxfp4Bytes rows cols ≤ usizeMax) :
    mxfp4ProjectionBytes rows cols = exactMxfp4Bytes rows cols := by
  unfold exactMxfp4Bytes at h ⊢
  unfold mxfp4ProjectionBytes
  rw [saturatingMul_of_le (by omega), saturatingMul_of_le (by omega)]
  exact Nat.min_eq_left h

theorem expertWeightBytesFor_eq {dtype : WeightDtype} (h : SizesFit dModel dFf dtype) :
    expertWeightBytesFor dModel dFf dtype = exactWeightBytes dModel dFf dtype := by
  obtain ⟨hbytes,hweights⟩ := h
  unfold expertWeightBytesFor
  cases dtype <;> simp only [exactWeightBytes] at hbytes ⊢
  case f32 | f16 | bf16 =>
    rw [expertWeightCount_eq (by omega), saturatingMul_of_le hbytes]
  case int8 =>
    rw [expertWeightCount_eq (by omega)]
    exact Nat.min_eq_left hbytes
  case q4k => rw [expertWeightCount_eq (hweights rfl), saturatingMul_of_le hbytes]
  case q4_0 | q8_0 | q5k | q6k =>
    exact threeBlockBytes_eq (by decide) (by decide) (by decide) hbytes
  case mxfp4 =>
    rw [mxfp4ProjectionBytes_eq (by omega), mxfp4ProjectionBytes_eq (by omega)]
    have hpair : exactMxfp4Bytes dFf dModel+exactMxfp4Bytes dFf dModel ≤ usizeMax := by omega
    unfold saturatingAdd
    rw [Nat.min_eq_left hpair, Nat.min_eq_left hbytes]

end Sizes

section Numbers
variable {floats : Floats} {dModel dFf address : ℕ}

lemma f32FromLe_take {bytes : List UInt8} {n : ℕ} :
    Converter.f32FromLe (bytes.take (n*4)) n = Converter.f32FromLe bytes n := by
  unfold Converter.f32FromLe
  apply List.map_congr_left
  intro i hi
  have hlt := List.mem_range.mp hi
  have hpart : part (bytes.take (n*4)) (i*4) 4 = part bytes (i*4) 4 := part_take (by omega)
  exact congrArg (fun chunk => UInt32.ofNat (Le.decode chunk)) hpart

/-- The three matrices among the numbers of a payload. -/
def numbersExpert (values : List ℚ) (dModel dFf : ℕ) : OwnedExpertWeights where
  dModel := dModel
  dFf := dFf
  gate := values.take (dFf*dModel)
  up := (values.drop (dFf*dModel)).take (dFf*dModel)
  down := ((values.drop (dFf*dModel)).drop (dFf*dModel)).take (dModel*dFf)

lemma shaped_numbersExpert {values : List ℚ} (h : values.length = 3*(dModel*dFf)) :
    Shaped (numbersExpert values dModel dFf) dModel dFf := by
  have hcomm := Nat.mul_comm dFf dModel
  constructor <;> simp only [numbersExpert, List.length_take, List.length_drop] <;> omega

theorem fromBytes_agrees (haddress : address % 4 = 0) (hfits : 3*(dModel*dFf)*4 ≤ usizeMax) :
    Agrees (fun bytes => fromBytes floats address bytes dModel dFf) (3*(dModel*dFf)*4) dModel dFf := by
  have hcount : expertWeightCount dModel dFf = 3*(dModel*dFf) := expertWeightCount_eq (by omega)
  let values : List UInt8 → List ℚ := fun bytes =>
    (Converter.f32FromLe bytes (3*(dModel*dFf))).map fun v => fromBits floats v.toNat
  refine Agrees.of_expert (fun bytes => numbersExpert (values bytes) dModel dFf) ?_ ?_ ?_ ?_
  · intro bytes hshort
    unfold fromBytes Converter.fromBytes
    dsimp only
    rw [hcount, saturatingMul_of_le hfits, if_pos hshort]
    exact ⟨_,rfl⟩
  · intro bytes hlong
    unfold fromBytes Converter.fromBytes numbersExpert
    dsimp only
    rw [hcount, saturatingMul_of_le hfits, if_neg (not_lt.mpr hlong), if_neg (not_not.mpr haddress)]
    simp only [values, ← List.map_take, ← List.map_drop]
    rfl
  · intro bytes _
    simp only [values, f32FromLe_take]
  · intro bytes _
    exact shaped_numbersExpert (by simp [values, Converter.f32FromLe])

/-- Numbers of two bytes. -/
theorem fromBytesHalves_agrees (number : UInt16 → ℚ) (hfits : 3*(dModel*dFf)*2 ≤ usizeMax) :
    Agrees (fun bytes => fromBytesHalves number bytes dModel dFf) (3*(dModel*dFf)*2) dModel dFf := by
  have hcount : expertWeightCount dModel dFf = 3*(dModel*dFf) := expertWeightCount_eq (by omega)
  let values : List UInt8 → List ℚ := fun bytes =>
    dequantizeHalves number (bytes.take (3*(dModel*dFf)*2))
  have hlen : ∀ bytes : List UInt8, 3*(dModel*dFf)*2 ≤ bytes.length →
      (values bytes).length = 3*(dModel*dFf) := by
    intro bytes hlong
    simp only [values, dequantizeHalves, List.length_map, List.length_range, List.length_take]
    omega
  refine Agrees.of_expert (fun bytes => numbersExpert (values bytes) dModel dFf) ?_ ?_ ?_ ?_
  · intro bytes hshort
    unfold fromBytesHalves
    dsimp only
    rw [hcount, saturatingMul_of_le hfits, if_pos hshort]
    exact ⟨_,rfl⟩
  · intro bytes hlong
    have htake : (values bytes).take (3*(dModel*dFf)) = values bytes :=
      List.take_of_length_le (hlen bytes hlong).le
    unfold fromBytesHalves fromFloats numbersExpert
    dsimp only
    rw [hcount, saturatingMul_of_le hfits, if_neg (not_lt.mpr hlong),
      if_neg (not_lt.mpr (hlen bytes hlong).ge), htake]
  · intro bytes _
    simp only [values, List.take_take, Nat.min_self]
  · intro bytes hlong
    exact shaped_numbersExpert (hlen bytes hlong)

/-- The three matrices behind the scales. -/
def int8Expert (floats : Floats) (bytes : List UInt8) (dModel dFf : ℕ) : OwnedExpertWeights :=
  let payload := part bytes 12 (3*(dModel*dFf))
  { dModel := dModel
    dFf := dFf
    gate := dequantInt8 (part payload 0 (dFf*dModel)) (floats.single (part bytes 0 4))
    up := dequantInt8 (part payload (dFf*dModel) (dFf*dModel)) (floats.single (part bytes 4 4))
    down := dequantInt8 (part payload (dFf*dModel+dFf*dModel) (dModel*dFf))
      (floats.single (part bytes 8 4)) }

theorem fromBytesInt8_agrees (hfits : 3*(dModel*dFf)+12 ≤ usizeMax) :
    Agrees (fun bytes => fromBytesInt8 floats bytes dModel dFf) (3*(dModel*dFf)+12) dModel dFf := by
  have hcount : expertWeightCount dModel dFf = 3*(dModel*dFf) := expertWeightCount_eq (by omega)
  have hneed : saturatingAdd usizeMax (3*(dModel*dFf)) int8HeaderBytes = 3*(dModel*dFf)+12 :=
    Nat.min_eq_left hfits
  refine Agrees.of_expert (fun bytes => int8Expert floats bytes dModel dFf) ?_ ?_ ?_ ?_
  · intro bytes hshort
    unfold fromBytesInt8
    dsimp only
    rw [hcount, hneed, if_pos hshort]
    exact ⟨_,rfl⟩
  · intro bytes hlong
    have hmeta : Int8ExpertMeta.readFrom floats bytes = some ⟨floats.single (part bytes 0 4),
        floats.single (part bytes 4 4),floats.single (part bytes 8 4)⟩ := by
      unfold Int8ExpertMeta.readFrom int8HeaderBytes
      rw [if_neg (by omega)]
    unfold fromBytesInt8
    dsimp only
    rw [hcount, hneed, if_neg (not_lt.mpr hlong), hmeta]
    rfl
  · intro bytes _
    unfold int8Expert
    dsimp only
    rw [part_take (by omega), part_take (by omega), part_take (by omega), part_take (by omega)]
  · intro bytes hlong
    have hcomm := Nat.mul_comm dFf dModel
    constructor <;>
      simp only [int8Expert, dequantInt8, List.length_map, Quant.length_part] <;> omega

end Numbers

section Blocks
variable {floats : Floats} {half : UInt16 → ℚ} {dtype : GgmlDType} {dModel dFf : ℕ}

lemma matrixBytes_comm (dtype : GgmlDType) (dModel dFf : ℕ) :
    matrixBytes dtype dModel dFf = divCeil (dModel*dFf) dtype.blockSize*dtype.typeSize := by
  rw [matrixBytes, Nat.mul_comm dFf]

lemma weights_le_usizeMax (hfits : 3*matrixBytes dtype dModel dFf ≤ usizeMax) :
    dFf*dModel ≤ usizeMax :=
  weights_le_of_blocks dtype.blockSize_pos (by cases dtype <;> decide) hfits

lemma blockExpert_take (bytes : List UInt8) :
    blockExpert half dtype (bytes.take (3*matrixBytes dtype dModel dFf)) dModel dFf =
      blockExpert half dtype bytes dModel dFf := by
  unfold blockExpert
  dsimp only
  rw [part_take (by omega), part_take (by omega), part_take (by omega)]

lemma shaped_blockExpert (bytes : List UInt8) :
    Shaped (blockExpert half dtype bytes dModel dFf) dModel dFf := by
  constructor <;> simp [blockExpert]

theorem fromBytesBlocks_agrees (hfits : 3*matrixBytes dtype dModel dFf ≤ usizeMax) :
    Agrees (fun bytes => fromBytesBlocks half dtype bytes dModel dFf)
      (3*matrixBytes dtype dModel dFf) dModel dFf := by
  have heq := fun bytes => @fromBytesBlocks_eq half dtype dModel dFf bytes
    (weights_le_usizeMax hfits) hfits
  refine Agrees.of_expert (fun bytes => blockExpert half dtype bytes dModel dFf) ?_ ?_ ?_ ?_
  · intro bytes hshort
    rw [heq, if_pos hshort]
    exact ⟨_,rfl⟩
  · intro bytes hlong
    rw [heq, if_neg (not_lt.mpr hlong)]
  · exact fun bytes _ => blockExpert_take bytes
  · exact fun bytes _ => shaped_blockExpert bytes

/-- Without a tolerance no buffer is padded. -/
theorem fromBytesQ4_0_eq {bytes : List UInt8} (hfits : 3*matrixBytes .q4_0 dModel dFf ≤ usizeMax) :
    (bytes.length<3*matrixBytes .q4_0 dModel dFf →
      ∃ e, fromBytesQ4_0 floats bytes dModel dFf = .error e) ∧
    (3*matrixBytes .q4_0 dModel dFf ≤ bytes.length → fromBytesQ4_0 floats bytes dModel dFf =
      fromBytesBlocks floats.half .q4_0 bytes dModel dFf) := by
  have hn := weights_le_usizeMax hfits
  have hsum : (divCeil (dFf*dModel) 32+divCeil (dFf*dModel) 32+divCeil (dFf*dModel) 32)*18 =
      3*matrixBytes .q4_0 dModel dFf := @threeMatrices_eq .q4_0 dModel dFf
  unfold fromBytesQ4_0 fromBytesQ4_0WithTolerance
  dsimp only
  rw [saturatingMul_of_le hn, saturatingMul_comm_of_le hn, saturatingMul_of_le (hsum ▸ hfits), hsum]
  generalize 3*matrixBytes .q4_0 dModel dFf = need
  unfold q4ExpertBytesWithTolerance
  constructor
  · intro hshort
    rw [if_neg (not_le.mpr hshort)]
    by_cases htruncated : expertSizeToleranceBytes<need ∧
        need-bytes.length ≤ expertSizeToleranceBytes
    · rw [if_pos htruncated, if_pos (by omega)]
      exact ⟨_,rfl⟩
    · rw [if_neg htruncated]
      exact ⟨_,rfl⟩
  · intro hlong
    rw [if_pos hlong]
    rfl

theorem fromBytesQ4_0_agrees (hfits : 3*matrixBytes .q4_0 dModel dFf ≤ usizeMax) :
    Agrees (fun bytes => fromBytesQ4_0 floats bytes dModel dFf) (3*matrixBytes .q4_0 dModel dFf)
      dModel dFf := by
  refine Agrees.of_expert (fun bytes => blockExpert floats.half .q4_0 bytes dModel dFf) ?_ ?_ ?_ ?_
  · exact fun bytes hshort => (fromBytesQ4_0_eq hfits).1 hshort
  · intro bytes hlong
    rw [(fromBytesQ4_0_eq hfits).2 hlong, fromBytesBlocks_eq (weights_le_usizeMax hfits) hfits,
      if_neg (not_lt.mpr hlong)]
  · exact fun bytes _ => blockExpert_take bytes
  · exact fun bytes _ => shaped_blockExpert bytes

end Blocks

section Mxfp4
variable {floats : Floats} {bytes : List UInt8} {short : DecodeError} {off rows cols dModel dFf : ℕ}

/-- A matrix whose rows end within a byte. -/
def OddRows (rows cols : ℕ) : Prop := cols % 2 ≠ 0 ∧ rows*cols ≠ 0

instance (rows cols : ℕ) : Decidable (OddRows rows cols) := inferInstanceAs (Decidable (_ ∧ _))

lemma le_divCeil_two (cols : ℕ) : cols ≤ 2*divCeil cols 2 := by
  unfold divCeil
  omega

lemma weights_le_exactMxfp4Bytes (rows cols : ℕ) : rows*cols ≤ 2*exactMxfp4Bytes rows cols := by
  have hle := Nat.mul_le_mul_left rows (le_divCeil_two cols)
  rw [Nat.mul_left_comm] at hle
  unfold exactMxfp4Bytes
  omega

lemma slice_eq {start stop : ℕ} (hle : start ≤ stop) (hstop : stop ≤ bytes.length) :
    slice bytes start stop = some (part bytes start (stop-start)) := by
  rw [slice, if_pos ⟨hle,hstop⟩]

/-- The values of a matrix from an offset on. -/
def mxfp4Matrix (floats : Floats) (bytes : List UInt8) (off rows cols : ℕ) : List ℚ :=
  dequantMxfp4 floats (part bytes off (rows*divCeil cols 2))
    (part bytes (off+rows*divCeil cols 2) (rows*divCeil cols 32)) rows cols

lemma length_dequantMxfp4 {packed scales : List UInt8} (hodd : ¬ OddRows rows cols)
    (hpacked : packed.length = saturatingMul usizeMax rows (divCeil cols 2))
    (hscales : scales.length = saturatingMul usizeMax rows (divCeil cols 32)) :
    (dequantMxfp4 floats packed scales rows cols).length = rows*cols := by
  unfold dequantMxfp4
  dsimp only
  by_cases heven : cols % 2 ≠ 0
  · rw [if_pos heven]
    exact (not_not.mp fun hzero => hodd ⟨heven,Ne.symm hzero⟩)
  · rw [if_neg heven, if_neg (by rw [hpacked, hscales]; simp)]
    simp

lemma decodeProj_ok (hodd : ¬ OddRows rows cols) (hweights : rows*cols ≤ usizeMax)
    (hlen : off+exactMxfp4Bytes rows cols ≤ bytes.length)
    (hfits : off+exactMxfp4Bytes rows cols ≤ usizeMax) :
    decodeProj floats bytes short off rows cols =
        .ok (mxfp4Matrix floats bytes off rows cols,off+exactMxfp4Bytes rows cols) ∧
      (mxfp4Matrix floats bytes off rows cols).length = rows*cols := by
  unfold exactMxfp4Bytes at hlen hfits
  have hpackedLen : saturatingMul usizeMax rows (divCeil cols 2) = rows*divCeil cols 2 :=
    saturatingMul_of_le (by omega)
  have hscalesLen : saturatingMul usizeMax rows (divCeil cols 32) = rows*divCeil cols 32 :=
    saturatingMul_of_le (by omega)
  have hpacked : okOr (slice bytes off (off+rows*divCeil cols 2)) short =
      .ok (part bytes off (rows*divCeil cols 2)) := by
    rw [slice_eq (by omega) (by omega), Nat.add_sub_cancel_left]
    rfl
  have hscales : okOr (slice bytes (off+rows*divCeil cols 2)
      (off+rows*divCeil cols 2+rows*divCeil cols 32)) short =
        .ok (part bytes (off+rows*divCeil cols 2) (rows*divCeil cols 32)) := by
    rw [slice_eq (by omega) (by omega), Nat.add_sub_cancel_left]
    rfl
  have hout : (mxfp4Matrix floats bytes off rows cols).length = rows*cols := by
    apply length_dequantMxfp4 hodd
    · rw [Quant.length_part, hpackedLen]
      omega
    · rw [Quant.length_part, hscalesLen]
      omega
  refine ⟨?_,hout⟩
  unfold decodeProj
  dsimp only
  rw [hpackedLen, hscalesLen]
  refine bind_eq_ok.mpr ⟨_,by rw [checkedAdd_of_le (by omega)]; rfl,bind_eq_ok.mpr
    ⟨_,by rw [checkedAdd_of_le (by omega)]; rfl,bind_eq_ok.mpr ⟨_,hpacked,bind_eq_ok.mpr
      ⟨_,hscales,?_⟩⟩⟩⟩
  rw [saturatingMul_of_le hweights]
  refine (if_neg (not_not.mpr hout)).trans ?_
  rw [exactMxfp4Bytes, ← Nat.add_assoc]
  rfl

/-- A matrix whose rows end within a byte is refused. -/
lemma decodeProj_odd {out : List ℚ × ℕ} (h : decodeProj floats bytes short off rows cols = .ok out) :
    ¬ OddRows rows cols := by
  rintro ⟨hcols,hweights⟩
  obtain ⟨wEnd,-,h⟩ := bind_eq_ok.mp h
  obtain ⟨sEnd,-,h⟩ := bind_eq_ok.mp h
  obtain ⟨packed,-,h⟩ := bind_eq_ok.mp h
  obtain ⟨scales,-,h⟩ := bind_eq_ok.mp h
  have hout : dequantMxfp4 floats packed scales rows cols = [] := by
    rw [dequantMxfp4, if_pos hcols]
  have hlen : (dequantMxfp4 floats packed scales rows cols).length ≠
      saturatingMul usizeMax rows cols := by
    rw [hout]
    exact (Nat.lt_min.mpr ⟨Nat.pos_of_ne_zero hweights,by decide⟩).ne
  rw [if_pos hlen] at h
  cases h

/-- The three matrices one after the other. -/
def mxfp4Expert (floats : Floats) (bytes : List UInt8) (dModel dFf : ℕ) : OwnedExpertWeights :=
  let first := exactMxfp4Bytes dFf dModel
  { dModel := dModel
    dFf := dFf
    gate := mxfp4Matrix floats bytes 0 dFf dModel
    up := mxfp4Matrix floats bytes first dFf dModel
    down := mxfp4Matrix floats bytes (first+first) dModel dFf }

lemma mxfp4Matrix_take {size : ℕ} (h : off+exactMxfp4Bytes rows cols ≤ size) :
    mxfp4Matrix floats (bytes.take size) off rows cols = mxfp4Matrix floats bytes off rows cols := by
  unfold exactMxfp4Bytes at h
  unfold mxfp4Matrix
  rw [part_take (by omega), part_take (by omega)]

theorem fromBytesMxfp4_agrees (hfits : SizesFit dModel dFf .mxfp4)
    (hgate : ¬ OddRows dFf dModel) (hdown : ¬ OddRows dModel dFf) :
    Agrees (fun bytes => fromBytesMxfp4 floats bytes dModel dFf) (exactWeightBytes dModel dFf .mxfp4)
      dModel dFf := by
  have hneed := expertWeightBytesFor_eq hfits
  have hle := hfits.bytes_le
  have hcomm := Nat.mul_comm dFf dModel
  have hweights := weights_le_exactMxfp4Bytes dFf dModel
  have hweights' := weights_le_exactMxfp4Bytes dModel dFf
  have hsize : exactWeightBytes dModel dFf .mxfp4 =
      exactMxfp4Bytes dFf dModel+exactMxfp4Bytes dFf dModel+exactMxfp4Bytes dModel dFf := rfl
  have hproj : ∀ bytes : List UInt8, exactWeightBytes dModel dFf .mxfp4 ≤ bytes.length →
      fromBytesMxfp4 floats bytes dModel dFf = .ok (mxfp4Expert floats bytes dModel dFf) ∧
        Shaped (mxfp4Expert floats bytes dModel dFf) dModel dFf := by
    intro bytes hlong
    have hshort := not_lt.mpr (hneed ▸ hlong)
    obtain ⟨hfirst,hfirstLen⟩ := @decodeProj_ok floats bytes
      (bufferTooSmall bytes.length (exactWeightBytes dModel dFf .mxfp4) dModel dFf) 0 dFf dModel
      hgate (by omega) (by omega) (by omega)
    obtain ⟨hsecond,hsecondLen⟩ := @decodeProj_ok floats bytes
      (bufferTooSmall bytes.length (exactWeightBytes dModel dFf .mxfp4) dModel dFf)
      (exactMxfp4Bytes dFf dModel) dFf dModel hgate (by omega) (by omega) (by omega)
    obtain ⟨hthird,hthirdLen⟩ := @decodeProj_ok floats bytes
      (bufferTooSmall bytes.length (exactWeightBytes dModel dFf .mxfp4) dModel dFf)
      (exactMxfp4Bytes dFf dModel+exactMxfp4Bytes dFf dModel) dModel dFf hdown (by omega) (by omega)
      (by omega)
    refine ⟨?_,hfirstLen,hsecondLen,hthirdLen⟩
    unfold fromBytesMxfp4
    dsimp only
    rw [if_neg hshort, hneed]
    refine bind_eq_ok.mpr ⟨_,hfirst,?_⟩
    rw [Nat.zero_add]
    exact bind_eq_ok.mpr ⟨_,hsecond,bind_eq_ok.mpr ⟨_,hthird,rfl⟩⟩
  refine Agrees.of_expert (fun bytes => mxfp4Expert floats bytes dModel dFf) ?_
    (fun bytes hlong => (hproj bytes hlong).1) ?_ (fun bytes hlong => (hproj bytes hlong).2)
  · intro bytes hshort
    unfold fromBytesMxfp4
    dsimp only
    rw [hneed, if_pos hshort]
    exact ⟨_,rfl⟩
  · intro bytes _
    unfold mxfp4Expert
    dsimp only
    rw [mxfp4Matrix_take (by omega), mxfp4Matrix_take (by omega), mxfp4Matrix_take (by omega)]

theorem fromBytesMxfp4_odd (bytes : List UInt8) (h : OddRows dFf dModel ∨ OddRows dModel dFf) :
    ∃ e, fromBytesMxfp4 floats bytes dModel dFf = .error e := by
  cases hrun : fromBytesMxfp4 floats bytes dModel dFf with
  | error e => exact ⟨e,rfl⟩
  | ok weights =>
    unfold fromBytesMxfp4 at hrun
    dsimp only at hrun
    split_ifs at hrun
    obtain ⟨gate,hgate,hrun⟩ := bind_eq_ok.mp hrun
    obtain ⟨up,-,hrun⟩ := bind_eq_ok.mp hrun
    obtain ⟨down,hdown,-⟩ := bind_eq_ok.mp hrun
    exact (h.elim (decodeProj_odd hgate) (decodeProj_odd hdown)).elim

end Mxfp4

section Decoders
variable {floats : Floats} {address dModel dFf : ℕ} {dtype : WeightDtype} {decode : Decoder}

/-- Blocks of three matrices that are counted together are as many as blocks that are counted apart,
or fewer. -/
lemma divCeil_three_le (n : ℕ) : divCeil (3*n) 256 ≤ 3*divCeil n 256 := by
  unfold divCeil
  omega

/-- Exactly where the blocks are as many, the size of a Q4_K expert is what its decoder asks for. -/
theorem fromBytesQ4k_agrees_iff (hfits : SizesFit dModel dFf .q4k) :
    Agrees (fun bytes => fromBytesQ4k floats bytes dModel dFf) (expertWeightBytesFor dModel dFf .q4k)
        dModel dFf ↔ 3*divCeil (dModel*dFf) 256 = divCeil (3*(dModel*dFf)) 256 := by
  have hsize : expertWeightBytesFor dModel dFf .q4k = divCeil (3*(dModel*dFf)) 256*144 :=
    expertWeightBytesFor_eq hfits
  have hle : divCeil (3*(dModel*dFf)) 256*144 ≤ usizeMax := hfits.bytes_le
  have hmatrix : matrixBytes .q4k dModel dFf = divCeil (dModel*dFf) 256*144 := matrixBytes_comm _ _ _
  rw [hsize]
  constructor
  · intro h
    obtain ⟨weights,hok⟩ := (h.accepts_iff (List.replicate (divCeil (3*(dModel*dFf)) 256*144) 0)).mpr
      List.length_replicate.ge
    have hone : dModel*dFf ≤ usizeMax := by
      have hweights := hfits.weights_le rfl
      omega
    have hmul : saturatingMul usizeMax dFf dModel = dModel*dFf := saturatingMul_comm_of_le hone
    have hcount := divCeil_three_le (dModel*dFf)
    obtain ⟨view,hview,-⟩ := bind_eq_ok.mp hok
    unfold fromBlocks at hview
    dsimp only [GgmlDType.blockSize, GgmlDType.typeSize] at hview
    rw [saturatingMul_of_le hone, hmul, List.length_replicate] at hview
    split_ifs at hview with hshort
    · cases hview
    · -- the largest number of a word is odd, and thus no size
      rw [saturatingMul, usizeMax] at hshort
      rw [usizeMax] at hle
      omega
  · intro h
    have hthree : 3*matrixBytes .q4k dModel dFf = divCeil (3*(dModel*dFf)) 256*144 := by
      rw [hmatrix, ← h]
      ring
    rw [← hthree] at hle ⊢
    exact fromBytesBlocks_agrees hle

/-- The size of an expert of blocks is that of three matrices. -/
lemma exactWeightBytes_blocks {format : GgmlDType}
    (hformat : ggmlDtypeForOptimizedProjection dtype = some format)
    (hblocks : dtype = .q4k → 3*divCeil (dModel*dFf) 256 = divCeil (3*(dModel*dFf)) 256) :
    exactWeightBytes dModel dFf dtype = 3*matrixBytes format dModel dFf := by
  rw [matrixBytes_comm]
  cases dtype <;> cases hformat
  case q4k =>
    change divCeil (3*(dModel*dFf)) 256*144 = 3*(divCeil (dModel*dFf) 256*144)
    rw [← hblocks rfl]
    ring
  all_goals rfl

lemma projectionWeightBytesFor_blocks {format : GgmlDType}
    (hformat : ggmlDtypeForOptimizedProjection dtype = some format) (weights : ℕ) :
    projectionWeightBytesFor weights dtype = blockBytesFor weights format.blockSize format.typeSize := by
  cases dtype <;> cases hformat <;> rfl

/-- The size of an expert is what its decoder asks for, where the blocks of Q4_K are as many counted
apart as together. Microscaled rows that end within a byte are refused, and all else is decoded in
its shape, from the bytes of the expert alone. -/
theorem decoderFor_agrees (hdecode : decoderFor floats address dtype = some decode)
    (haddress : address % 4 = 0) (hfits : SizesFit dModel dFf dtype)
    (hblocks : dtype = .q4k → 3*divCeil (dModel*dFf) 256 = divCeil (3*(dModel*dFf)) 256) :
    (dtype = .mxfp4 → OddRows dFf dModel ∨ OddRows dModel dFf →
      ∀ bytes, ∃ e, decode bytes dModel dFf = .error e) ∧
    (¬ (dtype = .mxfp4 ∧ (OddRows dFf dModel ∨ OddRows dModel dFf)) →
      Agrees (fun bytes => decode bytes dModel dFf) (expertWeightBytesFor dModel dFf dtype)
        dModel dFf) ∧
    ((ggmlDtypeForOptimizedProjection dtype).isSome →
      ∃ one, projectionWeightBytesFor (dModel*dFf) dtype = some one ∧
        expertWeightBytesFor dModel dFf dtype = 3*one) := by
  have hsize := expertWeightBytesFor_eq hfits
  have hbytes := hfits.bytes_le
  have hthree : ∀ format, ggmlDtypeForOptimizedProjection dtype = some format →
      3*matrixBytes format dModel dFf ≤ usizeMax := by
    intro format hformat
    rwa [← exactWeightBytes_blocks hformat hblocks]
  refine ⟨?_,?_,?_⟩
  · rintro rfl hodd bytes
    cases hdecode
    exact fromBytesMxfp4_odd bytes hodd
  · intro hrows
    rw [hsize]
    cases dtype with
    | f32 => cases hdecode; exact fromBytes_agrees haddress hbytes
    | f16 => cases hdecode; exact fromBytesHalves_agrees _ hbytes
    | bf16 => cases hdecode; exact fromBytesHalves_agrees _ hbytes
    | int8 => cases hdecode; exact fromBytesInt8_agrees hbytes
    | q4_0 =>
      cases hdecode
      rw [exactWeightBytes_blocks rfl hblocks]
      exact fromBytesQ4_0_agrees (hthree _ rfl)
    | q4k | q8_0 | q5k | q6k =>
      cases hdecode
      rw [exactWeightBytes_blocks rfl hblocks]
      exact fromBytesBlocks_agrees (hthree _ rfl)
    | mxfp4 =>
      cases hdecode
      exact fromBytesMxfp4_agrees hfits (fun hodd => hrows ⟨rfl,.inl hodd⟩)
        fun hodd => hrows ⟨rfl,.inr hodd⟩
    | mixed => cases hdecode
  · intro hsome
    obtain ⟨format,hformat⟩ := Option.isSome_iff_exists.mp hsome
    have hle := hthree format hformat
    rw [hsize, projectionWeightBytesFor_blocks hformat, exactWeightBytes_blocks hformat hblocks]
    refine ⟨_,?_,rfl⟩
    rw [matrixBytes_comm] at hle ⊢
    exact checkedMul_of_le (by omega)

/-- Numbers by their patterns. -/
def plainFloats : Floats := ⟨fun bits => bits.toNat,fun bits => bits.toNat,fun bytes => Le.decode bytes⟩

/-- One matrix of 256 weights is one block of Q4_K. -/
theorem decoderFor_agrees_q4k : Agrees (fun bytes => fromBytesQ4k plainFloats bytes 16 16)
    (expertWeightBytesFor 16 16 .q4k) 16 16 :=
  (@decoderFor_agrees plainFloats 0 16 16 .q4k (fromBytesQ4k plainFloats) rfl rfl
    ⟨by decide,by decide⟩ (by decide)).2.1 (by decide)

/-- An expert with one weight in each matrix: a row of half a byte, and one block for all three
matrices of the size but three for its decoder. -/
theorem decoders_disagree :
    (decoderFor plainFloats 0 .mxfp4 = some (fromBytesMxfp4 plainFloats) ∧ SizesFit 1 1 .mxfp4 ∧
      ¬ Agrees (fun bytes => fromBytesMxfp4 plainFloats bytes 1 1) (expertWeightBytesFor 1 1 .mxfp4)
        1 1) ∧
    (decoderFor plainFloats 0 .q4k = some (fromBytesQ4k plainFloats) ∧ SizesFit 1 1 .q4k ∧
      ¬ Agrees (fun bytes => fromBytesQ4k plainFloats bytes 1 1) (expertWeightBytesFor 1 1 .q4k)
        1 1) := by
  have hfits : SizesFit 1 1 .mxfp4 := ⟨by decide,by decide⟩
  have hfits' : SizesFit 1 1 .q4k := ⟨by decide,by decide⟩
  refine ⟨⟨rfl,hfits,fun h => ?_⟩,rfl,hfits',fun h => ?_⟩
  · obtain ⟨weights,hok⟩ := (h.accepts_iff (List.replicate 6 0)).mpr (by decide)
    obtain ⟨e,herror⟩ := @fromBytesMxfp4_odd plainFloats 1 1 (List.replicate 6 0) (by decide)
    rw [hok] at herror
    cases herror
  · exact absurd ((fromBytesQ4k_agrees_iff hfits').mp h) (by decide)

end Decoders

end MicroExpertRouter.Experts
