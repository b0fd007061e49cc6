import MicroExpertRouter.Quant.Products

/-! The two ways to run an expert of Q4_K blocks: `run_inference_q4k` decodes its three matrices
first, `run_inference_q4k_qmm` hands their blocks to Candle. -/
namespace MicroExpertRouter.Quant
open RowMajor (entry product)
open Writes (writeBlock)

/-- Every block is decoded into its place. -/
def dequantizeQ4kToF32 (half : UInt16 → ℚ) (src : List UInt8) (nWeights : ℕ) : List ℚ :=
  let blocks := divCeil nWeights 256
  ((List.range blocks).foldl
    (fun dst b => writeBlock 256 (dequantizeQ4kBlock half (part src (b*144) 144)) dst b)
    (List.replicate (blocks*256) 0)).take nWeights

/-- Three matrices, with all columns. -/
structure OwnedExpertWeights where
  dModel : ℕ
  dFf : ℕ
  gate : List ℚ
  up : List ℚ
  down : List ℚ

def fromBytesQ4k (half : UInt16 → ℚ) (bytes : List UInt8) (dModel dFf : ℕ) :
    Except ExpertWeightsError OwnedExpertWeights :=
  let gateN := saturatingMul usizeMax dFf dModel
  let upN := saturatingMul usizeMax dFf dModel
  let downN := saturatingMul usizeMax dModel dFf
  let gateBlocks := divCeil gateN 256
  let upBlocks := divCeil upN 256
  let downBlocks := divCeil downN 256
  let needBytes := saturatingMul usizeMax (gateBlocks+upBlocks+downBlocks) 144
  if bytes.length<needBytes then .error (.bufferTooSmall bytes.length needBytes dModel dFf)
  else .ok {
    dModel := dModel
    dFf := dFf
    gate := dequantizeQ4kToF32 half (part bytes 0 (gateBlocks*144)) gateN
    up := dequantizeQ4kToF32 half (part bytes (gateBlocks*144) (upBlocks*144)) upN
    down := dequantizeQ4kToF32 half (part bytes (gateBlocks*144+upBlocks*144) (downBlocks*144)) downN }

def clampSwigluGate (limit : Option ℚ) (g : List ℚ) : List ℚ :=
  match limit with
  | some limit => g.map fun v => min (max v (-limit)) limit
  | none => g

/-- The activation between the products, of `forward_candle_tensors` and of `forward_qmm`. -/
def gated (candle : Candle) (limit : Option ℚ) (gate up : List ℚ) : List ℚ :=
  List.zipWith (·*·) ((clampSwigluGate limit gate).map candle.silu) up

def forwardCandle (candle : Candle) (limit : Option ℚ) (weights : OwnedExpertWeights) (x : List ℚ) :
    Except String (List ℚ) := do
  let g ← candle.matmul weights.gate weights.dFf weights.dModel x
  let u ← candle.matmul weights.up weights.dFf weights.dModel x
  candle.matmul weights.down weights.dModel weights.dFf (gated candle limit g u)

/-- A failed product is a product of zeros. -/
def forward (candle : Candle) (limit : Option ℚ) (weights : OwnedExpertWeights) (x : List ℚ) : List ℚ :=
  match forwardCandle candle limit weights x with
  | .ok y => y
  | .error _ => List.replicate weights.dModel 0

/-- The output of `run_inference_q4k`. -/
def runInferenceQ4k (floats : Floats) (candle : Candle) (limit : Option ℚ) (data : List UInt8)
    (x : List ℚ) (dModel dFf : ℕ) : Except ExpertWeightsError (List ℚ) := do
  let weights ← fromBytesQ4k floats.half data dModel dFf
  return forward candle limit weights x

/-- `forward_qmm` of three runs of Q4_K blocks. -/
def forwardQmm (candle : Candle) (limit : Option ℚ) (gate up down : List UInt8) (x : List ℚ)
    (dModel dFf : ℕ) : Except String (List ℚ) := do
  let g ← candle.qmatmul .q4k gate dFf dModel x
  let u ← candle.qmatmul .q4k up dFf dModel x
  candle.qmatmul .q4k down dModel dFf (gated candle limit g u)

/-- The output of `run_inference_q4k_qmm`. -/
def runInferenceQ4kQmm (candle : Candle) (limit : Option ℚ) (bytes : List UInt8) (x : List ℚ)
    (dModel dFf : ℕ) : Except ExpertWeightsError (List ℚ) :=
  let one := saturatingMul usizeMax dFf dModel
  let oneBytes := divCeil one 256*144
  let need := oneBytes*3
  if bytes.length<need then .error (.bufferTooSmall bytes.length need dModel dFf)
  else
    (forwardQmm candle limit (part bytes 0 oneBytes) (part bytes oneBytes oneBytes)
      (part bytes (2*oneBytes) oneBytes) x dModel dFf).mapError .candle

section Decoded
variable {half : UInt16 → ℚ}

/-- A run of whole blocks is decoded as the elements that `dequantize_q4k_block` reads. -/
lemma dequantizeQ4kToF32_eq (src : List UInt8) (blocks : ℕ) :
    dequantizeQ4kToF32 half src (blocks*256) =
      (List.range (blocks*256)).map (ownWeight half .q4k src) := by
  have hblocks : divCeil (blocks*256) 256 = blocks := by
    unfold divCeil
    omega
  have hfold := @Writes.foldl_writeBlock ℚ 256
    (fun b => dequantizeQ4kBlock half (part src (b*144) 144)) (ownWeight half .q4k src)
    (List.replicate (blocks*256) 0) blocks List.length_replicate.ge ?_
  · unfold dequantizeQ4kToF32
    dsimp only
    rw [hblocks, hfold, List.drop_eq_nil_of_le List.length_replicate.le, List.append_nil]
    exact List.take_of_length_le (by simp)
  · intro block _ old hold
    rw [dequantizeQ4kBlock_eq hold]
    apply List.map_congr_left
    intro i hi
    have hlt := List.mem_range.mp hi
    have hdiv : (block*256+i)/256 = block := by omega
    have hmod : (block*256+i) % 256 = i := by omega
    unfold ownWeight blockWeight GgmlDType.blockSize GgmlDType.typeSize
    dsimp only
    rw [hdiv, hmod]
    rfl

end Decoded

section Agreement
variable {half : UInt16 → ℚ}

/-- The nibble of an element as `dequantize_q4k_block` finds it. -/
def ownNibble (block : List UInt8) (n : ℕ) : ℕ :=
  if n % 2 = 0 then Ggml.low (byteAt block (16+n/2)) else Ggml.high (byteAt block (16+n/2))

/-- Every element of a Q4_K block with a scale other than zero has the same nibble where
`dequantize_q4k_block` looks for it as where the format has it. -/
def NibblesAgree (half : UInt16 → ℚ) (block : List UInt8) : Prop :=
  ∀ n, n<256 → Ggml.floatAt half block 0*Ggml.subScale block (n/32) = 0 ∨
    ownNibble block n = Ggml.nibble block 16 n

instance (half : UInt16 → ℚ) (block : List UInt8) : Decidable (NibblesAgree half block) :=
  Nat.decidableBallLT 256 fun n _ => Ggml.floatAt half block 0*Ggml.subScale block (n/32) = 0 ∨
    ownNibble block n = Ggml.nibble block 16 n

lemma ownQ4k_eq_iff (block : List UInt8) : (∀ n, n<256 → ownQ4k half block n =
    Ggml.q4k half block n) ↔ NibblesAgree half block := by
  unfold NibblesAgree
  apply forall_congr'
  intro n
  have hown : ownQ4k half block n = Ggml.floatAt half block 0*Ggml.subScale block (n/32)*
      ownNibble block n-Ggml.floatAt half block 2*Ggml.subMin block (n/32) := rfl
  unfold Ggml.q4k
  rw [hown, sub_left_inj, mul_eq_mul_left_iff, Nat.cast_inj, or_comm]

/-- Runs of whole blocks are read alike when all their blocks are. -/
lemma ownWeight_eq_iff (src : List UInt8) (blocks : ℕ) : (∀ n, n<blocks*256 →
    ownWeight half .q4k src n = ggmlWeight half .q4k src n) ↔
      ∀ block, block<blocks → NibblesAgree half (part src (block*144) 144) := by
  constructor
  · intro h block hblock
    refine (ownQ4k_eq_iff _).mp fun n hn => ?_
    have hdiv : (block*256+n)/256 = block := by omega
    have hmod : (block*256+n) % 256 = n := by omega
    have hweight := h (block*256+n) (by omega)
    unfold ownWeight ggmlWeight blockWeight GgmlDType.blockSize GgmlDType.typeSize at hweight
    dsimp only at hweight
    rw [hdiv, hmod] at hweight
    exact hweight
  · intro h n hn
    exact (ownQ4k_eq_iff _).mpr (h (n/256) (by omega)) (n % 256) (Nat.mod_lt _ (by decide))

end Agreement

section Runs
variable {floats : Floats} {candle : Candle} {limit : Option ℚ} {bytes : List UInt8} {x : List ℚ}
  {dModel dFf : ℕ}

/-- The bytes of one of the three matrices. -/
def matrixBytes (bytes : List UInt8) (dModel dFf role : ℕ) : List UInt8 :=
  part bytes (role*(dFf*dModel/256*144)) (dFf*dModel/256*144)

/-- An expert with the weights of the format. -/
def expertOf (weight : List UInt8 → ℕ → ℚ) (bytes : List UInt8) (dModel dFf : ℕ) :
    OwnedExpertWeights where
  dModel := dModel
  dFf := dFf
  gate := (List.range (dFf*dModel)).map (weight (matrixBytes bytes dModel dFf 0))
  up := (List.range (dFf*dModel)).map (weight (matrixBytes bytes dModel dFf 1))
  down := (List.range (dFf*dModel)).map (weight (matrixBytes bytes dModel dFf 2))

/-- The sizes that both ways compute. -/
lemma sizes (hmodel : dModel % 256 = 0) (hfits : 3*(dFf*dModel/256*144) ≤ usizeMax) :
    saturatingMul usizeMax dFf dModel = dFf*dModel ∧ saturatingMul usizeMax dModel dFf = dFf*dModel ∧
      dFf*dModel = dFf*dModel/256*256 ∧ divCeil (dFf*dModel) 256 = dFf*dModel/256 := by
  have hdvd : 256 ∣ dFf*dModel := (Nat.dvd_of_mod_eq_zero hmodel).mul_left dFf
  have hwhole : dFf*dModel/256*256 = dFf*dModel := Nat.div_mul_cancel hdvd
  have hle : dFf*dModel ≤ usizeMax := by omega
  refine ⟨saturatingMul_of_le hle,saturatingMul_comm_of_le hle,hwhole.symm,?_⟩
  unfold divCeil
  omega

lemma fromBytesQ4k_eq (hmodel : dModel % 256 = 0) (hfits : 3*(dFf*dModel/256*144) ≤ usizeMax) :
    fromBytesQ4k floats.half bytes dModel dFf =
      if bytes.length<3*(dFf*dModel/256*144) then
        .error (.bufferTooSmall bytes.length (3*(dFf*dModel/256*144)) dModel dFf)
      else .ok (expertOf (ownWeight floats.half .q4k) bytes dModel dFf) := by
  obtain ⟨hmul,hmul',hwhole,hblocks⟩ := @sizes dModel dFf hmodel hfits
  have hneed : saturatingMul usizeMax (dFf*dModel/256+dFf*dModel/256+dFf*dModel/256) 144 =
      3*(dFf*dModel/256*144) := by
    rw [saturatingMul_of_le (by omega)]
    omega
  have hdecode : ∀ src, dequantizeQ4kToF32 floats.half src (dFf*dModel) =
      (List.range (dFf*dModel)).map (ownWeight floats.half .q4k src) := by
    intro src
    rw [hwhole]
    exact dequantizeQ4kToF32_eq src _
  unfold fromBytesQ4k expertOf matrixBytes
  dsimp only
  rw [hmul, hmul', hblocks, hneed, hdecode, hdecode, hdecode, Nat.zero_mul, Nat.one_mul, Nat.two_mul]

/-- The output of an expert. -/
def swigluOutput (candle : Candle) (limit : Option ℚ) (weight : List UInt8 → ℕ → ℚ)
    (bytes : List UInt8) (x : List ℚ) (dModel dFf : ℕ) : List ℚ :=
  product dModel dFf (weight (matrixBytes bytes dModel dFf 2)) (gated candle limit
    (product dFf dModel (weight (matrixBytes bytes dModel dFf 0)) x)
    (product dFf dModel (weight (matrixBytes bytes dModel dFf 1)) x))

lemma length_clampSwigluGate (g : List ℚ) : (clampSwigluGate limit g).length = g.length := by
  cases limit with
  | none => rfl
  | some limit => exact List.length_map _

lemma length_gated {g u : List ℚ} (hg : g.length = dFf) (hu : u.length = dFf) :
    (gated candle limit g u).length = dFf := by
  unfold gated
  rw [List.length_zipWith, List.length_map, length_clampSwigluGate, hg, hu, Nat.min_self]

lemma entry_map_range {n i : ℕ} (f : ℕ → ℚ) (hi : i<n) : entry ((List.range n).map f) i = f i := by
  simp [entry, hi]

lemma matmul_map_range {rows cols n : ℕ} {x : List ℚ} (hcandle : candle.Exact floats.half)
    (f : ℕ → ℚ) (hn : n = rows*cols) (hx : x.length = cols) :
    candle.matmul ((List.range n).map f) rows cols x = .ok (product rows cols f x) := by
  rw [hcandle.matmul_eq _ _ _ _ (by simp [hn]) hx]
  exact congrArg Except.ok (RowMajor.product_congr (fun i hi => entry_map_range f (hn ▸ hi)) x)

lemma forward_expertOf (hcandle : candle.Exact floats.half) (weight : List UInt8 → ℕ → ℚ)
    (hx : x.length = dModel) : forward candle limit (expertOf weight bytes dModel dFf) x =
      swigluOutput candle limit weight bytes x dModel dFf := by
  have hrun : forwardCandle candle limit (expertOf weight bytes dModel dFf) x =
      .ok (swigluOutput candle limit weight bytes x dModel dFf) := by
    unfold forwardCandle expertOf
    dsimp only
    rw [matmul_map_range hcandle _ rfl hx, matmul_map_range hcandle _ rfl hx]
    exact matmul_map_range hcandle _ (Nat.mul_comm _ _)
      (length_gated (RowMajor.length_product _ _ _ _) (RowMajor.length_product _ _ _ _))
  unfold forward
  rw [hrun]

/-- `run_inference_q4k` runs the expert that the in-house decoder reads. -/
theorem runInferenceQ4k_eq (hcandle : candle.Exact floats.half) (hmodel : dModel % 256 = 0)
    (hfits : 3*(dFf*dModel/256*144) ≤ usizeMax) (hx : x.length = dModel) :
    runInferenceQ4k floats candle limit bytes x dModel dFf =
      if bytes.length<3*(dFf*dModel/256*144) then
        .error (.bufferTooSmall bytes.length (3*(dFf*dModel/256*144)) dModel dFf)
      else .ok (swigluOutput candle limit (ownWeight floats.half .q4k) bytes x dModel dFf) := by
  unfold runInferenceQ4k
  rw [fromBytesQ4k_eq hmodel hfits]
  split_ifs
  · rfl
  · exact congrArg Except.ok (forward_expertOf hcandle _ hx)

lemma length_matrixBytes {role : ℕ} (hrole : role<3)
    (hlen : 3*(dFf*dModel/256*144) ≤ bytes.length) :
    (matrixBytes bytes dModel dFf role).length = dFf*dModel/256*144 := by
  have hstop : role*(dFf*dModel/256*144)+dFf*dModel/256*144 ≤ 3*(dFf*dModel/256*144) := by
    rw [← Nat.succ_mul]
    exact Nat.mul_le_mul_right _ hrole
  unfold matrixBytes
  rw [length_part]
  omega

lemma forwardQmm_eq (hcandle : candle.Exact floats.half) (hmodel : dModel % 256 = 0)
    (hff : dFf % 256 = 0) (hlen : 3*(dFf*dModel/256*144) ≤ bytes.length) (hx : x.length = dModel) :
    forwardQmm candle limit (matrixBytes bytes dModel dFf 0) (matrixBytes bytes dModel dFf 1)
        (matrixBytes bytes dModel dFf 2) x dModel dFf =
      .ok (swigluOutput candle limit (ggmlWeight floats.half .q4k) bytes x dModel dFf) := by
  have hgate := hcandle.qmatmul_eq .q4k (matrixBytes bytes dModel dFf 0) dFf dModel x hmodel
    (length_matrixBytes (by decide) hlen) hx
  have hup := hcandle.qmatmul_eq .q4k (matrixBytes bytes dModel dFf 1) dFf dModel x hmodel
    (length_matrixBytes (by decide) hlen) hx
  have hdown : (matrixBytes bytes dModel dFf 2).length = dModel*dFf/256*144 := by
    rw [Nat.mul_comm dModel]
    exact length_matrixBytes (by decide) hlen
  unfold forwardQmm
  rw [hgate, hup]
  exact hcandle.qmatmul_eq .q4k _ dModel dFf _ hff hdown
    (length_gated (RowMajor.length_product _ _ _ _) (RowMajor.length_product _ _ _ _))

/-- `run_inference_q4k_qmm` runs the expert with the weights of the format. -/
theorem runInferenceQ4kQmm_eq (hcandle : candle.Exact floats.half) (hmodel : dModel % 256 = 0)
    (hff : dFf % 256 = 0) (hfits : 3*(dFf*dModel/256*144) ≤ usizeMax) (hx : x.length = dModel) :
    runInferenceQ4kQmm candle limit bytes x dModel dFf =
      if bytes.length<3*(dFf*dModel/256*144) then
        .error (.bufferTooSmall bytes.length (3*(dFf*dModel/256*144)) dModel dFf)
      else .ok (swigluOutput candle limit (ggmlWeight floats.half .q4k) bytes x dModel dFf) := by
  obtain ⟨hmul,_,_,hblocks⟩ := @sizes dModel dFf hmodel hfits
  have hgate : part bytes 0 (dFf*dModel/256*144) = matrixBytes bytes dModel dFf 0 := by
    rw [matrixBytes, Nat.zero_mul]
  have hup : part bytes (dFf*dModel/256*144) (dFf*dModel/256*144) =
      matrixBytes bytes dModel dFf 1 := by
    rw [matrixBytes, Nat.one_mul]
  have hdown : part bytes (2*(dFf*dModel/256*144)) (dFf*dModel/256*144) =
      matrixBytes bytes dModel dFf 2 := rfl
  unfold runInferenceQ4kQmm
  dsimp only
  rw [hmul, hblocks, Nat.mul_comm _ 3, hgate, hup, hdown]
  split_ifs with hshort
  · rfl
  · rw [forwardQmm_eq hcandle hmodel hff (by omega) hx]
    rfl

end Runs

end MicroExpertRouter.Quant
