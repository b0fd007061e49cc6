import MicroExpertRouter.Quant.Experts

/-! When the two products of a packed projection agree: always, but for Q4_K, whose nibbles
`dequantize_q4k_block` takes from other places than the format has them. -/
namespace MicroExpertRouter.Quant
open RowMajor (product)

section Projection
variable {floats : Floats} {candle : Candle} {view : QuantProjectionView} {dtype : GgmlDType}
  {x y : List ℚ}

/-- The product of Candle is that of the weights of the format. -/
theorem optimized_eq (hcandle : candle.Exact floats.half)
    (hdtype : ggmlDtypeForOptimizedProjection view.dtype = some dtype)
    (hlayout : validateQmatmulProjection view dtype = .ok ()) (hx : x.length = view.cols)
    (hy : y.length = view.rows) : optimizedQuantizedMatvecQmm candle view x y dtype =
      .ok (product view.rows view.cols (ggmlWeight floats.half dtype view.bytes) x) := by
  obtain ⟨hcols,hweights,hbytes,_⟩ := layout_of_validate hdtype hlayout
  have hlen : view.bytes.length = view.rows*view.cols/dtype.blockSize*dtype.typeSize := by
    rw [hbytes, hweights, Nat.mul_div_cancel _ dtype.blockSize_pos]
  unfold optimizedQuantizedMatvecQmm
  rw [hcandle.qmatmul_eq dtype view.bytes view.rows view.cols x hcols hlen hx]
  dsimp only
  rw [if_neg (by rw [RowMajor.length_product, hy]; exact not_not.mpr rfl)]

/-- The result of a dispatch without the path it took. -/
def output (result : Except ExpertWeightsError (ProjectionDispatchKind × List ℚ)) :
    Except ExpertWeightsError (List ℚ) := result.map Prod.snd

/-- The same bytes at another address. -/
def QuantProjectionView.at (view : QuantProjectionView) (address : ℕ) : QuantProjectionView :=
  { view with address := address }

lemma validate_at (hlayout : validateQmatmulProjection view dtype = .ok ()) (address : ℕ) :
    validateQmatmulProjection (view.at address) dtype =
      if address % 2 = 0 then .ok ()
      else .error "projection byte range is not aligned for Candle QStorage" := by
  unfold validateQmatmulProjection at hlayout ⊢
  split_ifs at hlayout with hcols hweights hlen hbytes haddress
  unfold QuantProjectionView.at ggmlStorageAlignment
  dsimp only
  rw [if_neg hcols, if_neg hweights, if_neg hlen, if_neg hbytes]
  by_cases heven : address % 2 = 0
  · rw [if_neg (not_not.mpr heven), if_pos heven]
  · rw [if_pos heven, if_neg heven]

/-- A projection of packed blocks is multiplied on a zeroed output. -/
lemma quantizedMatvecInto_eq (hdtype : ggmlDtypeForOptimizedProjection view.dtype = some dtype)
    (hx : x.length = view.cols) (hy : y.length = view.rows) :
    quantizedMatvecInto floats candle view x y =
      quantizedMatvecQmmOrReference floats candle view x (List.replicate view.rows 0) := by
  unfold quantizedMatvecInto
  rw [if_neg (not_not.mpr hx), if_neg (not_not.mpr hy), hy]
  revert hdtype
  cases view.dtype <;> intro hdtype <;> cases hdtype <;> rfl

/-- The dispatch goes by the address: at an even one the product is that of the weights of the format,
at an odd one that of the weights that the decoders read. -/
theorem quantizedMatvecInto_at (hcandle : candle.Exact floats.half)
    (hdtype : ggmlDtypeForOptimizedProjection view.dtype = some dtype)
    (hlayout : validateQmatmulProjection view dtype = .ok ()) (hx : x.length = view.cols)
    (hy : y.length = view.rows) (address : ℕ) :
    output (quantizedMatvecInto floats candle (view.at address) x y) =
      .ok (product view.rows view.cols (if address % 2 = 0 then ggmlWeight floats.half dtype view.bytes
        else ownWeight floats.half dtype view.bytes) x) := by
  have hdtype' : ggmlDtypeForOptimizedProjection (view.at address).dtype = some dtype := hdtype
  have hscalar : scalarReferenceQuantizedMatvec floats (view.at address) x
      (List.replicate view.rows 0) =
        scalarReferenceQuantizedMatvec floats view x (List.replicate view.rows 0) := rfl
  have hfast : optimizedQuantizedMatvecQmm candle (view.at address) x (List.replicate view.rows 0)
      dtype = optimizedQuantizedMatvecQmm candle view x (List.replicate view.rows 0) dtype := rfl
  have hdispatch := @quantizedMatvecInto_eq floats candle (view.at address) dtype x y hdtype' hx hy
  have hrows : (view.at address).rows = view.rows := rfl
  rw [hdispatch, hrows]
  unfold quantizedMatvecQmmOrReference
  rw [hdtype']
  dsimp only
  rw [validate_at hlayout]
  split_ifs
  · dsimp only
    rw [hfast, optimized_eq hcandle hdtype hlayout hx List.length_replicate]
    rfl
  · dsimp only
    rw [hscalar, scalarReference_eq hdtype hlayout]
    rfl

/-- The blocks of a projection are read as the format has them. -/
lemma weights_agree_iff (hdtype : ggmlDtypeForOptimizedProjection view.dtype = some dtype)
    (hlayout : validateQmatmulProjection view dtype = .ok ()) :
    (∀ n, n<view.rows*view.cols → ownWeight floats.half dtype view.bytes n =
      ggmlWeight floats.half dtype view.bytes n) ↔ (view.dtype = .q4k →
        ∀ block, block<view.weights/256 → NibblesAgree floats.half (part view.bytes (block*144) 144)) := by
  by_cases hq4k : view.dtype = .q4k
  · obtain rfl : dtype = .q4k := by
      rw [hq4k] at hdtype
      exact (Option.some.inj hdtype).symm
    obtain ⟨_,hweights,_,_⟩ := layout_of_validate hdtype hlayout
    have hwhole : view.rows*view.cols = view.weights/256*256 := by
      rw [view.weights_eq, hweights]
      exact (Nat.div_mul_cancel (Nat.dvd_mul_left _ _)).symm
    rw [hwhole, ownWeight_eq_iff]
    exact ⟨fun h _ => h,fun h => h hq4k⟩
  · refine ⟨fun _ h => absurd h hq4k,fun _ n _ => ?_⟩
    cases dtype with
    | q4k =>
      refine absurd ?_ hq4k
      revert hdtype
      cases view.dtype <;> intro hdtype <;> cases hdtype
      rfl
    | q4_0 => rfl
    | q5k => rfl
    | q6k => rfl
    | q8_0 => rfl

/-- The scalar fallback and the packed product of a view, and the dispatches at all addresses, have
the same outputs when the weights are the same. -/
theorem projection_agrees_iff (hcandle : candle.Exact floats.half)
    (hdtype : ggmlDtypeForOptimizedProjection view.dtype = some dtype)
    (hlayout : validateQmatmulProjection view dtype = .ok ()) :
    ((∀ x : List ℚ, x.length = view.cols →
        scalarReferenceQuantizedMatvec floats view x (List.replicate view.rows 0) =
          optimizedQuantizedMatvecQmm candle view x (List.replicate view.rows 0) dtype) ∧
      ∀ (a b : ℕ) (x y : List ℚ), x.length = view.cols → y.length = view.rows →
        output (quantizedMatvecInto floats candle (view.at a) x y) =
          output (quantizedMatvecInto floats candle (view.at b) x y)) ↔
      (view.dtype = .q4k →
        ∀ block, block<view.weights/256 → NibblesAgree floats.half (part view.bytes (block*144) 144)) := by
  rw [← weights_agree_iff hdtype hlayout, ← RowMajor.product_eq_iff]
  constructor
  · rintro ⟨hpaths,_⟩ x hx
    have hpath := hpaths x hx
    rw [scalarReference_eq hdtype hlayout,
      optimized_eq hcandle hdtype hlayout hx List.length_replicate] at hpath
    exact Except.ok.inj hpath
  · intro hproduct
    refine ⟨fun x hx => ?_,fun a b x y hx hy => ?_⟩
    · rw [scalarReference_eq hdtype hlayout,
        optimized_eq hcandle hdtype hlayout hx List.length_replicate, hproduct x hx]
    · rw [quantizedMatvecInto_at hcandle hdtype hlayout hx hy a,
        quantizedMatvecInto_at hcandle hdtype hlayout hx hy b]
      split_ifs <;> simp only [hproduct x hx]

end Projection

section Block
variable {half : UInt16 → ℚ} {src : List UInt8}

/-- A Q5_K block with the scales and nibbles of a Q4_K block and no fifth bits. -/
def withoutFifthBits (src : List UInt8) : List UInt8 :=
  part src 0 16++List.replicate 32 0++part src 16 128

lemma length_withoutFifthBits (hsrc : src.length = 144) :
    (withoutFifthBits src).length = 176 := by
  simp [withoutFifthBits, hsrc]

lemma byteAt_head (hsrc : src.length = 144) {i : ℕ} (hi : i<16) :
    byteAt (withoutFifthBits src) i = byteAt src i := by
  have hpart := @byteAt_part src 0 16 i hi
  rw [Nat.zero_add] at hpart
  rw [← hpart]
  unfold withoutFifthBits byteAt
  rw [List.append_assoc]
  exact List.getD_append _ _ _ _ (by rw [length_part]; omega)

lemma byteAt_fifth (hsrc : src.length = 144) {i : ℕ} (hi : i<32) :
    byteAt (withoutFifthBits src) (16+i) = 0 := by
  have hhead : (part src 0 16).length = 16 := by
    rw [length_part]
    omega
  unfold withoutFifthBits byteAt
  rw [List.append_assoc, List.getD_append_right _ _ _ _ (by omega), hhead, Nat.add_sub_cancel_left,
    List.getD_append _ _ _ _ (by rw [List.length_replicate]; exact hi),
    List.getD_eq_getElem _ _ (by rw [List.length_replicate]; exact hi), List.getElem_replicate]

lemma byteAt_nibbles (hsrc : src.length = 144) {i : ℕ} (hi : i<128) :
    byteAt (withoutFifthBits src) (48+i) = byteAt src (16+i) := by
  have hhead : (part src 0 16++List.replicate 32 0).length = 48 := by
    rw [List.length_append, length_part, List.length_replicate]
    omega
  have hpart := @byteAt_part src 16 128 i hi
  rw [← hpart]
  unfold withoutFifthBits byteAt
  rw [List.getD_append_right _ _ _ _ (by omega), hhead, Nat.add_sub_cancel_left]

/-- Without fifth bits a Q5_K block has the elements of a Q4_K block. -/
lemma q5k_withoutFifthBits (hsrc : src.length = 144) {n : ℕ} (hn : n<256) :
    Ggml.q5k half (withoutFifthBits src) n = Ggml.q4k half src n := by
  have hscale : Ggml.subScale (withoutFifthBits src) (n/32) = Ggml.subScale src (n/32) := by
    unfold Ggml.subScale
    split_ifs
    · rw [byteAt_head hsrc (by omega)]
    · rw [byteAt_head hsrc (by omega), byteAt_head hsrc (by omega)]
  have hmin : Ggml.subMin (withoutFifthBits src) (n/32) = Ggml.subMin src (n/32) := by
    unfold Ggml.subMin
    split_ifs
    · rw [byteAt_head hsrc (by omega)]
    · rw [byteAt_head hsrc (by omega), byteAt_head hsrc (by omega)]
  have hnibble : Ggml.nibble (withoutFifthBits src) 48 n = Ggml.nibble src 16 n := by
    unfold Ggml.nibble
    rw [byteAt_nibbles hsrc (by omega)]
  have hfloat : ∀ i, i<15 → Ggml.floatAt half (withoutFifthBits src) i = Ggml.floatAt half src i := by
    intro i hi
    unfold Ggml.floatAt
    rw [byteAt_head hsrc (by omega), byteAt_head hsrc (by omega)]
  unfold Ggml.q5k Ggml.q4k
  rw [hscale, hmin, hnibble, hfloat 0 (by decide), hfloat 2 (by decide),
    byteAt_fifth hsrc (Nat.mod_lt _ (by decide))]
  simp

/-- The decoders of Q4_K and Q5_K agree on a block where the nibbles do. -/
theorem dequantize_eq_iff {dst dst' : List ℚ} (hsrc : src.length = 144) (hdst : dst.length = 256)
    (hdst' : dst'.length = 256) :
    dequantizeQ4kBlock half src dst = dequantizeQ5kBlock half (withoutFifthBits src) dst' ↔
      NibblesAgree half src := by
  rw [dequantizeQ4kBlock_eq hdst, dequantizeQ5kBlock_eq (length_withoutFifthBits hsrc) hdst',
    ← ownQ4k_eq_iff, List.map_inj_left]
  constructor
  · intro h n hn
    rw [h n (List.mem_range.mpr hn), q5k_withoutFifthBits hsrc hn]
  · intro h n hn
    rw [h n (List.mem_range.mp hn), q5k_withoutFifthBits hsrc (List.mem_range.mp hn)]

end Block

section Expert
variable {floats : Floats} {candle : Candle} {bytes : List UInt8} {dModel dFf : ℕ}

lemma part_part {src : List UInt8} {start len start' len' : ℕ} (h : start'+len' ≤ len) :
    part (part src start len) start' len' = part src (start+start') len' := by
  unfold part
  rw [List.drop_take, List.drop_drop, List.take_take, Nat.min_eq_left (by omega)]

/-- The blocks of the three matrices are the blocks of the payload. -/
lemma matrices_agree_iff {half : UInt16 → ℚ} : (∀ role, role<3 → ∀ block, block<dFf*dModel/256 →
      NibblesAgree half (part (matrixBytes bytes dModel dFf role) (block*144) 144)) ↔
    ∀ block, block<3*(dFf*dModel/256) → NibblesAgree half (part bytes (block*144) 144) := by
  have hpart : ∀ role block, block<dFf*dModel/256 →
      part (matrixBytes bytes dModel dFf role) (block*144) 144 =
        part bytes ((role*(dFf*dModel/256)+block)*144) 144 := by
    intro role block hblock
    unfold matrixBytes
    rw [part_part (by omega), Nat.add_mul, Nat.mul_assoc]
  constructor
  · intro h block hblock
    have hpos : 0<dFf*dModel/256 := by omega
    have hrole : block/(dFf*dModel/256)<3 :=
      Nat.div_lt_of_lt_mul (by rwa [Nat.mul_comm])
    have hagree := h _ hrole (block % (dFf*dModel/256)) (Nat.mod_lt _ hpos)
    rwa [hpart _ _ (Nat.mod_lt _ hpos), Nat.div_add_mod'] at hagree
  · intro h role hrole block hblock
    rw [hpart role block hblock]
    refine h _ ?_
    calc role*(dFf*dModel/256)+block<role*(dFf*dModel/256)+dFf*dModel/256 := by omega
      _ = (role+1)*(dFf*dModel/256) := (Nat.succ_mul _ _).symm
      _ ≤ 3*(dFf*dModel/256) := Nat.mul_le_mul_right _ hrole

/-- An expert of Q4_K blocks is decoded to the weights of the format, and runs to the same output with
and without decoding it, when the nibbles agree in all of its blocks. -/
theorem expert_agrees_iff (hcandle : candle.Exact floats.half) (hmodel : dModel % 256 = 0)
    (hff : dFf % 256 = 0) (hfits : 3*(dFf*dModel/256*144) ≤ usizeMax)
    (hlen : 3*(dFf*dModel/256*144) ≤ bytes.length) :
    (fromBytesQ4k floats.half bytes dModel dFf =
        .ok (expertOf (ggmlWeight floats.half .q4k) bytes dModel dFf) ∧
      ∀ (limit : Option ℚ) (x : List ℚ), x.length = dModel →
        runInferenceQ4k floats candle limit bytes x dModel dFf =
          runInferenceQ4kQmm candle limit bytes x dModel dFf) ↔
      ∀ block, block<3*(dFf*dModel/256) → NibblesAgree floats.half (part bytes (block*144) 144) := by
  obtain ⟨_,_,hwhole,_⟩ := @sizes dModel dFf hmodel hfits
  have hdecoded := @fromBytesQ4k_eq floats bytes dModel dFf hmodel hfits
  rw [if_neg (by omega)] at hdecoded
  have hrole : ∀ role, (∀ n, n<dFf*dModel →
      ownWeight floats.half .q4k (matrixBytes bytes dModel dFf role) n =
        ggmlWeight floats.half .q4k (matrixBytes bytes dModel dFf role) n) ↔
      ∀ block, block<dFf*dModel/256 →
        NibblesAgree floats.half (part (matrixBytes bytes dModel dFf role) (block*144) 144) := by
    intro role
    have hrun := @ownWeight_eq_iff floats.half (matrixBytes bytes dModel dFf role) (dFf*dModel/256)
    rwa [← hwhole] at hrun
  rw [← matrices_agree_iff]
  constructor
  · rintro ⟨hsame,_⟩ role hlt
    have hexpert := Except.ok.inj (hdecoded.symm.trans hsame)
    have hgate := congrArg OwnedExpertWeights.gate hexpert
    have hup := congrArg OwnedExpertWeights.up hexpert
    have hdown := congrArg OwnedExpertWeights.down hexpert
    refine (hrole role).mp fun n hn => ?_
    interval_cases role
    · exact List.map_inj_left.mp hgate n (List.mem_range.mpr hn)
    · exact List.map_inj_left.mp hup n (List.mem_range.mpr hn)
    · exact List.map_inj_left.mp hdown n (List.mem_range.mpr hn)
  · intro h
    have hgate := (hrole 0).mpr (h 0 (by decide))
    have hup := (hrole 1).mpr (h 1 (by decide))
    have hdown := (hrole 2).mpr (h 2 (by decide))
    refine ⟨?_,fun limit x hx => ?_⟩
    · unfold expertOf at hdecoded ⊢
      rw [hdecoded, List.map_congr_left fun n hn => hgate n (List.mem_range.mp hn),
        List.map_congr_left fun n hn => hup n (List.mem_range.mp hn),
        List.map_congr_left fun n hn => hdown n (List.mem_range.mp hn)]
    · have hproduct : ∀ (rows cols role : ℕ) (v : List ℚ), rows*cols = dFf*dModel → role<3 →
          product rows cols (ownWeight floats.half .q4k (matrixBytes bytes dModel dFf role)) v =
            product rows cols (ggmlWeight floats.half .q4k (matrixBytes bytes dModel dFf role)) v := by
        intro rows cols role v hsize hlt
        exact RowMajor.product_congr (fun n hn => (hrole role).mpr (h role hlt) n (hsize ▸ hn)) v
      rw [runInferenceQ4k_eq hcandle hmodel hfits hx, runInferenceQ4kQmm_eq hcandle hmodel hff hfits hx]
      unfold swigluOutput
      rw [hproduct _ _ 0 _ rfl (by decide), hproduct _ _ 1 _ rfl (by decide),
        hproduct _ _ 2 _ (Nat.mul_comm _ _) (by decide)]

end Expert

/-- The fast and the fallback path of a packed projection have the same outputs, at every address of
its payload, unless it has a Q4_K block whose nibbles disagree; such a block is decoded differently as
the Q5_K block without fifth bits, and with one an expert is not decoded to the weights that the packed
path multiplies. -/
theorem packed_paths_agree_iff {floats : Floats} {candle : Candle} (hcandle : candle.Exact floats.half) :
    (∀ (view : QuantProjectionView) (dtype : GgmlDType),
      ggmlDtypeForOptimizedProjection view.dtype = some dtype →
      validateQmatmulProjection view dtype = .ok () →
      (((∀ x : List ℚ, x.length = view.cols →
          scalarReferenceQuantizedMatvec floats view x (List.replicate view.rows 0) =
            optimizedQuantizedMatvecQmm candle view x (List.replicate view.rows 0) dtype) ∧
        ∀ (a b : ℕ) (x y : List ℚ), x.length = view.cols → y.length = view.rows →
          output (quantizedMatvecInto floats candle (view.at a) x y) =
            output (quantizedMatvecInto floats candle (view.at b) x y)) ↔
        (view.dtype = .q4k → ∀ block, block<view.weights/256 →
          NibblesAgree floats.half (part view.bytes (block*144) 144)))) ∧
    (∀ (src : List UInt8) (dst dst' : List ℚ), src.length = 144 → dst.length = 256 →
      dst'.length = 256 →
      (dequantizeQ4kBlock floats.half src dst =
          dequantizeQ5kBlock floats.half (withoutFifthBits src) dst' ↔
        NibblesAgree floats.half src)) ∧
    ∀ (bytes : List UInt8) (dModel dFf : ℕ), dModel % 256 = 0 → dFf % 256 = 0 →
      3*(dFf*dModel/256*144) ≤ usizeMax → 3*(dFf*dModel/256*144) ≤ bytes.length →
      ((fromBytesQ4k floats.half bytes dModel dFf =
          .ok (expertOf (ggmlWeight floats.half .q4k) bytes dModel dFf) ∧
        ∀ (limit : Option ℚ) (x : List ℚ), x.length = dModel →
          runInferenceQ4k floats candle limit bytes x dModel dFf =
            runInferenceQ4kQmm candle limit bytes x dModel dFf) ↔
        ∀ block, block<3*(dFf*dModel/256) →
          NibblesAgree floats.half (part bytes (block*144) 144)) := by
  refine ⟨?_,?_,?_⟩
  · intro view dtype hdtype hlayout
    exact projection_agrees_iff hcandle hdtype hlayout
  · intro src dst dst' hsrc hdst hdst'
    exact dequantize_eq_iff hsrc hdst hdst'
  · intro bytes dModel dFf hmodel hff hfits hlen
    exact expert_agrees_iff hcandle hmodel hff hfits hlen

section Examples

/-- The finite numbers of two bytes. -/
def halfValue (bits : UInt16) : ℚ :=
  let exponent := bits.toNat/1024 % 32
  let mantissa := bits.toNat % 1024
  let size : ℚ := if exponent = 0 then mantissa/2^24 else (1024+mantissa)*2^exponent/2^25
  if bits.toNat<32768 then size else -size

/-- Candle on whole blocks and on floats, with an activation that is right at zero. -/
def wholeBlocks (half : UInt16 → ℚ) : Candle where
  qmatmul := fun dtype bytes rows cols x =>
    if cols % dtype.blockSize = 0 ∧ bytes.length = rows*cols/dtype.blockSize*dtype.typeSize ∧
        x.length = cols then
      .ok (product rows cols (ggmlWeight half dtype bytes) x)
    else .error "shape mismatch"
  matmul := fun weights rows cols x =>
    if weights.length = rows*cols ∧ x.length = cols then
      .ok (product rows cols (RowMajor.entry weights) x)
    else .error "shape mismatch"
  silu := fun v => v

lemma wholeBlocks_exact (half : UInt16 → ℚ) : (wholeBlocks half).Exact half where
  qmatmul_eq := by
    intro dtype bytes rows cols x hcols hbytes hx
    exact if_pos ⟨hcols,hbytes,hx⟩
  matmul_eq := by
    intro weights rows cols x hweights hx
    exact if_pos ⟨hweights,hx⟩

def plainFloats : Floats where
  half := halfValue
  bfloat := fun bits => bits.toNat
  single := fun bytes => bytes.length

/-- A Q4_K block with scale one, minimum zero and the given nibbles. -/
def blockOf (qs : List UInt8) : List UInt8 :=
  [0x00,0x3C,0x00,0x00]++[1,1,1,1,0,0,0,0,1,1,1,1]++qs

/-- A block whose only nibble other than zero is the upper one of its first byte. -/
def tornBlock : List UInt8 := blockOf (0x10::List.replicate 127 0)

/-- A block whose nibbles are all the same. -/
def evenBlock : List UInt8 := blockOf (List.replicate 128 0x22)

lemma length_blockOf {qs : List UInt8} (hqs : qs.length = 128) : (blockOf qs).length = 144 := by
  simp [blockOf, hqs]

lemma length_tornBlock : tornBlock.length = 144 := length_blockOf (by simp)

lemma length_evenBlock : evenBlock.length = 144 := length_blockOf (by simp)

lemma one_block : projectionWeightBytesFor (1*256) .q4k = some 144 := by
  decide

def tornView : QuantProjectionView :=
  viewOf "gate" .q4k 0 1 256 144 tornBlock one_block length_tornBlock

def evenView : QuantProjectionView :=
  viewOf "gate" .q4k 0 1 256 144 evenBlock one_block length_evenBlock

lemma evenBlock_agrees : NibblesAgree halfValue (part evenView.bytes (0*144) 144) := by
  decide +kernel

/-- A block of equal nibbles may stand at any address. -/
theorem packed_paths_agree_even :
    output (quantizedMatvecInto plainFloats (wholeBlocks halfValue) (evenView.at 1)
        (RowMajor.unit 256 1) [0]) =
      output (quantizedMatvecInto plainFloats (wholeBlocks halfValue) (evenView.at 0)
        (RowMajor.unit 256 1) [0]) := by
  have hview := (@packed_paths_agree_iff plainFloats (wholeBlocks halfValue)
    (wholeBlocks_exact halfValue)).1 evenView .q4k rfl (by decide +kernel)
  refine (hview.mpr fun _ block hblock => ?_).2 1 0 _ _ (RowMajor.length_unit _ _) rfl
  obtain rfl : block = 0 := Nat.lt_one_iff.mp hblock
  exact evenBlock_agrees

/-- With another block an aligned projection has another output than one that is not. -/
theorem alignment_changes_output :
    output (quantizedMatvecInto plainFloats (wholeBlocks halfValue) (tornView.at 1)
        (RowMajor.unit 256 1) [0]) = .ok [1] ∧
      output (quantizedMatvecInto plainFloats (wholeBlocks halfValue) (tornView.at 0)
        (RowMajor.unit 256 1) [0]) = .ok [0] ∧
      dequantizeQ4kBlock halfValue tornBlock (List.replicate 256 0) ≠
        dequantizeQ5kBlock halfValue (withoutFifthBits tornBlock) (List.replicate 256 0) := by
  refine ⟨?_,?_,?_⟩
  · decide +kernel
  · decide +kernel
  · decide +kernel

end Examples

end MicroExpertRouter.Quant
