import MicroExpertRouter.Experts.DirectProducts

/-! The direct execution of a Q8_0 expert computes what its decoded matrices do, for every shape, every
old scratch and every split of the rows. -/
namespace MicroExpertRouter.Experts
open scoped BigOperators
open Quant (part divCeil slice ownWeight Floats OwnedExpertWeights)
open RowMajor (entry product)
open Parallel (RowSplit)

/-- A part of a part. -/
lemma part_part {src : List UInt8} {start len start' len' : ℕ} (h : start'+len' ≤ len) :
    part (part src start len) start' len' = part src (start+start') len' := by
  unfold part
  rw [List.drop_take, List.take_take, List.drop_drop, Nat.min_eq_left (by omega)]

section Layout
variable {bytes : List UInt8} {xLen yLen dModel dFf : ℕ}

/-- When an expert can be executed: its payload holds three whole matrices. -/
structure Executable (bytes : List UInt8) (xLen yLen dModel dFf : ℕ) : Prop where
  dModel_ne : dModel ≠ 0
  dFf_ne : dFf ≠ 0
  x_eq : xLen = dModel
  y_eq : yLen = dModel
  need_le : 3*(divCeil (dModel*dFf) 32*34) ≤ bytes.length

/-- The layout of a payload: three matrices in a row. -/
def directLayout (bytes : List UInt8) (dModel dFf : ℕ) : Q8DirectLayout :=
  let size := divCeil (dModel*dFf) 32*34
  { gate := part bytes 0 size
    up := part bytes size size
    down := part bytes (size+size) size
    dModel := dModel
    dFf := dFf
    gateUpRowAligned := dModel % 32 = 0
    downRowAligned := dFf % 32 = 0 }

lemma take_matrix {src : List UInt8} {size need : ℕ} (h : size ≤ need) :
    (src.take need).take size = part src 0 size := by
  unfold part
  rw [List.take_take, Nat.min_eq_left h, List.drop_zero]

lemma take_drop_matrix {src : List UInt8} {size need : ℕ} (h : size+size ≤ need) :
    ((src.take need).drop size).take size = part src size size := by
  unfold part
  rw [List.drop_take, List.take_take, Nat.min_eq_left (by omega)]

lemma drop_drop_matrix {src : List UInt8} {size need : ℕ} (h : need = size+size+size) :
    ((src.take need).drop size).drop size = part src (size+size) size := by
  unfold part
  rw [List.drop_drop, List.drop_take, h, Nat.add_sub_cancel_left]

lemma validate_ok (hbytes : bytes.length ≤ isizeMax) (h : Executable bytes xLen yLen dModel dFf) :
    validateQ8DirectLayout bytes xLen yLen dModel dFf = .ok (directLayout bytes dModel dFf) := by
  obtain ⟨hmodel,hff,hx,hy,hneed⟩ := h
  have hle : bytes.length ≤ usizeMax := hbytes.trans (by decide)
  have hblocks := le_divCeil_mul (dModel*dFf) (show 0<32 by decide)
  have hlen : (bytes.take (divCeil (dModel*dFf) 32*34*3)).length = divCeil (dModel*dFf) 32*34*3 := by
    rw [List.length_take]
    omega
  unfold validateQ8DirectLayout directLayout
  rw [if_neg (by omega), if_neg (by omega), checkedMul_of_le (by omega)]
  change (okOr (checkedMul usizeMax (divCeil (dModel*dFf) 32) 34) _).bind _ = _
  rw [checkedMul_of_le (by omega)]
  change (okOr (checkedMul usizeMax (divCeil (dModel*dFf) 32*34) 3) _).bind _ = _
  rw [checkedMul_of_le (by omega)]
  generalize divCeil (dModel*dFf) 32 = blocks at hneed hlen ⊢
  change (if bytes.length<blocks*34*3 then _ else _) = _
  rw [if_neg (by omega)]
  dsimp only
  rw [if_neg]
  · rw [take_matrix (by omega), take_drop_matrix (by omega), drop_drop_matrix (by omega)]
  · simp only [List.length_take, List.length_drop, hlen]
    omega

lemma validate_error (h : ¬ Executable bytes xLen yLen dModel dFf) :
    ∃ e, validateQ8DirectLayout bytes xLen yLen dModel dFf = .error e ∧ e ≠ .panic := by
  unfold validateQ8DirectLayout
  by_cases hzero : dModel = 0 ∨ dFf = 0
  · rw [if_pos hzero]
    exact ⟨_,rfl,DecodeError.noConfusion⟩
  by_cases hmismatch : xLen ≠ dModel ∨ yLen ≠ dModel
  · rw [if_neg hzero, if_pos hmismatch]
    exact ⟨_,rfl,DecodeError.noConfusion⟩
  rw [if_neg hzero, if_neg hmismatch]
  by_cases hweights : dModel*dFf ≤ usizeMax
  swap
  · rw [checkedMul, if_neg hweights]
    exact ⟨_,rfl,DecodeError.noConfusion⟩
  rw [checkedMul_of_le hweights]
  change ∃ e, (okOr (checkedMul usizeMax (divCeil (dModel*dFf) 32) 34) _).bind _ = .error e ∧ _
  by_cases hblocks : divCeil (dModel*dFf) 32*34 ≤ usizeMax
  swap
  · rw [checkedMul, if_neg hblocks]
    exact ⟨_,rfl,DecodeError.noConfusion⟩
  rw [checkedMul_of_le hblocks]
  change ∃ e, (okOr (checkedMul usizeMax (divCeil (dModel*dFf) 32*34) 3) _).bind _ = .error e ∧ _
  by_cases hneed : divCeil (dModel*dFf) 32*34*3 ≤ usizeMax
  swap
  · rw [checkedMul, if_neg hneed]
    exact ⟨_,rfl,DecodeError.noConfusion⟩
  rw [checkedMul_of_le hneed]
  have hshort : bytes.length<divCeil (dModel*dFf) 32*34*3 := by
    by_contra hlong
    exact h ⟨by omega,by omega,by omega,by omega,by omega⟩
  change ∃ e, (if bytes.length<divCeil (dModel*dFf) 32*34*3 then _ else _) = Except.error e ∧ _
  rw [if_pos hshort]
  split_ifs
  · exact ⟨_,rfl,DecodeError.noConfusion⟩
  · exact ⟨_,rfl,DecodeError.noConfusion⟩

end Layout

section Rows
variable {half : UInt16 → ℚ} {src : List UInt8} {x : List ℚ} {rows cols : ℕ}

lemma forRows_ok {row : ℕ → Except DecodeError ℚ} {out : List ℚ} (split : RowSplit) (value : ℕ → ℚ)
    (hout : 0<out.length) (h : ∀ r, r<out.length → row r = .ok (value r)) :
    forRows split out cols row = .ok ((List.range out.length).map value) := by
  have hrun : split.run (out.map Except.ok) cols (rowWriter row) = (List.range out.length).map row := by
    rw [split.run_eq_map (fun _ _ => rfl) (by rwa [List.length_map]), List.length_map]
  rw [forRows, hrun, mapM_eq_ok, List.forall₂_map_left_iff, List.forall₂_map_right_iff,
    List.forall₂_same]
  exact fun r hr => h r (List.mem_range.mp hr)

/-- The blocks of a row are in the matrix. -/
lemma row_end_le {r : ℕ} (haligned : cols % 32 = 0) (hsrc : src.length = divCeil (rows*cols) 32*34)
    (hr : r<rows) : r*(cols/32*34)+cols/32*34 ≤ src.length := by
  have hwhole : rows*cols = rows*(cols/32)*32 := by
    rw [Nat.mul_assoc, Nat.div_mul_cancel (Nat.dvd_of_mod_eq_zero haligned)]
  have hblocks : divCeil (rows*cols) 32 = rows*(cols/32) := by
    rw [hwhole]
    unfold divCeil
    omega
  rw [hsrc, hblocks, Nat.mul_assoc, ← Nat.succ_mul]
  exact Nat.mul_le_mul_right _ hr

lemma length_row {r : ℕ} (haligned : cols % 32 = 0) (hsrc : src.length = divCeil (rows*cols) 32*34)
    (hr : r<rows) : (part src (r*(cols/32*34)) (cols/32*34)).length = cols/32*34 := by
  rw [Quant.length_part]
  exact min_eq_left (Nat.le_sub_of_add_le' (row_end_le haligned hsrc hr))

lemma readRange_row {r : ℕ} (haligned : cols % 32 = 0) (hsrc : src.length = divCeil (rows*cols) 32*34)
    (hr : r<rows) : readRange src (r*(cols/32*34)) ((r+1)*(cols/32*34)) =
      .ok (part src (r*(cols/32*34)) (cols/32*34)) := by
  rw [Nat.succ_mul, readRange, slice_eq (Nat.le_add_right _ _) (row_end_le haligned hsrc hr),
    Nat.add_sub_cancel_left]
  rfl

/-- An entry of the product with the decoded matrix. -/
def rowProduct (half : UInt16 → ℚ) (src : List UInt8) (x : List ℚ) (cols r : ℕ) : ℚ :=
  ∑ col ∈ Finset.range cols, ownWeight half .q8_0 src (r*cols+col)*entry x col

/-- The terms of a row are those of the matrix. -/
lemma sum_rowTerm {r : ℕ} (haligned : cols % 32 = 0) :
    ∑ n ∈ Finset.range cols, rowTerm half (part src (r*(cols/32*34)) (cols/32*34)) x n =
      rowProduct half src x cols r := by
  refine Finset.sum_congr rfl fun n hn => ?_
  have hlt := Finset.mem_range.mp hn
  have hcols : cols = cols/32*32 := (Nat.div_mul_cancel (Nat.dvd_of_mod_eq_zero haligned)).symm
  have hrow : r*cols = r*(cols/32)*32 := by rw [Nat.mul_assoc, ← hcols]
  have hdiv : (r*cols+n)/32 = r*(cols/32)+n/32 := by omega
  have hmod : (r*cols+n) % 32 = n % 32 := by omega
  have hstart : (r*(cols/32)+n/32)*34 = r*(cols/32*34)+n/32*34 := by ring
  unfold rowTerm ownWeight Quant.blockWeight Quant.GgmlDType.blockSize Quant.GgmlDType.typeSize
  dsimp only
  rw [hdiv, hmod, part_part (by omega), hstart]

/-- A row of whole blocks gives its entry of the product. -/
theorem rowDot_ok {r : ℕ} (haligned : cols % 32 = 0) (hsrc : src.length = divCeil (rows*cols) 32*34)
    (hx : x.length = cols) (hr : r<rows) :
    (do
      let rowBlocks ← readRange src (r*(cols/32*34)) ((r+1)*(cols/32*34))
      q8_0RowDotScalar half rowBlocks x) = .ok (rowProduct half src x cols r) := by
  have hwhole : cols/32*32 = cols := Nat.div_mul_cancel (Nat.dvd_of_mod_eq_zero haligned)
  rw [readRange_row haligned hsrc hr]
  change q8_0RowDotScalar half (part src _ _) x = _
  rw [q8_0RowDotScalar_ok (length_row haligned hsrc hr) (hx.trans hwhole.symm), hwhole,
    sum_rowTerm haligned]

/-- And two of them the two entries. -/
theorem gateUpRow_ok {gate up : List UInt8} {r : ℕ} (haligned : cols % 32 = 0)
    (hgate : gate.length = divCeil (rows*cols) 32*34) (hup : up.length = divCeil (rows*cols) 32*34)
    (hx : x.length = cols) (hr : r<rows) (combine : ℚ × ℚ → ℚ) :
    (do
      let gateBlocks ← readRange gate (r*(cols/32*34)) ((r+1)*(cols/32*34))
      let upBlocks ← readRange up (r*(cols/32*34)) ((r+1)*(cols/32*34))
      let sums ← q8_0GateUpRowScalar half gateBlocks upBlocks x
      return combine sums) =
        Except.ok (combine (rowProduct half gate x cols r,rowProduct half up x cols r)) := by
  have hwhole : cols/32*32 = cols := Nat.div_mul_cancel (Nat.dvd_of_mod_eq_zero haligned)
  rw [readRange_row haligned hgate hr, readRange_row haligned hup hr]
  change (q8_0GateUpRowScalar half (part gate _ _) (part up _ _) x).bind _ = _
  rw [q8_0GateUpRowScalar_ok (length_row haligned hgate hr) (length_row haligned hup hr)
    (hx.trans hwhole.symm), hwhole, sum_rowTerm haligned, sum_rowTerm haligned]
  rfl

end Rows

section Halves
variable {half : UInt16 → ℚ} {act : Activation} {split : RowSplit} {layout : Q8DirectLayout}

/-- A layout of three matrices of whole blocks. -/
structure Q8DirectLayout.Whole (layout : Q8DirectLayout) : Prop where
  dModel_pos : 0<layout.dModel
  dFf_pos : 0<layout.dFf
  gate_length : layout.gate.length = divCeil (layout.dFf*layout.dModel) 32*34
  up_length : layout.up.length = divCeil (layout.dFf*layout.dModel) 32*34
  down_length : layout.down.length = divCeil (layout.dModel*layout.dFf) 32*34
  gateUpRowAligned_iff : layout.gateUpRowAligned = true ↔ layout.dModel % 32 = 0
  downRowAligned_iff : layout.downRowAligned = true ↔ layout.dFf % 32 = 0

/-- Row by row, or a block after the other: the middle of an expert. -/
def gatedRows (act : Activation) (rows cols : ℕ) (gate up : ℕ → ℚ) (x : List ℚ) : List ℚ :=
  List.zipWith (fun gate up => act.silu (act.limitGate gate)*up) (product rows cols gate x)
    (product rows cols up x)

lemma length_gatedRows {rows cols : ℕ} {gate up : ℕ → ℚ} {x : List ℚ} :
    (gatedRows act rows cols gate up x).length = rows := by
  rw [gatedRows, List.length_zipWith, RowMajor.length_product, RowMajor.length_product, Nat.min_self]

lemma length_resize (v : List ℚ) (n : ℕ) : (resize v n).length = n := by
  rw [resize, List.length_append, List.length_take, List.length_replicate]
  omega

/-- The middle of the expert in a layout. -/
def Q8DirectLayout.middle (half : UInt16 → ℚ) (act : Activation) (layout : Q8DirectLayout)
    (x : List ℚ) : List ℚ :=
  gatedRows act layout.dFf layout.dModel (ownWeight half .q8_0 layout.gate)
    (ownWeight half .q8_0 layout.up) x

theorem gateUpDirect_ok {x : List ℚ} {scratch : Q8DirectScratch} (hlayout : layout.Whole)
    (hx : x.length = layout.dModel) (hgate : scratch.gate.length = layout.dFf)
    (hgated : scratch.gated.length = layout.dFf) :
    ∃ gate, gateUpDirect half act split layout x scratch = .ok ⟨gate,layout.middle half act x⟩ := by
  unfold gateUpDirect
  split_ifs with hflag
  · have haligned := hlayout.gateUpRowAligned_iff.mp hflag
    refine ⟨scratch.gate,?_⟩
    dsimp only
    rw [forRows_ok split (fun r => act.silu (act.limitGate
        (rowProduct half layout.gate x layout.dModel r))*rowProduct half layout.up x layout.dModel r)
      (hgated ▸ hlayout.dFf_pos), hgated, Q8DirectLayout.middle, gatedRows, product, product,
      List.zipWith_map, List.zipWith_self]
    · rfl
    · intro r hr
      exact gateUpRow_ok haligned hlayout.gate_length hlayout.up_length hx (hgated ▸ hr)
        fun sums => act.silu (act.limitGate sums.1)*sums.2
  · refine ⟨product layout.dFf layout.dModel (ownWeight half .q8_0 layout.gate) x,?_⟩
    rw [q8_0MatvecScalarFlat_ok hlayout.gate_length hx hgate hlayout.dFf_pos hlayout.dModel_pos,
      q8_0MatvecScalarFlat_ok hlayout.up_length hx hgated hlayout.dFf_pos hlayout.dModel_pos]
    change Except.ok (Q8DirectScratch.mk _ (_++List.drop _ _)) = _
    rw [List.drop_eq_nil_of_le (by rw [RowMajor.length_product, RowMajor.length_product]),
      List.append_nil]
    rfl

theorem downDirect_ok {gated y : List ℚ} (hlayout : layout.Whole)
    (hgated : gated.length = layout.dFf) (hy : y.length = layout.dModel) :
    downDirect half split layout gated y = .ok (product layout.dModel layout.dFf
      (ownWeight half .q8_0 layout.down) gated) := by
  unfold downDirect
  split_ifs with hflag
  · have haligned := hlayout.downRowAligned_iff.mp hflag
    dsimp only
    rw [forRows_ok split (rowProduct half layout.down gated layout.dFf) (hy ▸ hlayout.dModel_pos), hy]
    · rfl
    · exact fun r hr => rowDot_ok haligned hlayout.down_length hgated (hy ▸ hr)
  · exact q8_0MatvecScalarFlat_ok hlayout.down_length hgated hy hlayout.dModel_pos hlayout.dFf_pos

end Halves

section Expert
variable {floats : Floats} {act : Activation} {split : RowSplit} {bytes : List UInt8} {x y : List ℚ}
  {dModel dFf : ℕ} {scratch : Q8DirectScratch}

/-- `down * (silu(clamp(gate*x)) . (up*x))` for decoded matrices. -/
def swigluReference (act : Activation) (weights : OwnedExpertWeights) (x : List ℚ) : List ℚ :=
  product weights.dModel weights.dFf (entry weights.down)
    (gatedRows act weights.dFf weights.dModel (entry weights.gate) (entry weights.up) x)

lemma directLayout_whole (h : Executable bytes x.length y.length dModel dFf) :
    (directLayout bytes dModel dFf).Whole := by
  have hneed := h.need_le
  constructor
  case dModel_pos => exact Nat.pos_of_ne_zero h.dModel_ne
  case dFf_pos => exact Nat.pos_of_ne_zero h.dFf_ne
  case gateUpRowAligned_iff => exact decide_eq_true_iff
  case downRowAligned_iff => exact decide_eq_true_iff
  all_goals
    simp only [directLayout, Quant.length_part, Nat.mul_comm dFf dModel]
    omega

/-- The bytes behind the payload are not in the layout. -/
lemma directLayout_take : directLayout (bytes.take (3*(divCeil (dModel*dFf) 32*34))) dModel dFf =
    directLayout bytes dModel dFf := by
  unfold directLayout
  dsimp only
  rw [part_take (by omega), part_take (by omega), part_take (by omega)]

lemma fromBytesQ8_0_eq (hbytes : bytes.length ≤ isizeMax)
    (h : Executable bytes x.length y.length dModel dFf) : fromBytesQ8_0 floats bytes dModel dFf =
      .ok (blockExpert floats.half .q8_0 bytes dModel dFf) := by
  have hneed : 3*matrixBytes .q8_0 dModel dFf ≤ bytes.length := by
    rw [matrixBytes_comm]
    exact h.need_le
  have hfits := hneed.trans (hbytes.trans (show isizeMax ≤ usizeMax by decide))
  rw [fromBytesQ8_0, fromBytesBlocks_eq (weights_le_usizeMax hfits) hfits, if_neg (not_lt.mpr hneed)]

lemma product_decoded {rows cols n : ℕ} (weight : ℕ → ℚ) (hn : n = rows*cols) (x : List ℚ) :
    product rows cols (entry ((List.range n).map weight)) x = product rows cols weight x :=
  RowMajor.product_congr (fun _ hi => Quant.entry_map_range weight (hn ▸ hi)) x

/-- The reference by the weights in the layout. -/
lemma swigluReference_blockExpert :
    swigluReference act (blockExpert floats.half .q8_0 bytes dModel dFf) x =
      product dModel dFf (ownWeight floats.half .q8_0 (directLayout bytes dModel dFf).down)
        ((directLayout bytes dModel dFf).middle floats.half act x) := by
  have hsize : matrixBytes .q8_0 dModel dFf = divCeil (dModel*dFf) 32*34 :=
    matrixBytes_comm .q8_0 dModel dFf
  unfold swigluReference Q8DirectLayout.middle gatedRows blockExpert directLayout
  dsimp only
  rw [hsize, product_decoded _ rfl, product_decoded _ rfl, product_decoded _ rfl]

/-- An executable expert runs, whatever the scratch holds and however its rows are split. -/
theorem forwardQ8_0DirectInto_ok (hbytes : bytes.length ≤ isizeMax)
    (h : Executable bytes x.length y.length dModel dFf) :
    ∃ scratch', forwardQ8_0DirectInto floats.half act split bytes x dModel dFf scratch y =
      .ok (scratch',swigluReference act (blockExpert floats.half .q8_0 bytes dModel dFf) x) := by
  have hlayout := directLayout_whole h
  obtain ⟨gate,hgate⟩ := @gateUpDirect_ok floats.half act split (directLayout bytes dModel dFf) x
    ⟨resize scratch.gate dFf,resize scratch.gated dFf⟩ hlayout h.x_eq (length_resize _ _)
    (length_resize _ _)
  have hdown := @downDirect_ok floats.half split (directLayout bytes dModel dFf)
    ((directLayout bytes dModel dFf).middle floats.half act x) y hlayout length_gatedRows h.y_eq
  refine ⟨⟨gate,(directLayout bytes dModel dFf).middle floats.half act x⟩,?_⟩
  unfold forwardQ8_0DirectInto
  rw [validate_ok hbytes h]
  change (gateUpDirect floats.half act split (directLayout bytes dModel dFf) x _).bind _ = _
  rw [hgate]
  change (downDirect floats.half split (directLayout bytes dModel dFf) _ y).bind _ = _
  rw [hdown, swigluReference_blockExpert]
  rfl

lemma forwardQ8_0DirectInto_error (h : ¬ Executable bytes x.length y.length dModel dFf) :
    ∃ e, forwardQ8_0DirectInto floats.half act split bytes x dModel dFf scratch y = .error e ∧
      e ≠ .panic := by
  obtain ⟨e,he,hpanic⟩ := validate_error h
  refine ⟨e,?_,hpanic⟩
  unfold forwardQ8_0DirectInto
  rw [he]
  rfl

/-- The run reads the payload only: without the bytes behind it, it is the same. -/
lemma forwardQ8_0DirectInto_take (hbytes : bytes.length ≤ isizeMax)
    (h : Executable bytes x.length y.length dModel dFf) :
    forwardQ8_0DirectInto floats.half act split (bytes.take (3*(divCeil (dModel*dFf) 32*34))) x
      dModel dFf scratch y =
        forwardQ8_0DirectInto floats.half act split bytes x dModel dFf scratch y := by
  have hlength : (bytes.take (3*(divCeil (dModel*dFf) 32*34))).length =
      3*(divCeil (dModel*dFf) 32*34) := by
    rw [List.length_take, Nat.min_eq_left h.need_le]
  have htake : Executable (bytes.take (3*(divCeil (dModel*dFf) 32*34))) x.length y.length dModel dFf :=
    { h with need_le := hlength.ge }
  unfold forwardQ8_0DirectInto
  rw [validate_ok hbytes h, validate_ok (hlength.le.trans (h.need_le.trans hbytes)) htake,
    directLayout_take]

section Candle
variable {candle : Quant.Candle} {limit : Option ℚ} {half : UInt16 → ℚ}

/-- The activation of `inference.rs`. -/
def candleActivation (candle : Quant.Candle) (limit : Option ℚ) : Activation where
  silu := candle.silu
  clamp v low high := min (max v low) high
  swigluLimit := limit

lemma gated_product (rows cols : ℕ) (gate up : ℕ → ℚ) :
    Quant.gated candle limit (product rows cols gate x) (product rows cols up x) =
      gatedRows (candleActivation candle limit) rows cols gate up x := by
  cases limit with
  | none => exact List.zipWith_map_left
  | some limit =>
    unfold Quant.gated Quant.clampSwigluGate
    rw [List.map_map, List.zipWith_map_left]
    rfl

/-- With exact products, the decoded expert itself computes the reference. -/
theorem forward_eq_swigluReference {weights : OwnedExpertWeights} (hcandle : candle.Exact half)
    (hweights : Shaped weights weights.dModel weights.dFf) (hx : x.length = weights.dModel) :
    Quant.forward candle limit weights x =
      swigluReference (candleActivation candle limit) weights x := by
  have hrun : Quant.forwardCandle candle limit weights x =
      .ok (swigluReference (candleActivation candle limit) weights x) := by
    unfold Quant.forwardCandle swigluReference
    rw [hcandle.matmul_eq _ _ _ _ hweights.gate hx, hcandle.matmul_eq _ _ _ _ hweights.up hx]
    change candle.matmul _ _ _ (Quant.gated candle limit _ _) = _
    rw [gated_product]
    exact hcandle.matmul_eq _ _ _ _ hweights.down length_gatedRows
  unfold Quant.forward
  rw [hrun]

/-- The direct execution gives the output of the decoded expert. -/
theorem forwardQ8_0DirectInto_forward (hcandle : candle.Exact floats.half)
    (hbytes : bytes.length ≤ isizeMax) (h : Executable bytes x.length y.length dModel dFf) :
    ∃ scratch' weights, fromBytesQ8_0 floats bytes dModel dFf = .ok weights ∧
      forwardQ8_0DirectInto floats.half (candleActivation candle limit) split bytes x dModel dFf
        scratch y = .ok (scratch',Quant.forward candle limit weights x) := by
  obtain ⟨scratch',hrun⟩ := @forwardQ8_0DirectInto_ok floats (candleActivation candle limit) split
    bytes x y dModel dFf scratch hbytes h
  refine ⟨scratch',_,fromBytesQ8_0_eq hbytes h,?_⟩
  rw [hrun, forward_eq_swigluReference hcandle (shaped_blockExpert bytes) h.x_eq]

end Candle

/-- The direct execution runs on whole payloads of the right shapes, without an access behind the
payload, and computes what the decoded matrices do. -/
theorem forwardQ8_0DirectInto_refines (hbytes : bytes.length ≤ isizeMax) :
    ((∃ out, forwardQ8_0DirectInto floats.half act split bytes x dModel dFf scratch y = .ok out) ↔
      Executable bytes x.length y.length dModel dFf) ∧
    forwardQ8_0DirectInto floats.half act split bytes x dModel dFf scratch y ≠ .error .panic ∧
    ∀ out, forwardQ8_0DirectInto floats.half act split bytes x dModel dFf scratch y = .ok out →
      forwardQ8_0DirectInto floats.half act split (bytes.take (3*(divCeil (dModel*dFf) 32*34))) x
        dModel dFf scratch y = .ok out ∧
      ∃ weights, fromBytesQ8_0 floats bytes dModel dFf = .ok weights ∧
        out.2 = swigluReference act weights x := by
  by_cases h : Executable bytes x.length y.length dModel dFf
  · obtain ⟨scratch',hrun⟩ := @forwardQ8_0DirectInto_ok floats act split bytes x y dModel dFf scratch
      hbytes h
    refine ⟨⟨fun _ => h,fun _ => ⟨_,hrun⟩⟩,?_,?_⟩
    · rw [hrun]
      exact fun heq => by cases heq
    · intro out hout
      refine ⟨(forwardQ8_0DirectInto_take hbytes h).trans hout,_,fromBytesQ8_0_eq hbytes h,?_⟩
      rw [hrun] at hout
      rw [← Except.ok.inj hout]
  · obtain ⟨e,he,hpanic⟩ := @forwardQ8_0DirectInto_error floats act split bytes x y dModel dFf scratch h
    refine ⟨⟨fun hok => ?_,fun hok => absurd hok h⟩,?_,?_⟩
    · obtain ⟨out,hout⟩ := hok
      rw [he] at hout
      cases hout
    · rw [he]
      exact fun heq => hpanic (Except.error.inj heq)
    · intro out hout
      rw [he] at hout
      cases hout

theorem forwardQ8_0DirectInto_refines_thirtyThree :
    (∃ out, forwardQ8_0DirectInto (fun _ => 1) ⟨id,fun v _ _ => v,none⟩
      (RowSplit.ofPool ⟨2,false⟩ ⟨id,List.Perm.refl⟩) (List.replicate 204 1) [1] 1 33
      ⟨List.replicate 40 5,[]⟩ [7] = .ok out) ∧
    ¬ ∃ out, forwardQ8_0DirectInto (fun _ => 1) ⟨id,fun v _ _ => v,none⟩
      (RowSplit.ofPool ⟨2,false⟩ ⟨id,List.Perm.refl⟩) (List.replicate 203 1) [1] 1 33
      ⟨List.replicate 40 5,[]⟩ [7] = .ok out := by
  have hlong : (List.replicate 204 (1 : UInt8)).length ≤ isizeMax := by
    rw [List.length_replicate]
    decide
  have hshort : (List.replicate 203 (1 : UInt8)).length ≤ isizeMax := by
    rw [List.length_replicate]
    decide
  let floats : Floats := ⟨fun _ => 1,fun _ => 1,fun _ => 1⟩
  refine ⟨(@forwardQ8_0DirectInto_refines floats _ _ _ _ _ _ _ _ hlong).1.mpr ?_,fun h => ?_⟩
  · exact ⟨by decide,by decide,rfl,rfl,by rw [List.length_replicate]; decide⟩
  · have hneed := ((@forwardQ8_0DirectInto_refines floats _ _ _ _ _ _ _ _ hshort).1.mp h).need_le
    rw [List.length_replicate] at hneed
    exact absurd hneed (by decide)

end Expert

end MicroExpertRouter.Experts
