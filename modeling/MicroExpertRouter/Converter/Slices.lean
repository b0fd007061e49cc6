import MicroExpertRouter.Converter.Headers

/-! The decoders find the three matrices in a payload that is padded: as floats, as blocks of one
dtype, or in the ranges of a mixed header. -/
namespace MicroExpertRouter.Converter
open Quant (WeightDtype QuantProjectionView divCeil part projectionWeightBytesFor projectionView)
open Storage (MixedExpertHeader ProjectionRange)

variable {dModel dFf size address : ℕ}

section Blocks
variable {matrices : Matrices UInt8}

lemma length_join {α : Type} (matrices : Matrices α) : matrices.join.length =
    matrices.gate.length+matrices.up.length+matrices.down.length := by
  rw [Matrices.join, List.length_append, List.length_append]

lemma le_length_padTo (size : ℕ) (bytes : List UInt8) : bytes.length ≤ (padTo size bytes).length := by
  rw [padTo, List.length_append]
  exact Nat.le_add_right _ _

/-- The matrices in a padded payload. -/
lemma parts_padTo (size : ℕ) (matrices : Matrices UInt8) :
    part (padTo size matrices.join) 0 matrices.gate.length = matrices.gate ∧
    part (padTo size matrices.join) matrices.gate.length matrices.up.length = matrices.up ∧
    part (padTo size matrices.join) (matrices.gate.length+matrices.up.length)
      matrices.down.length = matrices.down := by
  unfold padTo Matrices.join
  refine ⟨?_,?_,?_⟩
  · rw [List.append_assoc, List.append_assoc]
    exact part_append_left rfl
  · rw [List.append_assoc, List.append_assoc, part_append_right rfl]
    exact part_append_left rfl
  · rw [List.append_assoc, part_append_right (by rw [List.length_append])]
    exact part_append_left rfl

lemma Fits.usize (h : Fits dModel dFf) : dFf*dModel ≤ usizeMax := by
  have hlt := h.weights_lt
  rw [Nat.mul_comm] at hlt
  unfold usizeMax
  omega

/-- Three matrices of whole blocks are sliced where they were put. -/
lemma fromBlocks_padTo (hfits : Fits dModel dFf) {elems blockBytes : ℕ}
    (hgate : matrices.gate.length = divCeil (dFf*dModel) elems*blockBytes)
    (hup : matrices.up.length = divCeil (dFf*dModel) elems*blockBytes)
    (hdown : matrices.down.length = divCeil (dFf*dModel) elems*blockBytes) :
    fromBlocks elems blockBytes (padTo size matrices.join) dModel dFf = .ok matrices := by
  obtain ⟨hgatePart,hupPart,hdownPart⟩ := parts_padTo size matrices
  rw [hgate] at hgatePart
  rw [hgate, hup] at hupPart
  rw [hgate, hup, hdown] at hdownPart
  have hneed : saturatingMul usizeMax (divCeil (dFf*dModel) elems+divCeil (dFf*dModel) elems+
      divCeil (dFf*dModel) elems) blockBytes ≤ (padTo size matrices.join).length := by
    apply le_trans (Nat.min_le_left _ _)
    apply le_trans _ (le_length_padTo size matrices.join)
    rw [length_join, hgate, hup, hdown, Nat.add_mul, Nat.add_mul]
  have hdownN : saturatingMul usizeMax dModel dFf = dFf*dModel := by
    rw [saturatingMul, Nat.mul_comm]
    exact Nat.min_eq_left hfits.usize
  unfold fromBlocks
  dsimp only
  rw [hdownN, saturatingMul_of_le hfits.usize, if_neg (Nat.not_lt.mpr hneed), hgatePart, hupPart, hdownPart]

end Blocks

section Floats
variable {matrices : Matrices UInt32}

lemma length_encoded {values : List UInt32} :
    ∀ chunk ∈ values.map fun v => Le.encode 4 v.toNat, chunk.length = 4 := by
  intro chunk hmem
  obtain ⟨v,-,rfl⟩ := List.mem_map.mp hmem
  exact Le.length_encode 4 _

lemma length_f32ToLe (values : List UInt32) : (f32ToLe values).length = values.length*4 := by
  rw [f32ToLe, List.flatMap_def, Chunks.length_flatten length_encoded, List.length_map]

/-- Floats that are stored are read back. -/
lemma f32FromLe_f32ToLe (values : List UInt32) (rest : List UInt8) :
    f32FromLe (f32ToLe values++rest) values.length = values := by
  apply List.ext_getElem?
  intro i
  obtain hi | hi := Nat.lt_or_ge i values.length
  · have hchunk : (values.map fun v => Le.encode 4 v.toNat)[i]? = some (Le.encode 4 values[i].toNat) := by
      rw [List.getElem?_map, List.getElem?_eq_getElem hi]
      rfl
    have hread : Slab.read (f32ToLe values++rest) (i*4) 4 = Le.encode 4 values[i].toNat := by
      rw [f32ToLe, List.flatMap_def]
      exact Chunks.share_flatten length_encoded hchunk rest
    rw [f32FromLe, Chunks.getElem?_map_range _ hi, Fields.readLe, hread,
      Le.decode_encode 4 (UInt32.toNat_lt _), UInt32.ofNat_toNat, List.getElem?_eq_getElem hi]
  · rw [List.getElem?_eq_none (by simpa [f32FromLe] using hi), List.getElem?_eq_none hi]

lemma Fits.count (h : Fits dModel dFf) : expertWeightCount dModel dFf = dFf*dModel*3 := by
  have hle := h.usize
  have hlt := h.weights_lt
  rw [Nat.mul_comm] at hle
  unfold expertWeightCount
  rw [saturatingMul_of_le hle, saturatingMul_of_le (by unfold usizeMax; omega), Nat.mul_comm dModel]

/-- Three matrices of floats are sliced where they were put. -/
lemma fromBytes_padTo (hfits : Fits dModel dFf) (hgate : matrices.gate.length = dFf*dModel)
    (hup : matrices.up.length = dFf*dModel) (hdown : matrices.down.length = dFf*dModel)
    (haddress : address % 4 = 0) :
    fromBytes (padTo size (f32ToLe matrices.join)) address dModel dFf = .ok matrices := by
  have hjoin : matrices.join.length = dFf*dModel*3 := by
    rw [length_join, hgate, hup, hdown]
    omega
  have hneed : saturatingMul usizeMax (expertWeightCount dModel dFf) 4 ≤
      (padTo size (f32ToLe matrices.join)).length := by
    apply le_trans (Nat.min_le_left _ _)
    apply le_trans _ (le_length_padTo size _)
    rw [length_f32ToLe, hjoin, hfits.count]
  have hfloats : f32FromLe (padTo size (f32ToLe matrices.join)) (expertWeightCount dModel dFf) =
      matrices.join := by
    rw [hfits.count, ← hjoin]
    exact f32FromLe_f32ToLe _ _
  unfold fromBytes
  dsimp only
  rw [if_neg (Nat.not_lt.mpr hneed), if_neg (not_not.mpr haddress), hfloats, Matrices.join,
    List.append_assoc, List.take_left' hgate, List.drop_left' hgate, List.take_left' hup,
    List.drop_left' hup, Nat.mul_comm dModel dFf, ← hdown, List.take_length]

end Floats

section Mixed
variable {layout : ProjectionQuantLayout} {matrices : Matrices UInt8}

/-- A range of the right length is sliced out of the payload. -/
lemma projectionView_ok {payload : List UInt8} {range : ProjectionRange} {rows cols : ℕ}
    {name : String} (hshape : rows*cols ≤ usizeMax) (hweights : range.weights.toNat = rows*cols)
    (hbytes : projectionWeightBytesFor (rows*cols) (Quant.toWeight range.dtype) =
      some range.len.toNat) (hfits : range.offset.toNat+range.len.toNat ≤ payload.length)
    (hpayload : payload.length ≤ usizeMax) :
    ∃ view, projectionView payload address range rows cols name = .ok view ∧
      view.dtype = Quant.toWeight range.dtype ∧
      view.bytes = part payload range.offset.toNat range.len.toNat := by
  have hslice : Quant.slice payload range.offset.toNat (range.offset.toNat+range.len.toNat) =
      some (part payload range.offset.toNat range.len.toNat) := by
    rw [Quant.slice, if_pos ⟨Nat.le_add_right _ _,hfits⟩, Nat.add_sub_cancel_left]
  unfold projectionView
  dsimp only
  rw [if_neg (Nat.not_lt.mpr hshape), if_neg (not_not.mpr hweights)]
  split
  · rename_i hnone
    rw [hbytes] at hnone
    cases hnone
  · rename_i expectedBytes hexpected
    cases Option.some.inj (hbytes.symm.trans hexpected)
    rw [if_neg (not_not.mpr rfl), if_neg (Nat.not_lt.mpr (hfits.trans hpayload))]
    split
    · rename_i hnone
      rw [hslice] at hnone
      cases hnone
    · rename_i bytes hsome
      exact ⟨_,rfl,rfl,(Option.some.inj (hslice.symm.trans hsome)).symm⟩

/-- The matrices of a mixed expert, with their dtypes. -/
def mixedMatrices (layout : ProjectionQuantLayout) (matrices : Matrices UInt8) : ExpertSlices :=
  ⟨.blocks layout.gate.dtype matrices.gate,.blocks layout.up.dtype matrices.up,
    .blocks layout.down.dtype matrices.down⟩

/-- A matrix is as long as its specification says. -/
structure SizedAs (weights : ℕ) (spec : ProjectionQuantSpec) (bytes : List UInt8) : Prop where
  weights : spec.weights = weights
  length : bytes.length = spec.payloadBytes

/-- The range that the converter writes is sliced out of the payload. -/
lemma projectionRange_ok {payload bytes : List UInt8} {spec : ProjectionQuantSpec} {rows cols offset : ℕ}
    {name : String} (hshape : rows*cols<2^32) (hsized : SizedAs (rows*cols) spec bytes)
    (hfits : offset+bytes.length ≤ payload.length) (hpayload : payload.length ≤ usizeMax)
    (hpart : part payload offset bytes.length = bytes) :
    ∃ view, projectionView payload address (projectionRange spec offset bytes) rows cols name =
      .ok view ∧ view.dtype = spec.dtype ∧ view.bytes = bytes := by
  have hlt : payload.length<2^64 := Nat.lt_of_le_pred (by decide) hpayload
  have hoffset : (projectionRange spec offset bytes).offset.toNat = offset :=
    toNat_ofNat64_of_lt (by omega)
  have hlen : (projectionRange spec offset bytes).len.toNat = bytes.length :=
    toNat_ofNat64_of_lt (by omega)
  have hdtype : Quant.toWeight (projectionRange spec offset bytes).dtype = spec.dtype :=
    toWeight_fromWeight spec.dtype
  have hweights : (projectionRange spec offset bytes).weights.toNat = rows*cols := by
    rw [← hsized.weights]
    exact toNat_ofNat32_of_lt (hsized.weights ▸ hshape)
  have hbytes : projectionWeightBytesFor (rows*cols)
      (Quant.toWeight (projectionRange spec offset bytes).dtype) =
        some (projectionRange spec offset bytes).len.toNat := by
    rw [hdtype, hlen, hsized.length, ← hsized.weights]
    exact spec.payload_eq
  obtain ⟨view,hview,hviewDtype,hviewBytes⟩ := @projectionView_ok address payload
    (projectionRange spec offset bytes) rows cols name (by unfold usizeMax; omega) hweights hbytes
    (by rwa [hoffset, hlen]) hpayload
  rw [hdtype] at hviewDtype
  rw [hoffset, hlen, hpart] at hviewBytes
  exact ⟨view,hview,hviewDtype,hviewBytes⟩

/-- Three matrices of any dtypes are sliced where they were put. -/
lemma mixedSlices_padTo (hfits : Fits dModel dFf) (hplaced : Placed matrices size)
    (hgate : SizedAs (dFf*dModel) layout.gate matrices.gate)
    (hup : SizedAs (dFf*dModel) layout.up matrices.up)
    (hdown : SizedAs (dFf*dModel) layout.down matrices.down) :
    mixedSlices (ExpertResident.newWithBlockAlign
      ((mixedHeader dModel dFf layout matrices).writePadded defaultBlockAlign []++
        padTo size matrices.join) defaultBlockAlign) address dModel dFf =
      .ok (mixedMatrices layout matrices) := by
  have hsize : matrices.join.length ≤ size := by
    rw [length_join]
    exact hplaced.fits
  have hvalid := @validate_mixedHeader dModel dFf (padTo size matrices.join).length layout matrices
    hfits (by rwa [length_padTo hsize])
  have hlength : (padTo size matrices.join).length = size := length_padTo hsize
  have hpayload : (padTo size matrices.join).length ≤ usizeMax := by
    rw [hlength]
    exact Nat.le_pred_of_lt hplaced.payload_lt
  have hroom := hplaced.fits
  rw [← hlength] at hroom
  have hshape : dFf*dModel<2^32 := by
    rw [Nat.mul_comm]
    exact hfits.weights_lt
  rw [Nat.mul_comm dFf dModel] at hdown
  obtain ⟨hgatePart,hupPart,hdownPart⟩ := parts_padTo size matrices
  obtain ⟨gate,hgateView,hgateDtype,hgateBytes⟩ := @projectionRange_ok address _ _ _ dFf dModel 0
    "gate" hshape hgate (by omega) hpayload hgatePart
  obtain ⟨up,hupView,hupDtype,hupBytes⟩ := @projectionRange_ok address _ _ _ dFf dModel
    matrices.gate.length "up" hshape hup (by omega) hpayload hupPart
  obtain ⟨down,hdownView,hdownDtype,hdownBytes⟩ := @projectionRange_ok address _ _ _ dModel dFf
    (matrices.gate.length+matrices.up.length) "down" hfits.weights_lt hdown (by omega) hpayload
    hdownPart
  have hdims : ¬ ((mixedHeader dModel dFf layout matrices).dModel.toNat ≠ dModel ∨
      (mixedHeader dModel dFf layout matrices).dFf.toNat ≠ dFf) := by
    rw [not_or, not_not, not_not]
    exact ⟨toNat_ofNat32_of_lt hfits.dModel_lt,toNat_ofNat32_of_lt hfits.dFf_lt⟩
  have hview : MixedQuantExpertView.fromPayload (padTo size matrices.join) address
      (mixedHeader dModel dFf layout matrices) dModel dFf = .ok ⟨gate,up,down⟩ := by
    unfold MixedQuantExpertView.fromPayload
    rw [if_neg hdims, hvalid]
    exact bind_eq_ok.mpr ⟨gate,hgateView,bind_eq_ok.mpr ⟨up,hupView,
      bind_eq_ok.mpr ⟨down,hdownView,rfl⟩⟩⟩
  rw [resident_mixed hvalid]
  unfold mixedSlices ExpertResident.data
  dsimp only
  rw [List.drop_left' length_mixedHeader, hview]
  change Except.ok (ExpertSlices.mk (.blocks gate.dtype gate.bytes) (.blocks up.dtype up.bytes)
    (.blocks down.dtype down.bytes)) = _
  rw [hgateDtype, hgateBytes, hupDtype, hupBytes, hdownDtype, hdownBytes]
  rfl

end Mixed

end MicroExpertRouter.Converter
