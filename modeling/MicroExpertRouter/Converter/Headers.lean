import MicroExpertRouter.Converter.Loads
import MicroExpertRouter.Storage.HeaderRoundTrips

/-! The files that the converter writes, read back: the header is stripped, and the matrices are
sliced out of the payload where they were put. -/
namespace MicroExpertRouter.Converter
open Quant (WeightDtype divCeil part)
open Storage (TensorHeader MixedExpertHeader ProjectionRange uthBytes uth2Bytes)

section Padding
variable {size : ℕ} {bytes : List UInt8}

lemma length_padTo (h : bytes.length ≤ size) : (padTo size bytes).length = size := by
  rw [padTo, List.length_append, List.length_replicate, Nat.add_sub_cancel' h]

/-- The padding is behind the payload. -/
lemma padTo_append (size : ℕ) (header bytes : List UInt8) :
    padTo size (header++bytes) = header++padTo (size-header.length) bytes := by
  unfold padTo
  rw [List.length_append, List.append_assoc, Nat.sub_add_eq]

lemma part_append_left {front rest : List UInt8} {n : ℕ} (h : front.length = n) :
    part (front++rest) 0 n = front := by
  rw [part, List.drop_zero, ← h, List.take_left']
  rfl

lemma part_append_right {front rest : List UInt8} {start n : ℕ} (h : front.length = start) :
    part (front++rest) start n = part rest 0 n := by
  rw [part, part, List.drop_zero, ← h, List.drop_left' rfl]

end Padding

section Uniform
variable {dtype : WeightDtype} {dModel dFf : ℕ}

lemma forSwigluExpert_supported : (forSwigluExpert dtype dModel dFf).Supported := by
  constructor
  · change 1 ≤ (UInt16.ofNat 1).toNat ∧ (UInt16.ofNat 1).toNat ≤ 1
    decide
  · change 1 ≤ (3 : UInt8).toNat ∧ (3 : UInt8).toNat ≤ 4
    decide

lemma forSwigluExpert_flag :
    (forSwigluExpert dtype dModel dFf).flags &&& Storage.uthFlagPageAlignedPayload ≠ 0 := by
  change Storage.uthFlagPageAlignedPayload &&& Storage.uthFlagPageAlignedPayload ≠ 0
  decide

lemma length_uniformHeader :
    ((forSwigluExpert dtype dModel dFf).writePadded defaultBlockAlign []).length =
      defaultBlockAlign := by
  rw [TensorHeader.length_writePadded forSwigluExpert_flag]
  unfold TensorHeader.headerBytes
  rw [if_pos ⟨forSwigluExpert_flag,by decide⟩]
  rfl

/-- A header of one dtype is not one of mixed projections. -/
lemma mixed_probe_toBytes (h : TensorHeader) (rest : List UInt8) :
    MixedExpertHeader.probe (h.toBytes++rest) = none := by
  have hmagic : Slab.read (h.toBytes++rest) 0 4 = Storage.uthMagic := by
    rw [Slab.read_append _ (by rw [h.length_toBytes]; decide)]
    exact Fields.read_stored _ h.fields_within h.fields_order (0,Storage.uthMagic)
      (by simp [TensorHeader.fields])
  unfold MixedExpertHeader.probe
  rw [if_pos]
  right
  rw [hmagic]
  decide

/-- The payload behind a header of one dtype. -/
lemma resident_uniform (payload : List UInt8) :
    ExpertResident.newWithBlockAlign
        ((forSwigluExpert dtype dModel dFf).writePadded defaultBlockAlign []++payload)
          defaultBlockAlign =
      ⟨(forSwigluExpert dtype dModel dFf).writePadded defaultBlockAlign []++payload,
        defaultBlockAlign,none⟩ := by
  have hstrip := TensorHeader.strip_writePadded (@forSwigluExpert_supported dtype dModel dFf)
    forSwigluExpert_flag defaultBlockAlign payload
  have hmixed : MixedExpertHeader.strip
      ((forSwigluExpert dtype dModel dFf).writePadded defaultBlockAlign []++payload)
        defaultBlockAlign = none := by
    unfold MixedExpertHeader.strip TensorHeader.writePadded
    rw [List.nil_append, List.append_assoc, mixed_probe_toBytes]
    rfl
  unfold ExpertResident.newWithBlockAlign
  rw [hmixed]
  dsimp only
  rw [hstrip]
  dsimp only
  rw [List.length_append, Nat.add_sub_cancel, length_uniformHeader]

end Uniform

section Mixed
variable {dModel dFf payloadLen : ℕ} {layout : ProjectionQuantLayout} {matrices : Matrices UInt8}

lemma toNat_ofNat32_of_lt {n : ℕ} (h : n<2^32) : (UInt32.ofNat n).toNat = n := by
  rw [UInt32.toNat_ofNat', Nat.mod_eq_of_lt h]

lemma toNat_ofNat64_of_lt {n : ℕ} (h : n<2^64) : (UInt64.ofNat n).toNat = n := by
  rw [UInt64.toNat_ofNat', Nat.mod_eq_of_lt h]

lemma toWeight_fromWeight (dtype : WeightDtype) : Quant.toWeight (fromWeight dtype) = dtype := by
  cases dtype <;> rfl

lemma fromWeight_ne_mixed (spec : ProjectionQuantSpec) : fromWeight spec.dtype ≠ .mixed := by
  intro h
  have hdtype : spec.dtype = .mixed := by
    rw [← toWeight_fromWeight spec.dtype, h]
    rfl
  have hblock := spec.block_eq
  rw [hdtype] at hblock
  cases hblock

lemma past_of_fits {r : ProjectionRange} (hfits : r.offset.toNat+r.len.toNat ≤ payloadLen)
    (hpayload : payloadLen<2^64) : r.past = some (r.offset.toNat+r.len.toNat) := by
  apply checkedAdd_of_le
  unfold u64Max
  omega

lemma validateRange_of_fits {name : String} {r : ProjectionRange} (hdtype : r.dtype ≠ .mixed)
    (hlen : 0<r.len.toNat) (hfits : r.offset.toNat+r.len.toNat ≤ payloadLen)
    (hpayload : payloadLen<2^64) : Storage.validateRange payloadLen name r = .ok () := by
  have hzero : r.len ≠ 0 := by
    intro h
    rw [h] at hlen
    exact absurd hlen (by decide)
  unfold Storage.validateRange
  rw [if_neg hdtype, if_neg hzero, past_of_fits hfits hpayload]
  exact if_neg (Nat.not_lt.mpr hfits)

/-- The dimensions fit the header. -/
structure Fits (dModel dFf : ℕ) : Prop where
  dModel_pos : 0<dModel
  dFf_pos : 0<dFf
  weights_lt : dModel*dFf<2^32

lemma Fits.dModel_lt (h : Fits dModel dFf) : dModel<2^32 :=
  (Nat.le_mul_of_pos_right dModel h.dFf_pos).trans_lt h.weights_lt

lemma Fits.dFf_lt (h : Fits dModel dFf) : dFf<2^32 :=
  (Nat.le_mul_of_pos_left dFf h.dModel_pos).trans_lt h.weights_lt

/-- The matrices are not empty and fit the payload. -/
structure Placed (matrices : Matrices UInt8) (payloadLen : ℕ) : Prop where
  gate : 0 < matrices.gate.length
  up : 0 < matrices.up.length
  down : 0 < matrices.down.length
  fits : matrices.gate.length+matrices.up.length+matrices.down.length ≤ payloadLen
  payload_lt : payloadLen<2^64

/-- The ranges of a mixed header lie one behind the other. -/
structure Located (header : MixedExpertHeader) (matrices : Matrices UInt8) : Prop where
  gateOffset : header.gate.offset.toNat = 0
  gateLen : header.gate.len.toNat = matrices.gate.length
  upOffset : header.up.offset.toNat = matrices.gate.length
  upLen : header.up.len.toNat = matrices.up.length
  downOffset : header.down.offset.toNat = matrices.gate.length+matrices.up.length
  downLen : header.down.len.toNat = matrices.down.length

lemma located_mixedHeader (hplaced : Placed matrices payloadLen) :
    Located (mixedHeader dModel dFf layout matrices) matrices := by
  have hroom := hplaced.fits
  have hlt := hplaced.payload_lt
  constructor
  · rfl
  all_goals
    apply toNat_ofNat64_of_lt
    omega

lemma validate_mixedHeader (hfits : Fits dModel dFf) (hplaced : Placed matrices payloadLen) :
    (mixedHeader dModel dFf layout matrices).validate payloadLen = .ok () := by
  have hroom := hplaced.fits
  have hlt := hplaced.payload_lt
  have hversion : (mixedHeader dModel dFf layout matrices).version = Storage.uth2Version := rfl
  have hdims : ¬ ((mixedHeader dModel dFf layout matrices).dModel = 0 ∨
      (mixedHeader dModel dFf layout matrices).dFf = 0) := by
    rintro (h | h)
    · have hzero := congrArg UInt32.toNat h
      exact absurd ((toNat_ofNat32_of_lt hfits.dModel_lt).symm.trans hzero) hfits.dModel_pos.ne'
    · have hzero := congrArg UInt32.toNat h
      exact absurd ((toNat_ofNat32_of_lt hfits.dFf_lt).symm.trans hzero) hfits.dFf_pos.ne'
  obtain ⟨hgateOffset,hgate,hupOffset,hup,hdownOffset,hdown⟩ :=
    @located_mixedHeader dModel dFf payloadLen layout matrices hplaced
  have hspans : (mixedHeader dModel dFf layout matrices).spans = [⟨"gate",0,matrices.gate.length⟩,
      ⟨"up",matrices.gate.length,matrices.gate.length+matrices.up.length⟩,
      ⟨"down",matrices.gate.length+matrices.up.length,
        matrices.gate.length+matrices.up.length+matrices.down.length⟩] := by
    simp only [MixedExpertHeader.spans, MixedExpertHeader.ranges, List.map_cons, List.map_nil]
    rw [past_of_fits (by omega) hlt, past_of_fits (by omega) hlt, past_of_fits (by omega) hlt,
      Option.getD_some, Option.getD_some, Option.getD_some, hgateOffset, hupOffset, hdownOffset, hgate,
      hup, hdown, Nat.zero_add]
  have hsorted : ((mixedHeader dModel dFf layout matrices).spans.insertionSort
      fun left right => left.start ≤ right.start) = (mixedHeader dModel dFf layout matrices).spans := by
    rw [hspans]
    simp [List.insertionSort]
  unfold MixedExpertHeader.validate
  dsimp only
  rw [if_neg (not_not.mpr hversion), if_neg hdims, hsorted]
  refine bind_eq_ok.mpr ⟨(),forM_eq_ok.mpr ?_,?_⟩
  · intro range hrange
    simp only [MixedExpertHeader.ranges, List.mem_cons, List.not_mem_nil, or_false] at hrange
    obtain rfl | rfl | rfl := hrange
    · exact validateRange_of_fits (fromWeight_ne_mixed layout.gate) (hgate ▸ hplaced.gate) (by
        dsimp only
        omega) hlt
    · exact validateRange_of_fits (fromWeight_ne_mixed layout.up) (hup ▸ hplaced.up) (by
        dsimp only
        omega) hlt
    · exact validateRange_of_fits (fromWeight_ne_mixed layout.down) (hdown ▸ hplaced.down) (by
        dsimp only
        omega) hlt
  · rw [hspans]
    simp [Storage.validateWindows]

lemma length_mixedHeader :
    ((mixedHeader dModel dFf layout matrices).writePadded defaultBlockAlign []).length =
      defaultBlockAlign := by
  rw [MixedExpertHeader.length_writePadded rfl]
  have hflag : (mixedHeader dModel dFf layout matrices).flags &&&
      Storage.uthFlagPageAlignedPayload ≠ 0 := by
    change Storage.uthFlagPageAlignedPayload &&& Storage.uthFlagPageAlignedPayload ≠ 0
    decide
  unfold MixedExpertHeader.headerBytes
  rw [if_pos ⟨hflag,by decide⟩]
  rfl

/-- The payload behind a mixed header. -/
lemma resident_mixed {payload : List UInt8}
    (hvalid : (mixedHeader dModel dFf layout matrices).validate payload.length = .ok ()) :
    ExpertResident.newWithBlockAlign
        ((mixedHeader dModel dFf layout matrices).writePadded defaultBlockAlign []++payload)
          defaultBlockAlign =
      ⟨(mixedHeader dModel dFf layout matrices).writePadded defaultBlockAlign []++payload,
        defaultBlockAlign,some (mixedHeader dModel dFf layout matrices)⟩ := by
  have hstrip := (@MixedExpertHeader.strip_writePadded (mixedHeader dModel dFf layout matrices)
    rfl rfl defaultBlockAlign payload).1 hvalid
  unfold ExpertResident.newWithBlockAlign
  rw [hstrip]
  dsimp only
  rw [List.length_append, Nat.add_sub_cancel, length_mixedHeader]

end Mixed

end MicroExpertRouter.Converter
