import MicroExpertRouter.Quant.Projections

/-! The two products of a packed projection as products of one matrix each: that of the elements as
the decoders read them, and that of the elements of the format. -/
namespace MicroExpertRouter.Quant
open RowMajor (entry product)

section Weights

/-- The weights in a run of blocks, numbered through. -/
def blockWeight (element : List UInt8 → ℕ → ℚ) (dtype : GgmlDType) (bytes : List UInt8) (n : ℕ) : ℚ :=
  element (part bytes (n/dtype.blockSize*dtype.typeSize) dtype.typeSize) (n % dtype.blockSize)

/-- The weights of the format. -/
def ggmlWeight (half : UInt16 → ℚ) (dtype : GgmlDType) : List UInt8 → ℕ → ℚ :=
  blockWeight (fun block n => Ggml.weight half block dtype n) dtype

/-- An element as the decoder of its format reads it. -/
def ownElement (half : UInt16 → ℚ) (dtype : GgmlDType) (block : List UInt8) (n : ℕ) : ℚ :=
  match dtype with
  | .q4_0 => Ggml.q4_0 half block n
  | .q4k => ownQ4k half block n
  | .q5k => Ggml.q5k half block n
  | .q6k => Ggml.q6k half block n
  | .q8_0 => Ggml.q8_0 half block n

/-- The weights that the decoders read. -/
def ownWeight (half : UInt16 → ℚ) (dtype : GgmlDType) : List UInt8 → ℕ → ℚ :=
  blockWeight (ownElement half dtype) dtype

/-- The decoder of a format. -/
def decoderOf (half : UInt16 → ℚ) : GgmlDType → List UInt8 → List ℚ → List ℚ
  | .q4_0 => dequantizeQ4_0Block half
  | .q4k => dequantizeQ4kBlock half
  | .q5k => dequantizeQ5kBlock half
  | .q6k => dequantizeQ6kBlock half
  | .q8_0 => dequantizeQ8_0Block half

/-- A decoder overwrites a whole buffer. -/
lemma decoderOf_eq (half : UInt16 → ℚ) {dtype : GgmlDType} {block : List UInt8} {dst : List ℚ}
    (hblock : block.length = dtype.typeSize) (hdst : dst.length = dtype.blockSize) :
    decoderOf half dtype block dst =
      (List.range dtype.blockSize).map (ownElement half dtype block) := by
  cases dtype with
  | q4_0 => exact dequantizeQ4_0Block_eq hdst
  | q4k => exact dequantizeQ4kBlock_eq hdst
  | q5k => exact dequantizeQ5kBlock_eq hblock hdst
  | q6k => exact dequantizeQ6kBlock_eq hdst
  | q8_0 => exact dequantizeQ8_0Block_eq hdst

end Weights

section Candle

/-- Candle takes the blocks for those of the format, and its products are exact. -/
structure Candle.Exact (candle : Candle) (half : UInt16 → ℚ) : Prop where
  qmatmul_eq : ∀ dtype bytes rows cols x, cols % dtype.blockSize = 0 →
    bytes.length = rows*cols/dtype.blockSize*dtype.typeSize → x.length = cols →
      candle.qmatmul dtype bytes rows cols x = .ok (product rows cols (ggmlWeight half dtype bytes) x)
  matmul_eq : ∀ weights rows cols x, weights.length = rows*cols → x.length = cols →
    candle.matmul weights rows cols x = .ok (product rows cols (entry weights) x)

end Candle

section Layout
variable {view : QuantProjectionView} {dtype : GgmlDType}

lemma expected_bytes (hdtype : ggmlDtypeForOptimizedProjection view.dtype = some dtype)
    (weights : ℕ) : projectionWeightBytesFor weights view.dtype =
      checkedMul usizeMax (divCeil weights dtype.blockSize) dtype.typeSize := by
  revert hdtype
  cases view.dtype <;> intro hdtype <;> cases hdtype <;> rfl

/-- A view whose layout passes the checks consists of whole blocks, and of whole ones in each row. -/
lemma layout_of_validate (hdtype : ggmlDtypeForOptimizedProjection view.dtype = some dtype)
    (hlayout : validateQmatmulProjection view dtype = .ok ()) :
    view.cols % dtype.blockSize = 0 ∧
      view.rows*view.cols = divCeil view.weights dtype.blockSize*dtype.blockSize ∧
      view.bytes.length = divCeil view.weights dtype.blockSize*dtype.typeSize ∧
      divCeil view.weights dtype.blockSize*dtype.typeSize ≤ usizeMax := by
  unfold validateQmatmulProjection at hlayout
  split_ifs at hlayout with hcols hweights
  have hbytes := view.bytes_eq
  rw [expected_bytes hdtype] at hbytes
  unfold checkedMul at hbytes
  split_ifs at hbytes with hfits
  refine ⟨not_not.mp hcols,?_,(Option.some.inj hbytes).symm,hfits⟩
  have hwhole := Nat.div_mul_cancel (Nat.dvd_of_mod_eq_zero (not_not.mp hweights))
  have hpos := dtype.blockSize_pos
  have hceil : divCeil view.weights dtype.blockSize = view.weights/dtype.blockSize := by
    unfold divCeil
    rw [← hwhole, Nat.mul_div_cancel _ hpos, Nat.add_sub_assoc hpos,
      Nat.add_comm, Nat.add_mul_div_right _ _ hpos, Nat.div_eq_of_lt (by omega), Nat.zero_add]
  rw [hceil, hwhole, view.weights_eq]

end Layout

section Stream
variable {view : QuantProjectionView} {x : List ℚ} {elems bytes blocks : ℕ}
  {decode : List UInt8 → List ℚ → List ℚ} {element : List UInt8 → ℕ → ℚ}

/-- The terms of the first weights. -/
def terms (view : QuantProjectionView) (x : List ℚ) (weight : ℕ → ℚ) (count : ℕ) : List (ℕ × ℚ) :=
  (List.range count).map fun n => (n/view.cols,weight n*entry x (n % view.cols))

lemma zipIdx_map_range {α β : Type*} (f : ℕ → α) (g : α × ℕ → β) (n : ℕ) :
    (((List.range n).map f).zipIdx.map g) = (List.range n).map fun i => g (f i,i) := by
  apply List.ext_getElem?
  intro i
  by_cases hi : i<n
  · simp [hi]
  · simp [hi]

/-- The turn for one block. -/
lemma streamBlock_eq {scratch y : List ℚ} {block : ℕ} (helems : 0<elems)
    (hdecode : decode (part view.bytes (block*bytes) bytes) scratch =
      (List.range elems).map (element (part view.bytes (block*bytes) bytes)))
    (hweights : (block+1)*elems ≤ view.weights) :
    streamBlock view x elems bytes decode (scratch,y) block =
      ((List.range elems).map (element (part view.bytes (block*bytes) bytes)),
        Writes.accumulate y ((List.range elems).map fun i => ((block*elems+i)/view.cols,
          element (part view.bytes ((block*elems+i)/elems*bytes) bytes) ((block*elems+i) % elems)*
            entry x ((block*elems+i) % view.cols)))) := by
  have hcount : min (view.weights-block*elems) elems = elems := by
    rw [Nat.succ_mul] at hweights
    omega
  unfold streamBlock
  dsimp only
  rw [hdecode, hcount, List.take_of_length_le (by simp), zipIdx_map_range]
  congr 2
  apply List.map_congr_left
  intro i hi
  have hlt := List.mem_range.mp hi
  have hdiv : (block*elems+i)/elems = block := by
    rw [Nat.mul_comm, Nat.mul_add_div helems, Nat.div_eq_of_lt hlt, Nat.add_zero]
  have hmod : (block*elems+i) % elems = i := by
    rw [Nat.mul_comm, Nat.mul_add_mod, Nat.mod_eq_of_lt hlt]
  rw [hdiv, hmod]

/-- The output after some blocks holds the terms of their weights. -/
lemma stream_eq (helems : 0<elems) (hdecode : ∀ block, block<blocks → ∀ scratch : List ℚ,
      scratch.length = elems → decode (part view.bytes (block*bytes) bytes) scratch =
        (List.range elems).map (element (part view.bytes (block*bytes) bytes)))
    (hweights : blocks*elems ≤ view.weights) (y : List ℚ) : ∀ k, k ≤ blocks →
      ∃ scratch : List ℚ, scratch.length = elems ∧
        (List.range k).foldl (streamBlock view x elems bytes decode)
          (List.replicate elems 0,y) = (scratch,Writes.accumulate y (terms view x
            (fun n => element (part view.bytes (n/elems*bytes) bytes) (n % elems)) (k*elems))) := by
  intro k
  induction k with
  | zero =>
    intro _
    refine ⟨List.replicate elems 0,List.length_replicate,?_⟩
    rw [Nat.zero_mul]
    rfl
  | succ k ih =>
    intro hk
    obtain ⟨scratch,hlen,hfold⟩ := ih (by omega)
    have hfits : (k+1)*elems ≤ view.weights := (Nat.mul_le_mul_right elems hk).trans hweights
    have hblock := @streamBlock_eq view x elems bytes decode element scratch (Writes.accumulate y
      (terms view x (fun n => element (part view.bytes (n/elems*bytes) bytes) (n % elems)) (k*elems)))
      k helems (hdecode k (by omega) scratch hlen) hfits
    refine ⟨(List.range elems).map (element (part view.bytes (k*bytes) bytes)),by simp,?_⟩
    rw [List.range_succ, List.foldl_append, hfold, List.foldl_cons, List.foldl_nil, hblock]
    unfold terms
    rw [Nat.succ_mul, List.range_add, List.map_append, Writes.accumulate_append, List.map_map]
    rfl

end Stream

section Paths
variable {floats : Floats} {view : QuantProjectionView} {dtype : GgmlDType} {x : List ℚ}

lemma scalarReference_def (y : List ℚ)
    (hdtype : ggmlDtypeForOptimizedProjection view.dtype = some dtype) :
    scalarReferenceQuantizedMatvec floats view x y = matvecBlockStreamReference view x y
      dtype.blockSize dtype.typeSize (decoderOf floats.half dtype) := by
  unfold scalarReferenceQuantizedMatvec
  revert hdtype
  cases view.dtype <;> intro hdtype <;> cases hdtype <;> rfl

/-- The scalar fallback computes the product of the weights that the decoders read. -/
theorem scalarReference_eq (hdtype : ggmlDtypeForOptimizedProjection view.dtype = some dtype)
    (hlayout : validateQmatmulProjection view dtype = .ok ()) :
    scalarReferenceQuantizedMatvec floats view x (List.replicate view.rows 0) =
      .ok (product view.rows view.cols (ownWeight floats.half dtype view.bytes) x) := by
  obtain ⟨_,hweights,hbytes,hfits⟩ := layout_of_validate hdtype hlayout
  have hdecode : ∀ block, block<divCeil view.weights dtype.blockSize → ∀ scratch : List ℚ,
      scratch.length = dtype.blockSize →
        decoderOf floats.half dtype (part view.bytes (block*dtype.typeSize) dtype.typeSize) scratch =
          (List.range dtype.blockSize).map (ownElement floats.half dtype
            (part view.bytes (block*dtype.typeSize) dtype.typeSize)) := by
    intro block hblock scratch hlen
    refine decoderOf_eq floats.half ?_ hlen
    have hend := Nat.mul_le_mul_right dtype.typeSize (Nat.succ_le_of_lt hblock)
    rw [Nat.succ_mul, ← hbytes] at hend
    rw [length_part]
    omega
  rw [← view.weights_eq] at hweights
  obtain ⟨scratch,_,hfold⟩ := stream_eq dtype.blockSize_pos hdecode hweights.ge
    (List.replicate view.rows 0) (divCeil view.weights dtype.blockSize) le_rfl (x := x)
  rw [scalarReference_def _ hdtype]
  unfold matvecBlockStreamReference
  dsimp only
  rw [checkedMul_of_le hfits]
  dsimp only
  rw [if_neg (by omega), hfold, ← hweights, view.weights_eq]
  exact congrArg Except.ok (RowMajor.accumulate_product _ _ (ownWeight floats.half dtype view.bytes) x)

end Paths

end MicroExpertRouter.Quant
