import MicroExpertRouter.DenseTensor.Weight
import MicroExpertRouter.Lib.Clipped

/-! The readers of an accepted Q8_0 weight agree: each decodes element `e` as element `e % 32` of
block `e / 32`, and none reads outside of the bytes. -/
namespace MicroExpertRouter.DenseTensor
variable {F S : Type} {decode : List UInt8 → Vector F q8_0BlockElems}
  {bytes : List UInt8} {rows cols weights : ℕ}

/-- The decoded element of a tensor. -/
def weightAt (decode : List UInt8 → Vector F q8_0BlockElems) (bytes : List UInt8) (e : ℕ) : F :=
  (decode (Slab.read bytes (e/q8_0BlockElems*q8_0BlockBytes) q8_0BlockBytes)).get
    ⟨e % q8_0BlockElems,mod_blockElems_lt e⟩

/-- The decoded tensor. -/
def decodedWeights (decode : List UInt8 → Vector F q8_0BlockElems) (bytes : List UInt8)
    (weights : ℕ) : List F :=
  (List.range weights).map (weightAt decode bytes)

@[simp] lemma length_decodedWeights : (decodedWeights decode bytes weights).length = weights := by
  simp [decodedWeights]

/-- The bytes hold the blocks of some number of weights. -/
def Holds (bytes : List UInt8) (weights : ℕ) : Prop :=
  blocksFor weights*q8_0BlockBytes ≤ bytes.length

lemma Holds.of_fromQ8_0Bytes {weight : DenseWeight F}
    (h : DenseWeight.fromQ8_0Bytes bytes rows cols = .ok weight) :
    weight = .q8_0 bytes rows cols ∧ Holds bytes (rows*cols) := by
  unfold DenseWeight.fromQ8_0Bytes at h
  split at h
  · cases h
  case h_2 weights hweights =>
    obtain ⟨-,rfl⟩ := checkedMul_eq_some.mp hweights
    obtain ⟨expected,hexpected,h⟩ := bind_eq_ok.mp h
    split_ifs at h with hlen
    unfold q8_0BytesFor at hexpected
    split at hexpected
    · cases hexpected
    case h_2 blocks hblocks =>
      obtain ⟨-,rfl⟩ := checkedMul_eq_some.mp hblocks
      obtain rfl := Except.ok.inj hexpected
      exact ⟨(Except.ok.inj h).symm,(not_not.mp hlen).ge⟩

lemma block_lt {e : ℕ} (he : e<weights) : e/q8_0BlockElems<blocksFor weights := by
  unfold blocksFor q8_0BlockElems
  omega

/-- A block of the tensor is read inside of the bytes. -/
lemma decodedBlock_eq (hbytes : Holds bytes weights) {block : ℕ} (hblock : block<blocksFor weights) :
    decodedBlock decode bytes block
      = some (decode (Slab.read bytes (block*q8_0BlockBytes) q8_0BlockBytes)) := by
  have hfits : block*q8_0BlockBytes+q8_0BlockBytes ≤ bytes.length := by
    rw [← Nat.succ_mul]
    exact (Nat.mul_le_mul_right _ hblock).trans hbytes
  rw [decodedBlock, readSlice, if_pos hfits]
  rfl

/-- An element by its block and its place in the block. -/
lemma getElem?_decode {block e : ℕ} (hlow : block*q8_0BlockElems ≤ e)
    (hhigh : e<block*q8_0BlockElems+q8_0BlockElems) :
    (decode (Slab.read bytes (block*q8_0BlockBytes) q8_0BlockBytes))[e-block*q8_0BlockElems]?
      = some (weightAt decode bytes e) := by
  unfold q8_0BlockElems at hlow hhigh
  have hblock : e/q8_0BlockElems = block := by
    unfold q8_0BlockElems
    omega
  have hplace : e % q8_0BlockElems = e-block*q8_0BlockElems := by
    unfold q8_0BlockElems
    omega
  have hlt : e-block*q8_0BlockElems<q8_0BlockElems := by
    unfold q8_0BlockElems
    omega
  rw [Vector.getElem?_eq_getElem hlt]
  simp only [weightAt, hblock, hplace]
  rfl

/-- Every element of the range is used once, in order, with its decoded value. -/
lemma forDecoded_eq (hbytes : Holds bytes weights) {start len : ℕ} (hlen : 0<len)
    (hrange : start+len ≤ weights) (use : S → ℕ → F → Option S) (init : S) :
    forDecoded decode bytes start len use init =
      (List.range' start len).foldlM (fun s e => use s e (weightAt decode bytes e)) init := by
  have hsize : 0<q8_0BlockElems := by decide
  have hblocks : ∀ block ∈ List.range' (start/q8_0BlockElems)
      ((start+len-1)/q8_0BlockElems+1-start/q8_0BlockElems), block<blocksFor weights := by
    intro block hmem
    obtain ⟨-,hlt⟩ := List.mem_range'_1.mp hmem
    unfold blocksFor
    unfold q8_0BlockElems at hlt ⊢
    omega
  rw [← Clipped.flatMap_parts hsize hlen, foldlM_flatMap]
  refine foldlM_congr (fun block hmem s => ?_) init
  rw [decodedBlock_eq hbytes (hblocks block hmem)]
  refine foldlM_congr (fun e he s => ?_) s
  obtain ⟨-,-,hlow,hhigh⟩ := Clipped.mem_part he
  rw [getElem?_decode hlow hhigh]
  rfl

/-- A row of the decoded tensor. -/
lemma row_decodedWeights {row : ℕ} (hrow : row<rows) :
    ((decodedWeights decode bytes (rows*cols)).drop (row*cols)).take cols
      = (List.range' (row*cols) cols).map (weightAt decode bytes) := by
  have hle : row*cols+cols ≤ rows*cols := by
    rw [← Nat.succ_mul]
    exact Nat.mul_le_mul_right _ hrow
  apply List.ext_getElem?
  intro i
  by_cases hi : i<cols
  · simp only [decodedWeights, List.getElem?_take_of_lt hi, List.getElem?_drop, List.getElem?_map,
      List.getElem?_range (show row*cols+i<rows*cols by omega), List.getElem?_range' hi, Nat.one_mul]
  · rw [List.getElem?_eq_none (by simp; omega), List.getElem?_eq_none (by simp; omega)]

section Whole
variable [Zero F]

/-- The blocks written so far hold the first decoded elements. -/
lemma foldlM_dequantize (hbytes : Holds bytes weights) {blocks : ℕ}
    (hblocks : blocks ≤ blocksFor weights) :
    (List.range blocks).foldlM (fun dst b => do
        let decoded ← decodedBlock decode bytes b
        writeSlice dst (b*q8_0BlockElems) decoded.toList)
        (List.replicate (blocksFor weights*q8_0BlockElems) 0)
      = some (decodedWeights decode bytes (blocks*q8_0BlockElems)
          ++List.replicate ((blocksFor weights-blocks)*q8_0BlockElems) 0) := by
  induction blocks with
  | zero => simp [decodedWeights]
  | succ blocks ih =>
    have hsplit : (blocksFor weights-blocks)*q8_0BlockElems
        = q8_0BlockElems+(blocksFor weights-(blocks+1))*q8_0BlockElems := by
      have hone : blocksFor weights-blocks = blocksFor weights-(blocks+1)+1 := by omega
      rw [hone, Nat.succ_mul, Nat.add_comm]
    have hnext : decodedWeights decode bytes ((blocks+1)*q8_0BlockElems)
        = decodedWeights decode bytes (blocks*q8_0BlockElems)
          ++(decode (Slab.read bytes (blocks*q8_0BlockBytes) q8_0BlockBytes)).toList := by
      rw [decodedWeights, Nat.succ_mul, List.range_add, List.map_append, ← decodedWeights]
      congr 1
      apply List.ext_getElem?
      intro i
      by_cases hi : i<q8_0BlockElems
      · have hget := @getElem?_decode F decode bytes blocks (blocks*q8_0BlockElems+i) (by omega)
          (by omega)
        rw [Nat.add_sub_cancel_left] at hget
        simpa [hi] using hget.symm
      · rw [List.getElem?_eq_none (by simpa using hi), List.getElem?_eq_none (by simpa using hi)]
    have hlen : (decodedWeights decode bytes (blocks*q8_0BlockElems)).length
        = blocks*q8_0BlockElems := length_decodedWeights
    rw [List.range_succ, List.foldlM_append, ih (by omega), hsplit, ← List.replicate_append_replicate,
      hnext]
    simp only [List.foldlM_cons, List.foldlM_nil, decodedBlock_eq hbytes hblocks, Option.bind_eq_bind,
      Option.bind_some, writeSlice]
    rw [if_pos (by simp)]
    simp only [Option.bind_some, Slab.write, List.take_left' hlen, Vector.length_toList,
      ← List.drop_drop, List.drop_left' hlen, List.drop_left' List.length_replicate]
    rw [List.append_assoc]
    rfl

lemma dequantizeQ8_0ToF32_eq (hbytes : Holds bytes weights) :
    dequantizeQ8_0ToF32 decode bytes weights = some (decodedWeights decode bytes weights) := by
  have hle : weights ≤ blocksFor weights*q8_0BlockElems := by
    unfold blocksFor q8_0BlockElems
    omega
  unfold dequantizeQ8_0ToF32
  simp only
  rw [if_neg (Nat.not_lt.mpr hbytes), foldlM_dequantize hbytes le_rfl]
  simp only [Nat.sub_self, Nat.zero_mul, List.replicate_zero, List.append_nil, Option.bind_eq_bind,
    Option.bind_some, decodedWeights, ← List.map_take, List.take_range, Nat.min_eq_left hle]
  rfl

end Whole

section Iterator
variable {self : DenseWeightIter F}

/-- What the iterator keeps: the block it decoded last is the one it says. -/
def DenseWeightIter.Cached (decode : List UInt8 → Vector F q8_0BlockElems) (bytes : List UInt8)
    (self : DenseWeightIter F) : Prop :=
  ∀ block, self.decodedBlock = some block →
    self.decoded = decode (Slab.read bytes (block*q8_0BlockBytes) q8_0BlockBytes)

lemma DenseWeightIter.Cached.iter [Zero F] (weight : DenseWeight F) :
    weight.iter.Cached decode bytes := by
  intro block hblock
  cases hblock

/-- The refilled iterator holds the block of its offset. -/
lemma DenseWeightIter.refill_spec (hcached : self.Cached decode bytes)
    (hbytes : Holds bytes weights) (hoffset : self.offset<weights) :
    ∃ decoded, self.refill decode bytes
        = some { self with decoded, decodedBlock := some (self.offset/q8_0BlockElems) } ∧
      decoded = decode (Slab.read bytes (self.offset/q8_0BlockElems*q8_0BlockBytes)
        q8_0BlockBytes) := by
  unfold refill
  by_cases hold : self.decodedBlock = some (self.offset/q8_0BlockElems)
  · refine ⟨self.decoded,?_,hcached _ hold⟩
    simp only [hold, ne_eq, not_true_eq_false, if_false]
    rw [← hold]
  · refine ⟨_,?_,rfl⟩
    simp only [ne_eq, hold, not_false_eq_true, if_true]
    rw [decodedBlock_eq hbytes (block_lt hoffset)]
    rfl

lemma DenseWeightIter.next_spec (hweight : self.weight = .q8_0 bytes rows cols)
    (hcached : self.Cached decode bytes) (hbytes : Holds bytes (rows*cols))
    (hoffset : self.offset<rows*cols) :
    ∃ rest, self.next decode = some (some (weightAt decode bytes self.offset),rest) ∧
      rest.weight = self.weight ∧ rest.offset = self.offset+1 ∧ rest.Cached decode bytes := by
  obtain ⟨decoded,hrefill,rfl⟩ := refill_spec hcached hbytes hoffset
  have hmore : ¬ self.weight.len ≤ self.offset := by
    rw [hweight, DenseWeight.len_q8_0]
    omega
  unfold next
  rw [if_neg hmore]
  simp only [hweight, hrefill]
  refine ⟨_,rfl,rfl,rfl,?_⟩
  intro block hblock
  obtain rfl := Option.some.inj hblock
  rfl

/-- The rest of the tensor is yielded in order. -/
theorem DenseWeightIter.collect_eq (hweight : self.weight = .q8_0 bytes rows cols)
    (hcached : self.Cached decode bytes) (hbytes : Holds bytes (rows*cols))
    {calls : ℕ} (hcalls : rows*cols-self.offset<calls) :
    self.collect decode calls = some ((List.range' self.offset (rows*cols-self.offset)).map
      (weightAt decode bytes)) := by
  induction calls generalizing self with
  | zero => omega
  | succ calls ih =>
    unfold collect
    by_cases hoffset : self.offset<rows*cols
    · obtain ⟨rest,hnext,hrest,hadvance,hkept⟩ := next_spec hweight hcached hbytes hoffset
      have hleft : rows*cols-self.offset = rows*cols-rest.offset+1 := by omega
      rw [hnext]
      simp only
      rw [ih (hrest.trans hweight) hkept (by omega), hleft, List.range'_succ, ← hadvance]
      rfl
    · have hnone : rows*cols-self.offset = 0 := by omega
      have hdone : self.weight.len ≤ self.offset := by
        rw [hweight, DenseWeight.len_q8_0]
        omega
      unfold next
      rw [if_pos hdone, hnone]
      rfl

end Iterator

section Rows
variable {start len : ℕ}

/-- The copy writes the places of the buffer one after the other. -/
lemma foldlM_copy {w : ℕ → F} {out : List F} (hlen : len ≤ out.length) :
    (List.range' start len).foldlM (fun out e => setAt out (e-start) (w e)) out
      = some ((List.range' start len).map w++out.drop len) := by
  induction len with
  | zero => rfl
  | succ len ih =>
    have hwritten : ((List.range' start len).map w).length = len := by simp
    have hplace : start+1*len-start = len := by omega
    rw [List.range'_concat, List.foldlM_append, ih (by omega), List.map_append]
    simp only [List.foldlM_cons, List.foldlM_nil, Option.bind_eq_bind, Option.bind_some, hplace]
    rw [setAt, if_pos (by simp; omega), List.set_append_right _ _ hwritten.le, hwritten, Nat.sub_self,
      List.drop_eq_getElem_cons (show len<out.length by omega), List.set_cons_zero, List.append_assoc]
    rfl

lemma q8_0CopyRange_eq (hbytes : Holds bytes weights) (hrange : start+len ≤ weights) {out : List F}
    (hlen : out.length = len) :
    q8_0CopyRange decode bytes start len out
      = some ((List.range' start len).map (weightAt decode bytes)) := by
  unfold q8_0CopyRange
  split_ifs with hzero
  · obtain rfl := hzero
    rw [List.length_eq_zero_iff.mp hlen]
    rfl
  · rw [forDecoded_eq hbytes (Nat.pos_of_ne_zero hzero) hrange, foldlM_copy hlen.ge,
      List.drop_eq_nil_of_le hlen.le, List.append_nil]

/-- The sum is accumulated from left to right. -/
lemma foldlM_dot [Add F] [Mul F] {w : ℕ → F} {x : List F} (hlen : len ≤ x.length) (init : F) :
    (List.range' start len).foldlM (fun acc e => do
        let input ← x[e-start]?
        return acc+w e*input) init
      = some ((((List.range' start len).map w).zip (x.take len)).foldl
        (fun acc p => acc+p.1*p.2) init) := by
  induction len with
  | zero => rfl
  | succ len ih =>
    have hplace : start+1*len-start = len := by omega
    have hget : x[len]? = some x[len] := List.getElem?_eq_getElem (by omega)
    rw [List.range'_concat, List.foldlM_append, ih (by omega), List.map_append,
      List.take_add_one, hget, Option.toList_some, List.zip_append (by simp; omega),
      List.foldl_append]
    simp only [List.foldlM_cons, List.foldlM_nil, Option.bind_eq_bind, Option.bind_some, hplace, hget]
    rfl

lemma q8_0RowDot_eq [Zero F] [Add F] [Mul F] (hbytes : Holds bytes (rows*cols)) {row : ℕ}
    (hrow : row<rows) {x : List F} (hx : x.length = cols) :
    q8_0RowDot decode bytes row cols x
      = some ((((List.range' (row*cols) cols).map (weightAt decode bytes)).zip x).foldl
        (fun acc p => acc+p.1*p.2) 0) := by
  unfold q8_0RowDot
  split_ifs with hzero
  · obtain rfl := hzero
    rfl
  · have hrange : row*cols+cols ≤ rows*cols := by
      rw [← Nat.succ_mul]
      exact Nat.mul_le_mul_right _ hrow
    simp only
    rw [forDecoded_eq hbytes (Nat.pos_of_ne_zero hzero) hrange, foldlM_dot hx.ge,
      List.take_of_length_le hx.le]

end Rows

section Agreement
variable [Zero F] [Add F] [Mul F]

/-- The readers of an accepted Q8_0 weight agree on its decoded elements, and none of them reads
outside of the bytes. -/
theorem q8_0_readers_agree {weight : DenseWeight F}
    (h : DenseWeight.fromQ8_0Bytes bytes rows cols = .ok weight) :
    ∃ values, values = decodedWeights decode bytes (rows*cols) ∧
      weight.toF32Vec decode = some values ∧
      (∀ calls, rows*cols<calls → weight.iter.collect decode calls = some values) ∧
      ∀ row, row<rows →
        (∀ out, weight.rowDequantInto decode row out = some ((values.drop (row*cols)).take cols)) ∧
        ∀ x : List F, x.length = cols → q8_0RowDot decode bytes row cols x
          = some ((((values.drop (row*cols)).take cols).zip x).foldl
            (fun acc p => acc+p.1*p.2) 0) := by
  obtain ⟨rfl,hbytes⟩ := Holds.of_fromQ8_0Bytes h
  refine ⟨_,rfl,dequantizeQ8_0ToF32_eq hbytes,fun calls hcalls => ?_,fun row hrow => ⟨fun out => ?_,
    fun x hx => ?_⟩⟩
  · have hweight : (DenseWeight.q8_0 bytes rows cols : DenseWeight F).iter.weight
        = .q8_0 bytes rows cols := rfl
    rw [DenseWeightIter.collect_eq hweight (.iter _) hbytes hcalls]
    exact congrArg some (congrArg (List.map _) List.range_eq_range'.symm)
  · have hrange : row*cols+cols ≤ rows*cols := by
      rw [← Nat.succ_mul]
      exact Nat.mul_le_mul_right _ hrow
    rw [row_decodedWeights hrow, DenseWeight.rowDequantInto, DenseWeight.rows, if_pos hrow]
    exact q8_0CopyRange_eq hbytes hrange List.length_replicate
  · rw [row_decodedWeights hrow]
    exact q8_0RowDot_eq hbytes hrow hx

/-- Two rows of seventeen elements, of which the second crosses into the second block. -/
def twoBlocks : List UInt8 := List.replicate 34 0++List.replicate 34 1

def countBlock (block : List UInt8) : Vector ℕ q8_0BlockElems :=
  Vector.ofFn fun i => (block.headD 0).toNat*100+i

theorem q8_0_readers_agree_two :
    (DenseWeight.q8_0 twoBlocks 2 17).rowDequantInto countBlock 1 [7] = some
        [17,18,19,20,21,22,23,24,25,26,27,28,29,30,31,100,101] ∧
      ∃ values, (DenseWeight.q8_0 twoBlocks 2 17).toF32Vec countBlock = some values ∧
        (DenseWeight.q8_0 twoBlocks 2 17).iter.collect countBlock 35 = some values ∧
        (DenseWeight.q8_0 twoBlocks 2 17).rowDequantInto countBlock 1 [7]
          = some ((values.drop 17).take 17) := by
  have haccepted : DenseWeight.fromQ8_0Bytes twoBlocks 2 17
      = .ok (.q8_0 twoBlocks 2 17 : DenseWeight ℕ) := rfl
  obtain ⟨values,-,hvec,hiter,hrows⟩ := @q8_0_readers_agree ℕ countBlock _ _ _ _ _ _ _ haccepted
  exact ⟨by decide +kernel,values,hvec,hiter 35 (by decide),(hrows 1 (by decide)).1 [7]⟩

end Agreement
end MicroExpertRouter.DenseTensor
