import MicroExpertRouter.DenseWeights.Plan
import MicroExpertRouter.Lib.Tiling

/-! What a chunk of whole rows reads and allocates, and the chunk that one turn of the planner
picks. -/
namespace MicroExpertRouter.DenseWeights
open Arena (wordAligned le_wordAligned)
open Tiling

/-- The chunk of some rows: an F32 chunk is its rows, a Q8_0 chunk the blocks that meet them. -/
def chunkFor (kind : DenseWeightKind) (cols start count : ℕ) : DenseWeightChunkPlan :=
  match kind with
  | .f32 => ⟨start,count,0,start*(cols*f32Bytes),count*(cols*f32Bytes),count*(cols*f32Bytes)⟩
  | .q8_0 =>
    let firstBlock := start*cols/q8_0BlockElems
    let payload := (blocksFor ((start+count)*cols)-firstBlock)*q8_0BlockBytes
    ⟨start,count,firstBlock,firstBlock*q8_0BlockBytes,payload,wordAligned payload⟩

/-- The device bytes that a chunk of some rows needs. -/
def allocationFor (kind : DenseWeightKind) (cols start count : ℕ) : ℕ :=
  (chunkFor kind cols start count).allocationBytes

@[simp] lemma chunkFor_rowStart (kind : DenseWeightKind) (cols start count : ℕ) :
    (chunkFor kind cols start count).rowStart = start := by
  cases kind <;> rfl

@[simp] lemma chunkFor_rowCount (kind : DenseWeightKind) (cols start count : ℕ) :
    (chunkFor kind cols start count).rowCount = count := by
  cases kind <;> rfl

/-- The bytes of the tensor that an element is decoded from: its own word, or its block. -/
def elementOffset : DenseWeightKind → ℕ → ℕ
  | .f32, element => element*f32Bytes
  | .q8_0, element => element/q8_0BlockElems*q8_0BlockBytes

def elementBytes : DenseWeightKind → ℕ
  | .f32 => f32Bytes
  | .q8_0 => q8_0BlockBytes

/-- Where a chunk's payload keeps an element: in F32 after the words of the chunk's earlier
elements, in Q8_0 in block `element / 32 - first_block`. -/
def DenseWeightChunkPlan.place (chunk : DenseWeightChunkPlan) (kind : DenseWeightKind)
    (cols element : ℕ) : ℕ :=
  match kind with
  | .f32 => (element-chunk.rowStart*cols)*f32Bytes
  | .q8_0 => (element/q8_0BlockElems-chunk.firstBlock)*q8_0BlockBytes

/-- A chunk of a tensor: the bytes it allocates are those of its rows, fit the device and would
not with one row more; the payload range lies in the tensor and holds each element of the rows. -/
structure DenseWeightChunkPlan.Exact (chunk : DenseWeightChunkPlan) (kind : DenseWeightKind)
    (rows cols payload maximum : ℕ) : Prop where
  allocation_eq : chunk.allocationBytes = allocationFor kind cols chunk.rowStart chunk.rowCount
  payload_le : chunk.payloadBytes ≤ chunk.allocationBytes
  allocation_le : chunk.allocationBytes ≤ maximum
  maximal : chunk.rowStart+chunk.rowCount<rows →
    maximum<allocationFor kind cols chunk.rowStart (chunk.rowCount+1)
  inside : chunk.payloadOffsetBytes+chunk.payloadBytes ≤ payload
  holds : ∀ element, chunk.rowStart*cols ≤ element →
    element<(chunk.rowStart+chunk.rowCount)*cols →
    chunk.payloadOffsetBytes+chunk.place kind cols element = elementOffset kind element
      ∧ chunk.place kind cols element+elementBytes kind ≤ chunk.payloadBytes

section Rows
variable {cols start count : ℕ}

lemma rows_mul (cols start count : ℕ) : (start+count)*cols = start*cols+count*cols :=
  Nat.add_mul start count cols

lemma blocksFor_mono {a b : ℕ} (h : a ≤ b) : blocksFor a ≤ blocksFor b :=
  Nat.div_le_div_right (by omega)

/-- More rows need no less. -/
lemma allocationFor_mono (kind : DenseWeightKind) (cols start : ℕ) {count more : ℕ}
    (h : count ≤ more) : allocationFor kind cols start count ≤ allocationFor kind cols start more := by
  cases kind with
  | f32 => exact Nat.mul_le_mul_right _ h
  | q8_0 =>
    have hblocks : blocksFor ((start+count)*cols) ≤ blocksFor ((start+more)*cols) :=
      blocksFor_mono (Nat.mul_le_mul_right _ (by omega))
    have hpayload : (blocksFor ((start+count)*cols)-start*cols/q8_0BlockElems)*q8_0BlockBytes
        ≤ (blocksFor ((start+more)*cols)-start*cols/q8_0BlockElems)*q8_0BlockBytes :=
      Nat.mul_le_mul_right _ (Nat.sub_le_sub_right hblocks _)
    simp only [allocationFor, chunkFor, wordAligned]
    omega

/-- A coarse bound on what rows need, which bounds the sum over all of them. -/
lemma allocationFor_le (kind : DenseWeightKind) (start : ℕ) (hcols : 0<cols) (hcount : 0<count) :
    allocationFor kind cols start count ≤ 128*(count*cols) := by
  have hpos : 0<count*cols := Nat.mul_pos hcount hcols
  cases kind with
  | f32 =>
    simp only [allocationFor, chunkFor, f32Bytes]
    rw [← Nat.mul_assoc]
    omega
  | q8_0 =>
    have hrows := rows_mul cols start count
    simp only [allocationFor, chunkFor, wordAligned, blocksFor, hrows, q8_0BlockElems,
      q8_0BlockBytes]
    omega

end Rows

section Chunk
variable {layout : DenseWeightLayout} {maximum start count : ℕ}

lemma rows_le (hrows : start+count ≤ layout.rows) : (start+count)*layout.cols ≤ u32Max :=
  (Nat.mul_le_mul_right _ hrows).trans layout.elements_le

/-- Nothing overflows in a chunk of the tensor's rows. -/
lemma q8Chunk_eq (hrows : start+count ≤ layout.rows) :
    DenseWeightPlan.q8Chunk layout start count = .ok (chunkFor .q8_0 layout.cols start count) := by
  have hle := rows_le hrows
  have hmul := rows_mul layout.cols start count
  have hend : start+count ≤ (start+count)*layout.cols := Nat.le_mul_of_pos_right _ layout.cols_pos
  unfold u32Max at hle
  unfold DenseWeightPlan.q8Chunk
  rw [checkedMul_of_le (by unfold usizeMax; omega), checkedAdd_of_le (by unfold usizeMax; omega),
    Option.bind_some, checkedMul_of_le (by unfold usizeMax; omega)]
  simp only [orOverflow_some, bind, Except.bind]
  rw [checkedMul_of_le (by unfold usizeMax q8_0BlockElems q8_0BlockBytes; omega),
    checkedMul_of_le (by unfold usizeMax blocksFor q8_0BlockElems q8_0BlockBytes; omega)]
  simp only [orOverflow_some]
  rw [checkedWordAligned_of_le (by unfold usizeMax blocksFor q8_0BlockElems q8_0BlockBytes; omega)]
  rfl

/-- What one turn may pick: as many rows as fit. -/
def Picks (layout : DenseWeightLayout) (maximum start count : ℕ) : Prop :=
  IsGreatest {n | 1 ≤ n ∧ n ≤ layout.rows-start ∧
    allocationFor layout.kind layout.cols start n ≤ maximum} count

lemma f32RowCount_eq (hkind : layout.kind = .f32) (hstart : start<layout.rows)
    (hfits : allocationFor layout.kind layout.cols start 1 ≤ maximum) :
    ∃ count, DenseWeightPlan.f32RowCount layout maximum (layout.rows-start) = .ok count
      ∧ Picks layout maximum start count := by
  have hcols := layout.cols_pos
  have hle : layout.cols ≤ u32Max :=
    (Nat.le_mul_of_pos_left _ layout.rows_pos).trans layout.elements_le
  unfold u32Max at hle
  have hpos : 0<layout.cols*f32Bytes := by
    unfold f32Bytes
    omega
  have hone : layout.cols*f32Bytes ≤ maximum := by
    simpa [allocationFor, chunkFor, hkind] using hfits
  refine ⟨min (layout.rows-start) (maximum/(layout.cols*f32Bytes)),?_,⟨?_,?_,?_⟩,?_⟩
  · unfold DenseWeightPlan.f32RowCount
    rw [checkedMul_of_le (by unfold usizeMax f32Bytes; omega)]
    simp only [orOverflow_some, bind, Except.bind]
    rw [if_neg (Nat.not_lt.mpr hone)]
    rfl
  · exact le_min (by omega) ((Nat.one_le_div_iff hpos).mpr hone)
  · exact min_le_left _ _
  · have hdiv : min (layout.rows-start) (maximum/(layout.cols*f32Bytes))*(layout.cols*f32Bytes)
        ≤ maximum := (Nat.mul_le_mul_right _ (min_le_right _ _)).trans (Nat.div_mul_le_self _ _)
    simpa [allocationFor, chunkFor, hkind] using hdiv
  · rintro n ⟨-,hn,hfit⟩
    simp only [allocationFor, chunkFor, hkind] at hfit
    exact le_min hn ((Nat.le_div_iff_mul_le hpos).mpr hfit)

lemma q8RowCount_eq (hkind : layout.kind = .q8_0) (hstart : start<layout.rows)
    (hfits : allocationFor layout.kind layout.cols start 1 ≤ maximum) :
    ∃ count, DenseWeightPlan.q8RowCount layout maximum start (layout.rows-start) = .ok count
      ∧ Picks layout maximum start count := by
  have htest (n : ℕ) (hn : n ≤ layout.rows-start) :
      ∃ b, (DenseWeightPlan.q8Chunk layout start n).bind
          (fun chunk => .ok (decide (chunk.allocationBytes ≤ maximum))) = .ok b
        ∧ (b = true ↔ allocationFor layout.kind layout.cols start n ≤ maximum) := by
    refine ⟨_,by rw [q8Chunk_eq (by omega)]; rfl,?_⟩
    rw [decide_eq_true_iff, hkind]
    rfl
  obtain ⟨count,hcount,hlast⟩ := Search.last_spec (fun n _ hn => htest n hn)
    (fun m n _ hmn _ hfits => (allocationFor_mono _ _ _ hmn).trans hfits)
    (show 1 ≤ layout.rows-start by omega) (Nat.sub_le _ _)
  refine ⟨count,?_,hlast.isGreatest hfits⟩
  have hone : (chunkFor .q8_0 layout.cols start 1).allocationBytes ≤ maximum := hkind ▸ hfits
  unfold DenseWeightPlan.q8RowCount
  rw [q8Chunk_eq (by omega)]
  simp only [bind, Except.bind]
  rw [if_neg (Nat.not_lt.mpr hone)]
  exact hcount

/-- A turn fails when the row it starts with does not fit, and picks as many rows as fit
otherwise. -/
theorem nextChunk_spec (hstart : start<layout.rows) :
    (maximum<allocationFor layout.kind layout.cols start 1 ∧
      DenseWeightPlan.nextChunk layout maximum start = .error (.denseWeightRowExceedsDeviceLimit
        layout.kind layout.cols (allocationFor layout.kind layout.cols start 1) maximum)) ∨
    ∃ count, Picks layout maximum start count ∧ DenseWeightPlan.nextChunk layout maximum start
      = .ok (chunkFor layout.kind layout.cols start count) := by
  by_cases hfits : allocationFor layout.kind layout.cols start 1 ≤ maximum
  · right
    cases hkind : layout.kind with
    | f32 =>
      obtain ⟨count,hcount,hpicks⟩ := f32RowCount_eq hkind hstart hfits
      refine ⟨count,hpicks,?_⟩
      simp only [DenseWeightPlan.nextChunk, hkind, hcount, bind, Except.bind]
      rfl
    | q8_0 =>
      obtain ⟨count,hcount,hpicks⟩ := q8RowCount_eq hkind hstart hfits
      refine ⟨count,hpicks,?_⟩
      have hle := hpicks.1.2.1
      simp only [DenseWeightPlan.nextChunk, hkind, hcount, bind, Except.bind]
      exact q8Chunk_eq (by omega)
  · left
    have hlt := Nat.not_le.mp hfits
    refine ⟨hlt,?_⟩
    cases hkind : layout.kind with
    | f32 =>
      have hcols : layout.cols ≤ u32Max :=
        (Nat.le_mul_of_pos_left _ layout.rows_pos).trans layout.elements_le
      unfold u32Max at hcols
      have hone : allocationFor .f32 layout.cols start 1 = layout.cols*f32Bytes := by
        simp [allocationFor, chunkFor]
      rw [hkind, hone] at hlt
      simp only [DenseWeightPlan.nextChunk, hkind, DenseWeightPlan.f32RowCount]
      rw [checkedMul_of_le (by unfold usizeMax f32Bytes; omega), hone]
      simp only [orOverflow_some, bind, Except.bind]
      rw [if_pos hlt]
    | q8_0 =>
      have hone : maximum<(chunkFor .q8_0 layout.cols start 1).allocationBytes := hkind ▸ hlt
      simp only [DenseWeightPlan.nextChunk, hkind, DenseWeightPlan.q8RowCount,
        @q8Chunk_eq layout start 1 (by omega), bind, Except.bind]
      rw [if_pos hone]
      rfl

/-- The chunk of the rows that a turn picks. -/
theorem Picks.exact (hpicks : Picks layout maximum start count) (hstart : start<layout.rows) :
    (chunkFor layout.kind layout.cols start count).Exact layout.kind layout.rows layout.cols
      layout.payloadBytes maximum := by
  obtain ⟨⟨hpos,hrows,hfits⟩,hgreatest⟩ := hpicks
  have hle : (start+count)*layout.cols ≤ layout.rows*layout.cols :=
    Nat.mul_le_mul_right _ (by omega)
  have hmul := rows_mul layout.cols start count
  refine ⟨?_,?_,hfits,?_,?_,?_⟩
  · rw [chunkFor_rowStart, chunkFor_rowCount]
    rfl
  · cases layout.kind with
    | f32 => exact le_rfl
    | q8_0 => exact le_wordAligned _
  · intro hmore
    rw [chunkFor_rowStart, chunkFor_rowCount] at hmore ⊢
    by_contra hextends
    have := hgreatest ⟨by omega,by omega,Nat.not_lt.mp hextends⟩
    omega
  · rw [layout.payload_eq]
    cases layout.kind with
    | f32 =>
      simp only [chunkFor, payloadFor, ← Nat.add_mul, ← Nat.mul_assoc]
      exact Nat.mul_le_mul_right _ hle
    | q8_0 =>
      have hblocks := blocksFor_mono hle
      simp only [chunkFor, payloadFor, q8_0BlockBytes]
      unfold blocksFor q8_0BlockElems at hblocks ⊢
      omega
  · intro element hlow hhigh
    rw [chunkFor_rowStart] at hlow
    rw [chunkFor_rowStart, chunkFor_rowCount] at hhigh
    cases layout.kind with
    | f32 =>
      simp only [chunkFor, DenseWeightChunkPlan.place, elementOffset, elementBytes, f32Bytes,
        ← Nat.mul_assoc]
      omega
    | q8_0 =>
      simp only [chunkFor, DenseWeightChunkPlan.place, elementOffset, elementBytes, blocksFor,
        q8_0BlockBytes, q8_0BlockElems]
      omega

end Chunk
end MicroExpertRouter.DenseWeights
