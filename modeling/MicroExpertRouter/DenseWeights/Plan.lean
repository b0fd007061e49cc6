import MicroExpertRouter.Arena.Layout
import MicroExpertRouter.Lib.Search

/-! Layout of a dense weight on the device and its split into chunks of whole rows, from
`backend/gpu_native.rs`. -/
namespace MicroExpertRouter.DenseWeights
open Arena (DeviceLimits wordAligned le_wordAligned)

inductive DenseWeightKind
  | f32
  | q8_0
  deriving DecidableEq, Repr

inductive BootstrapError
  | invalidDenseWeightShape (rows cols : ℕ)
  | denseWeightShapeOverflow (rows cols : ℕ)
  | denseWeightDimensionTooLarge (rows cols : ℕ)
  | denseWeightByteLength (kind : DenseWeightKind) (rows cols expected actual : ℕ)
  | denseWeightRowExceedsDeviceLimit (kind : DenseWeightKind) (cols required maximum : ℕ)
  deriving DecidableEq, Repr

def f32Bytes : ℕ := 4
def q8_0BlockElems : ℕ := 32
def q8_0BlockBytes : ℕ := 34

/-- `x.div_ceil(Q8_0_BLOCK_ELEMS)`. -/
def blocksFor (elements : ℕ) : ℕ := (elements+q8_0BlockElems-1)/q8_0BlockElems

/-- The bytes of a tensor of some number of elements. -/
def payloadFor : DenseWeightKind → ℕ → ℕ
  | .f32, elements => elements*f32Bytes
  | .q8_0, elements => blocksFor elements*q8_0BlockBytes

/-- A nonempty tensor that the shaders can index. -/
structure DenseWeightLayout where
  kind : DenseWeightKind
  rows : ℕ
  cols : ℕ
  payloadBytes : ℕ
  allocationBytes : ℕ
  rows_pos : 0<rows
  cols_pos : 0<cols
  elements_le : rows*cols ≤ u32Max
  payload_eq : payloadBytes = payloadFor kind (rows*cols)

/-- `ok_or(DenseWeightShapeOverflow { rows, cols })?`. -/
def orOverflow (rows cols : ℕ) : Option ℕ → Except BootstrapError ℕ
  | some value => .ok value
  | none => .error (.denseWeightShapeOverflow rows cols)

@[simp] lemma orOverflow_some (rows cols value : ℕ) :
    orOverflow rows cols (some value) = .ok value := rfl

def checkedWordAligned (bytes : ℕ) : Option ℕ :=
  (checkedAdd usizeMax bytes 3).map fun bytes => bytes/4*4

lemma checkedWordAligned_of_le {bytes : ℕ} (h : bytes+3 ≤ usizeMax) :
    checkedWordAligned bytes = some (wordAligned bytes) := by
  rw [checkedWordAligned, checkedAdd_of_le h]
  rfl

/-- `expected_bytes` of a shape. -/
def expectedBytes (kind : DenseWeightKind) (elements : ℕ) : Option ℕ :=
  match kind with
  | .f32 => checkedMul usizeMax elements f32Bytes
  | .q8_0 => checkedMul usizeMax (blocksFor elements) q8_0BlockBytes

lemma expectedBytes_eq_some {kind : DenseWeightKind} {elements bytes : ℕ}
    (h : expectedBytes kind elements = some bytes) : bytes = payloadFor kind elements := by
  cases kind with
  | f32 => exact (checkedMul_eq_some.mp h).2
  | q8_0 => exact (checkedMul_eq_some.mp h).2

/-- The elements that `try_new` accepts: the products are bounded by `u32` in the end. -/
def DenseWeightLayout.tryNew (kind : DenseWeightKind) (rows cols actualBytes : ℕ) :
    Except BootstrapError DenseWeightLayout := do
  if hshape : rows = 0 ∨ cols = 0 then .error (.invalidDenseWeightShape rows cols)
  else
    let _ ← orOverflow rows cols (checkedMul usizeMax rows cols)
    if hlarge : u32Max<rows ∨ u32Max<cols ∨ u32Max<rows*cols then
      .error (.denseWeightDimensionTooLarge rows cols)
    else
      match hexpected : expectedBytes kind (rows*cols) with
      | none => .error (.denseWeightShapeOverflow rows cols)
      | some expected =>
        if actualBytes ≠ expected then
          .error (.denseWeightByteLength kind rows cols expected actualBytes)
        else if kind = .q8_0 ∧ u32Max<expected then
          .error (.denseWeightDimensionTooLarge rows cols)
        else
          let allocation ← orOverflow rows cols (checkedWordAligned expected)
          return ⟨kind,rows,cols,expected,allocation,by omega,by omega,by omega,
            expectedBytes_eq_some hexpected⟩

/-- One chunk: whole rows, and the payload bytes they are read from. -/
structure DenseWeightChunkPlan where
  rowStart : ℕ
  rowCount : ℕ
  firstBlock : ℕ
  payloadOffsetBytes : ℕ
  payloadBytes : ℕ
  allocationBytes : ℕ
  deriving DecidableEq, Repr

structure DenseWeightPlan where
  layout : DenseWeightLayout
  chunks : List DenseWeightChunkPlan
  physicalAllocationBytes : ℕ

namespace DenseWeightPlan

/-- The whole blocks that hold some rows. -/
def q8Chunk (layout : DenseWeightLayout) (rowStart rowCount : ℕ) :
    Except BootstrapError DenseWeightChunkPlan := do
  let elementStart ← orOverflow layout.rows layout.cols (checkedMul usizeMax rowStart layout.cols)
  let elementEnd ← orOverflow layout.rows layout.cols
    ((checkedAdd usizeMax rowStart rowCount).bind fun rowEnd =>
      checkedMul usizeMax rowEnd layout.cols)
  let firstBlock := elementStart/q8_0BlockElems
  let blockEnd := blocksFor elementEnd
  let blockCount := blockEnd-firstBlock
  let payloadOffset ← orOverflow layout.rows layout.cols
    (checkedMul usizeMax firstBlock q8_0BlockBytes)
  let payload ← orOverflow layout.rows layout.cols (checkedMul usizeMax blockCount q8_0BlockBytes)
  let allocation ← orOverflow layout.rows layout.cols (checkedWordAligned payload)
  return ⟨rowStart,rowCount,firstBlock,payloadOffset,payload,allocation⟩

/-- The rows of an F32 chunk. -/
def f32RowCount (layout : DenseWeightLayout) (maximum remaining : ℕ) : Except BootstrapError ℕ := do
  let rowBytes ← orOverflow layout.rows layout.cols (checkedMul usizeMax layout.cols f32Bytes)
  if maximum<rowBytes then
    .error (.denseWeightRowExceedsDeviceLimit layout.kind layout.cols rowBytes maximum)
  else return min remaining (maximum/rowBytes)

/-- The rows of a Q8_0 chunk, found by binary search. -/
def q8RowCount (layout : DenseWeightLayout) (maximum rowStart remaining : ℕ) :
    Except BootstrapError ℕ := do
  let oneRow ← q8Chunk layout rowStart 1
  if maximum<oneRow.allocationBytes then
    .error (.denseWeightRowExceedsDeviceLimit layout.kind layout.cols oneRow.allocationBytes maximum)
  else
    let fits (middle : ℕ) : Except BootstrapError Bool := do
      let chunk ← q8Chunk layout rowStart middle
      return decide (chunk.allocationBytes ≤ maximum)
    Search.last fits remaining 1 remaining

/-- The chunk of one turn of the loop. -/
def nextChunk (layout : DenseWeightLayout) (maximum rowStart : ℕ) :
    Except BootstrapError DenseWeightChunkPlan := do
  let remaining := layout.rows-rowStart
  match layout.kind with
  | .f32 =>
    let rowCount ← f32RowCount layout maximum remaining
    let rowBytes := layout.cols*f32Bytes
    let payload := rowCount*rowBytes
    return ⟨rowStart,rowCount,0,rowStart*rowBytes,payload,payload⟩
  | .q8_0 =>
    let rowCount ← q8RowCount layout maximum rowStart remaining
    q8Chunk layout rowStart rowCount

/-- What the loop carries. -/
structure Progress where
  chunks : List DenseWeightChunkPlan
  rowStart : ℕ
  physicalAllocationBytes : ℕ

def turn (layout : DenseWeightLayout) (maximum : ℕ) (s : Progress) :
    Except BootstrapError Progress := do
  let chunk ← nextChunk layout maximum s.rowStart
  let physical ← orOverflow layout.rows layout.cols
    (checkedAdd u64Max s.physicalAllocationBytes chunk.allocationBytes)
  return ⟨s.chunks++[chunk],s.rowStart+chunk.rowCount,physical⟩

/-- `while row_start < layout.rows`; `none` when the turns do not suffice. -/
def chunkLoop (layout : DenseWeightLayout) (maximum : ℕ) :
    ℕ → Progress → Option (Except BootstrapError Progress)
  | turns, s =>
    if s.rowStart<layout.rows then
      match turns with
      | 0 => none
      | turns+1 =>
        match turn layout maximum s with
        | .error error => some (.error error)
        | .ok s => chunkLoop layout maximum turns s
    else some (.ok s)

/-- The largest chunk the device binds. -/
def maximumBytes (limits : DeviceLimits) : ℕ :=
  min limits.maxBufferSize limits.maxStorageBufferBindingSize

def tryNew (layout : DenseWeightLayout) (limits : DeviceLimits) (turns : ℕ) :
    Option (Except BootstrapError DenseWeightPlan) :=
  (chunkLoop layout (maximumBytes limits) turns ⟨[],0,0⟩).map
    (Except.map fun s => ⟨layout,s.chunks,s.physicalAllocationBytes⟩)

end DenseWeightPlan
end MicroExpertRouter.DenseWeights
