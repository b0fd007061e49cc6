import MicroExpertRouter.Lib.Fields
import MicroExpertRouter.Lib.Machine
import Mathlib.Data.List.Sort

/-! The headers of expert files, of `tensor_header.rs`: `UTH1` for one dtype and `UTH2` for mixed
projections, each stored field by field in a zeroed block and padded up to the alignment. -/
namespace MicroExpertRouter.Storage
open MicroExpertRouter.Fields (readLe store)

def uthMagic : List UInt8 := [0x55,0x54,0x48,0x31]

def uth2Magic : List UInt8 := [0x55,0x54,0x48,0x32]

def uthBytes : ℕ := 64

def uthVersion : ℕ := 1

def uth2Version : UInt16 := 2

def uth2Bytes : ℕ := 128

def uthFlagPageAlignedPayload : UInt32 := 1

def uthMaxRank : ℕ := 4

inductive UthDtypeId
  | f32
  | f16
  | int8
  | q4K
  | q4_0
  | q8_0
  | bf16
  | mxfp4
  | q5K
  | q6K
  | mixed
  deriving DecidableEq, Repr

namespace UthDtypeId

/-- The dtypes in the order of their codes. -/
def all : List UthDtypeId := [f32,f16,int8,q4K,q4_0,q8_0,bf16,mxfp4,q5K,q6K,mixed]

/-- `as u8`. -/
def code (self : UthDtypeId) : ℕ := all.idxOf self

def fromU8 (b : ℕ) : Option UthDtypeId := all[b]?

lemma code_lt (dtype : UthDtypeId) : dtype.code<256^1 := by
  cases dtype <;> decide

lemma fromU8_code (dtype : UthDtypeId) : fromU8 dtype.code = some dtype := by
  cases dtype <;> rfl

lemma code_of_fromU8 {b : ℕ} {dtype : UthDtypeId} (h : fromU8 b = some dtype) : dtype.code = b := by
  obtain ⟨hb,rfl⟩ := List.getElem?_eq_some_iff.mp h
  exact List.Nodup.idxOf_getElem (by decide) b hb

end UthDtypeId

/-- `self.shape`, and the number of its dimensions that count. -/
structure TensorHeader where
  version : UInt16
  dtype : UthDtypeId
  shape : Vector UInt32 4
  shapeRank : UInt8
  quantScaleOffset : UInt32
  quantScaleCount : UInt32
  amxTileM : UInt32
  amxTileN : UInt32
  amxTileK : UInt32
  flags : UInt32
  deriving DecidableEq

namespace TensorHeader

/-- What `to_bytes` copies, and where. -/
def fields (self : TensorHeader) : List (ℕ × List UInt8) :=
  [(0,uthMagic),(4,Le.encode 2 self.version.toNat),(6,Le.encode 1 self.dtype.code),
    (7,Le.encode 1 self.shapeRank.toNat),
    (8,Le.encode 4 self.shape[0].toNat),(12,Le.encode 4 self.shape[1].toNat),
    (16,Le.encode 4 self.shape[2].toNat),(20,Le.encode 4 self.shape[3].toNat),
    (24,Le.encode 4 self.quantScaleOffset.toNat),(28,Le.encode 4 self.quantScaleCount.toNat),
    (32,Le.encode 4 self.amxTileM.toNat),(36,Le.encode 4 self.amxTileN.toNat),
    (40,Le.encode 4 self.amxTileK.toNat),(44,Le.encode 4 self.flags.toNat)]

def toBytes (self : TensorHeader) : List UInt8 := self.fields.foldl store (List.replicate uthBytes 0)

def writePadded (self : TensorHeader) (blockAlign : ℕ) (dst : List UInt8) : List UInt8 :=
  let start := dst.length
  let dst := dst++self.toBytes
  let after := dst.length-start
  let pad := if 0<blockAlign then (blockAlign-after % blockAlign) % blockAlign else 0
  dst++List.replicate pad 0

def probe (bytes : List UInt8) : Option TensorHeader :=
  if bytes.length<uthBytes then none
  else if Slab.read bytes 0 4 ≠ uthMagic then none
  else
    let version := readLe bytes 4 2
    if version = 0 ∨ uthVersion<version then none
    else do
      let dtype ← UthDtypeId.fromU8 (readLe bytes 6 1)
      let shapeRank := readLe bytes 7 1
      if shapeRank = 0 ∨ uthMaxRank<shapeRank then none
      else
        return {
          version := .ofNat version
          dtype := dtype
          shape := Vector.ofFn fun i => .ofNat (readLe bytes (8+i*4) 4)
          shapeRank := .ofNat shapeRank
          quantScaleOffset := .ofNat (readLe bytes 24 4)
          quantScaleCount := .ofNat (readLe bytes 28 4)
          amxTileM := .ofNat (readLe bytes 32 4)
          amxTileN := .ofNat (readLe bytes 36 4)
          amxTileK := .ofNat (readLe bytes 40 4)
          flags := .ofNat (readLe bytes 44 4) }

/-- The bytes before the payload. -/
def headerBytes (self : TensorHeader) (blockAlign : ℕ) : ℕ :=
  if self.flags &&& uthFlagPageAlignedPayload ≠ 0 ∧ 0<blockAlign then
    let pad := (blockAlign-uthBytes % blockAlign) % blockAlign
    uthBytes+pad
  else uthBytes

def strip (bytes : List UInt8) (blockAlign : ℕ) : Option TensorHeader × List UInt8 :=
  match probe bytes with
  | none => (none,bytes)
  | some h =>
    if bytes.length<h.headerBytes blockAlign then (none,bytes)
    else (some h,bytes.drop (h.headerBytes blockAlign))

end TensorHeader

structure ProjectionRange where
  dtype : UthDtypeId
  offset : UInt64
  len : UInt64
  weights : UInt32
  deriving DecidableEq

/-- `ProjectionRange::end`. -/
def ProjectionRange.past (self : ProjectionRange) : Option ℕ :=
  checkedAdd u64Max self.offset.toNat self.len.toNat

structure MixedExpertHeader where
  version : UInt16
  dModel : UInt32
  dFf : UInt32
  flags : UInt32
  gate : ProjectionRange
  up : ProjectionRange
  down : ProjectionRange
  deriving DecidableEq

/-- A range with its name, its start and its end. -/
structure Span where
  name : String
  start : ℕ
  past : ℕ

/-- One turn of the loop of `validate` over the projections. -/
def validateRange (payloadLen : ℕ) (name : String) (r : ProjectionRange) : Except String Unit :=
  if r.dtype = .mixed then .error s!"UTH2 {name} projection cannot use mixed dtype id"
  else if r.len = 0 then .error s!"UTH2 {name} projection has zero length"
  else match r.past with
    | none => .error s!"UTH2 {name} range overflows u64"
    | some past =>
      let offset := r.offset.toNat
      if payloadLen<past then
        .error s!"UTH2 {name} range {offset}..{past} exceeds payload length {payloadLen}"
      else .ok ()

/-- The loop over pairs of neighbours. -/
def validateWindows : List Span → Except String Unit
  | left::right::rest =>
    let leftName := left.name
    let rightName := right.name
    if right.start<left.past then
      .error s!"UTH2 projection ranges overlap: {leftName} and {rightName}"
    else validateWindows (right::rest)
  | _ => .ok ()

namespace MixedExpertHeader

/-- `new`; the dimensions are `usize` and lose what does not fit `u32`. -/
def new (dModel dFf : ℕ) (gate up down : ProjectionRange) : MixedExpertHeader where
  version := uth2Version
  dModel := .ofNat dModel
  dFf := .ofNat dFf
  flags := uthFlagPageAlignedPayload
  gate := gate
  up := up
  down := down

def ranges (self : MixedExpertHeader) : List (String × ProjectionRange) :=
  [("gate",self.gate),("up",self.up),("down",self.down)]

def spans (self : MixedExpertHeader) : List Span :=
  self.ranges.map fun range => ⟨range.1,range.2.offset.toNat,range.2.past.getD u64Max⟩

def validate (self : MixedExpertHeader) (payloadLen : ℕ) : Except String Unit := do
  let version := self.version
  if version ≠ uth2Version then
    .error s!"unsupported UTH2 version {version}"
  else if self.dModel = 0 ∨ self.dFf = 0 then
    .error "UTH2 d_model and d_ff must be non-zero"
  else do
    self.ranges.forM fun range => validateRange payloadLen range.1 range.2
    validateWindows (self.spans.insertionSort fun left right => left.start ≤ right.start)

/-- What `to_bytes` copies for a projection. -/
def projectionFields (idx role : ℕ) (p : ProjectionRange) : List (ℕ × List UInt8) :=
  let off := 24+idx*24
  [(off,Le.encode 1 p.dtype.code),(off+1,Le.encode 1 role),(off+4,Le.encode 8 p.offset.toNat),
    (off+12,Le.encode 8 p.len.toNat),(off+20,Le.encode 4 p.weights.toNat)]

def fields (self : MixedExpertHeader) : List (ℕ × List UInt8) :=
  [(0,uth2Magic),(4,Le.encode 2 self.version.toNat),(6,Le.encode 2 3),
    (8,Le.encode 4 self.dModel.toNat),(12,Le.encode 4 self.dFf.toNat),
    (16,Le.encode 4 self.flags.toNat)]++
    projectionFields 0 0 self.gate++projectionFields 1 1 self.up++projectionFields 2 2 self.down

def toBytes (self : MixedExpertHeader) : List UInt8 :=
  self.fields.foldl store (List.replicate uth2Bytes 0)

def writePadded (self : MixedExpertHeader) (blockAlign : ℕ) (dst : List UInt8) : List UInt8 :=
  let start := dst.length
  let dst := dst++self.toBytes
  let after := dst.length-start
  let pad := if 0<blockAlign then (blockAlign-after % blockAlign) % blockAlign else 0
  dst++List.replicate pad 0

def readProjection (bytes : List UInt8) (idx expectedRole : ℕ) : Option ProjectionRange :=
  let off := 24+idx*24
  if readLe bytes (off+1) 1 ≠ expectedRole then none
  else do
    let dtype ← UthDtypeId.fromU8 (readLe bytes off 1)
    return {
      dtype := dtype
      offset := .ofNat (readLe bytes (off+4) 8)
      len := .ofNat (readLe bytes (off+12) 8)
      weights := .ofNat (readLe bytes (off+20) 4) }

def probe (bytes : List UInt8) : Option MixedExpertHeader :=
  if bytes.length<uth2Bytes ∨ Slab.read bytes 0 4 ≠ uth2Magic then none
  else
    let version := UInt16.ofNat (readLe bytes 4 2)
    if version ≠ uth2Version then none
    else if readLe bytes 6 2 ≠ 3 then none
    else do
      let gate ← readProjection bytes 0 0
      let up ← readProjection bytes 1 1
      let down ← readProjection bytes 2 2
      return {
        version := version
        dModel := .ofNat (readLe bytes 8 4)
        dFf := .ofNat (readLe bytes 12 4)
        flags := .ofNat (readLe bytes 16 4)
        gate := gate
        up := up
        down := down }

/-- The bytes before the payload. -/
def headerBytes (self : MixedExpertHeader) (blockAlign : ℕ) : ℕ :=
  if self.flags &&& uthFlagPageAlignedPayload ≠ 0 ∧ 0<blockAlign then
    let pad := (blockAlign-uth2Bytes % blockAlign) % blockAlign
    uth2Bytes+pad
  else uth2Bytes

def strip (bytes : List UInt8) (blockAlign : ℕ) : Option (MixedExpertHeader × List UInt8) := do
  let h ← probe bytes
  if bytes.length<h.headerBytes blockAlign then none
  else
    let payload := bytes.drop (h.headerBytes blockAlign)
    match h.validate payload.length with
    | .error _ => none
    | .ok _ => return (h,payload)

end MixedExpertHeader

end MicroExpertRouter.Storage
