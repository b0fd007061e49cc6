import MicroExpertRouter.Gguf.Format
import MicroExpertRouter.Lib.Parser

/-! The eager reader of `gguf.rs`: the cursor, the values and the tables of the header, and the
tensor data. Its parser is stable: a longer file changes neither a header that was read nor a
failure other than `UnexpectedEof`. -/
namespace MicroExpertRouter.Gguf

/-- A step of the cursor. -/
abbrev Read (α : Type) := Parser UInt8 Failure α

def readBytes (n : ℕ) : Read (List UInt8) :=
  Parser.read (.eof "GGUF: unexpected end of buffer") usizeMax n

/-- `read_u8`, `read_u16`, `read_u32` and `read_u64`. -/
def readLe (bytes : ℕ) : Read ℕ := do return fromLeBytes (← readBytes bytes)

def readCount (version : ℕ) : Read ℕ := if version = 1 then readLe 4 else readLe 8

def readString (version : ℕ) : Read String := do
  let len ← readCount version
  return fromUtf8Lossy (← readBytes len)

/-- `with_capacity`. -/
def withCapacity (fits : ℕ → Bool) (n : ℕ) : Read Unit :=
  if fits n then return () else Parser.fail .panic

/-- The loop of an array. -/
def readValues (readValue : Read GgufValue) (n : ℕ) : Read (List GgufValue) :=
  Parser.loop (fun out => do return out++[← readValue]) n []

/-- At most this many values deep. -/
def readValueTyped (runtime : Runtime) (version : ℕ) : ℕ → ℕ → Read GgufValue
  | 0, _ => Parser.fail .panic
  | depth+1, ty => match GgufType.ofCode ty with
    | some .uint8 => do return .u8 (← readLe 1)
    | some .int8 => do return .i8 (toSigned 8 (← readLe 1))
    | some .uint16 => do return .u16 (← readLe 2)
    | some .int16 => do return .i16 (toSigned 16 (← readLe 2))
    | some .uint32 => do return .u32 (← readLe 4)
    | some .int32 => do return .i32 (toSigned 32 (← readLe 4))
    | some .uint64 => do return .u64 (← readLe 8)
    | some .int64 => do return .i64 (toSigned 64 (← readLe 8))
    | some .float32 => do return .f32 (← readLe 4)
    | some .float64 => do return .f64 (← readLe 8)
    | some .bool => do return .bool (decide ((← readLe 1) ≠ 0))
    | some .string => do return .string (← readString version)
    | some .array => do
      let innerTy ← readLe 4
      let n ← readCount version
      withCapacity runtime.values n
      return .array (← readValues (readValueTyped runtime version depth innerTy) n)
    | none => Parser.fail (.invalid s!"GGUF: unknown value type code {ty}")

def readValue (runtime : Runtime) (version : ℕ) : Read GgufValue := do
  let ty ← readLe 4
  readValueTyped runtime version runtime.stack ty

def readEntry (runtime : Runtime) (version : ℕ) (metadata : Table GgufValue) :
    Read (Table GgufValue) := do
  let key ← readString version
  let val ← readValue runtime version
  return Lru.put metadata key val

def readDim (version : ℕ) (shape : List ℕ) : Read (List ℕ) := do
  let d ← (if version = 1 then readLe 4 else readLe 8 : Read ℕ)
  return shape++[d]

/-- `ok_or_else` on a byte length. -/
def knownBytes (name : String) (ggmlDtype : ℕ) : Option ℕ → Read ℕ
  | none => Parser.fail
    (.invalid s!"cannot compute byte length for tensor {name} (dtype {ggmlDtype})")
  | some byteLen => return byteLen

/-- `ggml_tensor_bytes` in the parser, which runs it at no cost of input. -/
def tensorBytes (runtime : Runtime) (name : String) (ggmlDtype : ℕ) (shape : List ℕ) : Read ℕ :=
  match ggmlTensorBytes runtime ggmlDtype shape with
  | .error e => Parser.fail e
  | .ok byteLen => knownBytes name ggmlDtype byteLen

def readTensor (runtime : Runtime) (version : ℕ) (tensors : Table GgufTensorInfo) :
    Read (Table GgufTensorInfo) := do
  let name ← readString version
  let nDims ← readLe 4
  withCapacity runtime.shape nDims
  let shape ← Parser.loop (readDim version) nDims []
  let ggmlDtype ← readLe 4
  let offset ← readLe 8
  let byteLen ← tensorBytes runtime name ggmlDtype shape
  return Lru.put tensors name ⟨name,shape,ggmlDtype,offset,byteLen⟩

def ggufMagic : List UInt8 := [0x47,0x47,0x55,0x46]

def readMagic : Read Unit := do
  let magic ← readBytes 4
  if magic ≠ ggufMagic then Parser.fail (.invalid s!"not a GGUF file (magic = {magic})")

def readVersion : Read ℕ := do
  let version ← readLe 4
  if version = 0 ∨ 3<version then
    Parser.fail (.invalid s!"unsupported GGUF version {version}; supported = 1, 2, 3")
  else return version

structure Header where
  version : ℕ
  metadata : Table GgufValue
  tensors : Table GgufTensorInfo

/-- `parse` up to the end of the tensor infos. -/
def readHeader (runtime : Runtime) : Read Header := do
  readMagic
  let version ← readVersion
  let tensorCount ← readCount version
  let kvCount ← readCount version
  withCapacity runtime.metadata kvCount
  let metadata ← Parser.loop (readEntry runtime version) kvCount []
  withCapacity runtime.tensors tensorCount
  let tensors ← Parser.loop (readTensor runtime version) tensorCount []
  return ⟨version,metadata,tensors⟩

/-- The alignment that the metadata declares. -/
def Header.alignment (self : Header) : ℕ :=
  max (((Lru.peek self.metadata "general.alignment").bind GgufValue.asU64).getD 32) 1

/-- The first multiple of the alignment that is not before this position. -/
def padded (alignment afterHeader : ℕ) : ℕ :=
  afterHeader+(alignment-afterHeader % alignment) % alignment

structure GgufFile extends Header where
  bytes : List UInt8
  tensorDataStart : ℕ

namespace GgufFile

def parse (runtime : Runtime) (bytes : List UInt8) : Except Failure GgufFile :=
  match readHeader runtime bytes 0 with
  | .error e => .error e
  | .ok (header,afterHeader) =>
    let tensorDataStart := padded header.alignment afterHeader
    if bytes.length<tensorDataStart then
      .error (.eof "GGUF tensor-data section starts past end of file")
    else .ok ⟨header,bytes,tensorDataStart⟩

def tensorData (self : GgufFile) (name : String) : Option (List UInt8) := do
  let info ← Lru.peek self.tensors name
  let start ← checkedAdd usizeMax self.tensorDataStart info.offset
  let past ← checkedAdd usizeMax start info.byteLen
  if self.bytes.length<past then none
  else return (self.bytes.drop start).take (past-start)

end GgufFile

section Stability
open MicroExpertRouter.Parser (Stable Advances)

lemma short_eof (message : String) : (Failure.eof message).Short := ⟨message,rfl⟩

lemma readBytes_stable (n : ℕ) : Stable Failure.Short (readBytes n) :=
  .read (short_eof _) usizeMax n

lemma readLe_stable (bytes : ℕ) : Stable Failure.Short (readLe bytes) :=
  (readBytes_stable bytes).bind fun _ => .pure _

lemma readLe_advances {bytes : ℕ} (h : 0<bytes) : Advances (readLe bytes) :=
  (Advances.read h).bind fun v => (Stable.pure (fromLeBytes v) : Stable Failure.Short _)

lemma readCount_spec (version : ℕ) :
    Stable Failure.Short (readCount version) ∧ Advances (readCount version) := by
  unfold readCount
  split_ifs
  · exact ⟨readLe_stable 4,readLe_advances (Nat.succ_pos 3)⟩
  · exact ⟨readLe_stable 8,readLe_advances (Nat.succ_pos 7)⟩

lemma readString_spec (version : ℕ) :
    Stable Failure.Short (readString version) ∧ Advances (readString version) :=
  Stable.bind_of_advances (readCount_spec version) fun len =>
    (readBytes_stable len).bind fun _ => .pure _

lemma withCapacity_stable (fits : ℕ → Bool) (n : ℕ) :
    Stable Failure.Short (withCapacity fits n) := by
  unfold withCapacity
  split_ifs
  · exact .pure _
  · exact .fail _

/-- Values of any depth. -/
lemma readValueTyped_stable (runtime : Runtime) (version depth : ℕ) :
    ∀ ty, Stable Failure.Short (readValueTyped runtime version depth ty) := by
  induction depth with
  | zero => exact fun _ => .fail _
  | succ depth ih =>
    intro ty
    unfold readValueTyped
    cases GgufType.ofCode ty with
    | none => exact .fail _
    | some tag =>
      cases tag with
      | string => exact (readString_spec version).1.bind fun _ => .pure _
      | array =>
        refine (readLe_stable 4).bind fun innerTy => (readCount_spec version).1.bind fun n =>
          (withCapacity_stable runtime.values n).bind fun _ => .bind ?_ fun _ => .pure _
        exact .loop (fun out => (ih innerTy).bind fun _ => .pure _) n []
      | _ => exact (readLe_stable _).bind fun _ => .pure _

lemma readEntry_spec (runtime : Runtime) (version : ℕ) (metadata : Table GgufValue) :
    Stable Failure.Short (readEntry runtime version metadata) ∧
      Advances (readEntry runtime version metadata) := by
  refine Stable.bind_of_advances (readString_spec version) fun key => .bind ?_ fun _ => .pure _
  exact (readLe_stable 4).bind fun ty => readValueTyped_stable runtime version runtime.stack ty

lemma readDim_stable (version : ℕ) (shape : List ℕ) : Stable Failure.Short (readDim version shape) := by
  refine .bind ?_ fun _ => .pure _
  split_ifs
  · exact readLe_stable 4
  · exact readLe_stable 8

lemma tensorBytes_stable (runtime : Runtime) (name : String) (ggmlDtype : ℕ) (shape : List ℕ) :
    Stable Failure.Short (tensorBytes runtime name ggmlDtype shape) := by
  unfold tensorBytes
  cases ggmlTensorBytes runtime ggmlDtype shape with
  | error e => exact .fail e
  | ok byteLen =>
    cases byteLen with
    | none => exact .fail _
    | some byteLen => exact .pure _

lemma readTensor_spec (runtime : Runtime) (version : ℕ) (tensors : Table GgufTensorInfo) :
    Stable Failure.Short (readTensor runtime version tensors) ∧
      Advances (readTensor runtime version tensors) :=
  Stable.bind_of_advances (readString_spec version) fun _ => (readLe_stable 4).bind fun nDims =>
    (withCapacity_stable runtime.shape nDims).bind fun _ =>
      (Stable.loop (readDim_stable version) nDims []).bind fun _ => (readLe_stable 4).bind fun _ =>
        (readLe_stable 8).bind fun _ => (tensorBytes_stable runtime _ _ _).bind fun _ => .pure _

lemma readMagic_stable : Stable Failure.Short readMagic := by
  refine (readBytes_stable 4).bind fun magic => ?_
  split_ifs
  · exact .fail _
  · exact .pure _

lemma readVersion_stable : Stable Failure.Short readVersion := by
  refine (readLe_stable 4).bind fun version => ?_
  split_ifs
  · exact .fail _
  · exact .pure _

theorem readHeader_stable (runtime : Runtime) : Stable Failure.Short (readHeader runtime) :=
  readMagic_stable.bind fun _ => readVersion_stable.bind fun version =>
    (readCount_spec version).1.bind fun tensorCount => (readCount_spec version).1.bind fun kvCount =>
      (withCapacity_stable runtime.metadata kvCount).bind fun _ =>
        (Stable.loop (fun s => (readEntry_spec runtime version s).1) kvCount []).bind fun _ =>
          (withCapacity_stable runtime.tensors tensorCount).bind fun _ =>
            (Stable.loop (fun s => (readTensor_spec runtime version s).1) tensorCount []).bind
              fun _ => .pure _

end Stability

/-- A sum that fits `usize` in every file. -/
lemma padded_le {alignment afterHeader : ℕ} (halignment : alignment ≤ usizeMax)
    (hafter : afterHeader ≤ isizeMax) : padded alignment afterHeader ≤ usizeMax := by
  unfold padded usizeMax isizeMax at *
  obtain hlt | hle := Nat.lt_or_ge afterHeader alignment
  · rw [Nat.mod_eq_of_lt hlt]
    have hpad := Nat.mod_le (alignment-afterHeader) alignment
    omega
  · obtain rfl | hpositive := Nat.eq_zero_or_pos alignment
    · simp
      omega
    · have hpad := Nat.mod_lt (alignment-afterHeader % alignment) hpositive
      omega

lemma le_padded (alignment afterHeader : ℕ) : afterHeader ≤ padded alignment afterHeader :=
  Nat.le_add_right _ _

namespace GgufFile
variable {runtime : Runtime} {bytes longer : List UInt8} {file : GgufFile} {failure : Failure}

lemma parse_eq_ok : parse runtime bytes = .ok file ↔ ∃ header afterHeader,
    readHeader runtime bytes 0 = .ok (header,afterHeader) ∧
      padded header.alignment afterHeader ≤ bytes.length ∧
      file = ⟨header,bytes,padded header.alignment afterHeader⟩ := by
  unfold parse
  cases readHeader runtime bytes 0 with
  | error e => simp
  | ok found =>
    obtain ⟨header,afterHeader⟩ := found
    dsimp only
    split_ifs with hshort
    · simp only [Except.ok.injEq, Prod.mk.injEq, false_iff]
      rintro ⟨_,_,⟨rfl,rfl⟩,hlong,-⟩
      omega
    · simp only [Except.ok.injEq, Prod.mk.injEq]
      constructor
      · rintro rfl
        exact ⟨header,afterHeader,⟨rfl,rfl⟩,Nat.not_lt.mp hshort,rfl⟩
      · rintro ⟨_,_,⟨rfl,rfl⟩,-,rfl⟩
        rfl

/-- What was read up to the tensor data stays read. -/
theorem parse_of_header (h : parse runtime bytes = .ok file)
    (hlonger : bytes.take file.tensorDataStart <+: longer) :
    parse runtime longer = .ok { file with bytes := longer } := by
  obtain ⟨header,afterHeader,hread,hstart,rfl⟩ := parse_eq_ok.mp h
  obtain ⟨-,-,hagain⟩ := (readHeader_stable runtime).ok (Nat.zero_le _) hread
  have hlength := hlonger.length_le
  rw [List.length_take_of_le hstart] at hlength
  exact parse_eq_ok.mpr ⟨header,afterHeader,
    hagain ((List.take_prefix_take_left (le_padded _ _)).trans hlonger),hlength,rfl⟩

/-- A failure other than `UnexpectedEof` is a failure of every longer file. -/
theorem parse_error (h : parse runtime bytes = .error failure) (hshort : ¬ failure.Short)
    (hlonger : bytes <+: longer) : parse runtime longer = .error failure := by
  unfold parse at h
  cases hread : readHeader runtime bytes 0 with
  | error e =>
    rw [hread] at h
    cases h
    unfold parse
    rw [(readHeader_stable runtime).error (Nat.zero_le _) hread hshort hlonger]
  | ok found =>
    obtain ⟨header,afterHeader⟩ := found
    rw [hread] at h
    dsimp only at h
    split_ifs at h
    cases h
    exact absurd (short_eof _) hshort

/-- A prefix of a file that parses fails only for want of the header. -/
theorem parse_short (h : parse runtime longer = .ok file) (hlonger : bytes <+: longer)
    (herror : parse runtime bytes = .error failure) :
    failure.Short ∧ bytes.length<file.tensorDataStart := by
  constructor
  · by_contra hshort
    rw [parse_error herror hshort hlonger] at h
    cases h
  · by_contra hlong
    have htake : longer.take file.tensorDataStart <+: bytes := by
      obtain ⟨tail,rfl⟩ := hlonger
      rw [List.take_append_of_le_length (Nat.not_lt.mp hlong)]
      exact List.take_prefix _ bytes
    rw [parse_of_header h htake] at herror
    cases herror

end GgufFile

end MicroExpertRouter.Gguf
