import MicroExpertRouter.Lib.Lru
import MicroExpertRouter.Lib.Machine

/-! The values of a GGUF header, of `gguf.rs`: metadata values, tensor infos and the byte length of
a tensor. Floats are kept as their bits. -/
namespace MicroExpertRouter.Gguf

inductive ErrorKind
  | invalidInput
  | invalidData
  | unexpectedEof
  | notFound
  deriving DecidableEq, Repr

structure IoError where
  kind : ErrorKind
  message : String
  deriving DecidableEq, Repr

/-- An error, or the end of the program by a panic or an abort. -/
inductive Failure
  | error (e : IoError)
  | panic
  deriving DecidableEq, Repr

def Failure.invalid (message : String) : Failure := .error ⟨.invalidData,message⟩

def Failure.eof (message : String) : Failure := .error ⟨.unexpectedEof,message⟩

/-- An `UnexpectedEof`. -/
def Failure.Short (f : Failure) : Prop := ∃ message, f = .eof message

/-- What the build and the machine decide: whether overflow is checked, for how many elements the
collections of a header can be allocated, and how deep values may nest before the stack is used
up. -/
structure Runtime where
  overflowChecks : Bool
  metadata : ℕ → Bool
  tensors : ℕ → Bool
  shape : ℕ → Bool
  values : ℕ → Bool
  stack : ℕ

inductive GgufType
  | uint8
  | int8
  | uint16
  | int16
  | uint32
  | int32
  | float32
  | bool
  | string
  | array
  | uint64
  | int64
  | float64
  deriving DecidableEq, Repr

/-- The tags in the order of their codes. -/
def GgufType.all : List GgufType :=
  [.uint8,.int8,.uint16,.int16,.uint32,.int32,.float32,.bool,.string,.array,.uint64,.int64,.float64]

def GgufType.ofCode (code : ℕ) : Option GgufType := GgufType.all[code]?

inductive GgufValue
  | u8 (v : ℕ)
  | i8 (v : ℤ)
  | u16 (v : ℕ)
  | i16 (v : ℤ)
  | u32 (v : ℕ)
  | i32 (v : ℤ)
  | u64 (v : ℕ)
  | i64 (v : ℤ)
  | f32 (bits : ℕ)
  | f64 (bits : ℕ)
  | bool (v : Bool)
  | string (s : String)
  | array (vs : List GgufValue)

def GgufValue.asU64 : GgufValue → Option ℕ
  | u8 v => some v
  | u16 v => some v
  | u32 v => some v
  | u64 v => some v
  | i8 v => if 0 ≤ v then some v.toNat else none
  | i16 v => if 0 ≤ v then some v.toNat else none
  | i32 v => if 0 ≤ v then some v.toNat else none
  | i64 v => if 0 ≤ v then some v.toNat else none
  | _ => none

def GgufValue.asStr : GgufValue → Option String
  | string s => some s
  | _ => none

structure GgufTensorInfo where
  name : String
  shape : List ℕ
  ggmlDtype : ℕ
  offset : ℕ
  byteLen : ℕ
  deriving DecidableEq, Repr

/-- A `HashMap` with strings as keys. -/
abbrev Table (ν : Type) := List (String × ν)

/-- `from_le_bytes`. -/
def fromLeBytes (bytes : List UInt8) : ℕ := bytes.foldr (fun b rest => b.toNat+256*rest) 0

/-- `as` to the signed type of this width. -/
def toSigned (width v : ℕ) : ℤ := if v<2^(width-1) then v else v-2^width

section Utf8

/-- A character whose last bytes are still to come: its bits so far, how many bytes are missing,
and the bounds of the next one. -/
structure PendingChar where
  bits : ℕ
  missing : ℕ
  low : ℕ
  high : ℕ

def replacementCharacter : Char := Char.ofNat 0xFFFD

/-- A byte at the beginning of a character. -/
def startChar (b : ℕ) : List Char × Option PendingChar :=
  if b<0x80 then ([Char.ofNat b],none)
  else if 0xC2 ≤ b ∧ b ≤ 0xDF then ([],some ⟨b % 32,1,0x80,0xBF⟩)
  else if b = 0xE0 then ([],some ⟨b % 16,2,0xA0,0xBF⟩)
  else if b = 0xED then ([],some ⟨b % 16,2,0x80,0x9F⟩)
  else if 0xE1 ≤ b ∧ b ≤ 0xEF then ([],some ⟨b % 16,2,0x80,0xBF⟩)
  else if b = 0xF0 then ([],some ⟨b % 8,3,0x90,0xBF⟩)
  else if 0xF1 ≤ b ∧ b ≤ 0xF3 then ([],some ⟨b % 8,3,0x80,0xBF⟩)
  else if b = 0xF4 then ([],some ⟨b % 8,3,0x80,0x8F⟩)
  else ([replacementCharacter],none)

/-- One more byte. A character that does not go on is replaced, and the byte begins another. -/
def nextChar (pending : Option PendingChar) (b : ℕ) : List Char × Option PendingChar :=
  match pending with
  | none => startChar b
  | some char =>
    if char.low ≤ b ∧ b ≤ char.high then
      let bits := char.bits*64+b % 64
      if char.missing ≤ 1 then ([Char.ofNat bits],none)
      else ([],some ⟨bits,char.missing-1,0x80,0xBF⟩)
    else
      let (chars,begun) := startChar b
      (replacementCharacter::chars,begun)

def lossyChars : Option PendingChar → List UInt8 → List Char
  | none, [] => []
  | some _, [] => [replacementCharacter]
  | pending, b::bytes =>
    let (chars,begun) := nextChar pending b.toNat
    chars++lossyChars begun bytes

/-- `String::from_utf8_lossy`: every longest beginning of a character that breaks off is replaced. -/
def fromUtf8Lossy (bytes : List UInt8) : String := String.ofList (lossyChars none bytes)

example : lossyChars none [0x61,0xE2,0x82,0x62,0xE2,0x82,0xAC,0xC0,0xF0,0x9F] =
    ['a',replacementCharacter,'b',Char.ofNat 0x20AC,replacementCharacter,replacementCharacter] := by
  decide

end Utf8

namespace GgmlDtype

def f32 : ℕ := 0
def f16 : ℕ := 1
def q4_0 : ℕ := 2
def q8_0 : ℕ := 8
def q4K : ℕ := 12
def q5K : ℕ := 13
def q6K : ℕ := 14
def bf16 : ℕ := 32

end GgmlDtype

/-- The product of the dimensions, in `u64`. -/
def elems (runtime : Runtime) (shape : List ℕ) : Except Failure ℕ :=
  shape.foldlM (fun total d =>
    if total*d ≤ u64Max then .ok (total*d)
    else if runtime.overflowChecks then .error .panic
    else .ok (total*d % 2^64)) 1

/-- Whole blocks of `blockElems` elements and `blockBytes` bytes. -/
def blocksBytes (blockElems blockBytes elems : ℕ) : Option ℕ :=
  checkedMul u64Max ((elems+blockElems-1)/blockElems) blockBytes

/-- The match of `ggml_tensor_bytes` on the dtype. -/
def dtypeBytes (code elems : ℕ) : Option ℕ :=
  if code = GgmlDtype.f32 then checkedMul u64Max elems 4
  else if code = GgmlDtype.f16 then checkedMul u64Max elems 2
  else if code = GgmlDtype.bf16 then checkedMul u64Max elems 2
  else if code = GgmlDtype.q4_0 then blocksBytes 32 (2+32/2) elems
  else if code = GgmlDtype.q4K then blocksBytes 256 (2+2+12+128) elems
  else if code = GgmlDtype.q5K then blocksBytes 256 (2+2+12+32+128) elems
  else if code = GgmlDtype.q8_0 then blocksBytes 32 34 elems
  else if code = GgmlDtype.q6K then blocksBytes 256 (128+64+16+2) elems
  else none

def ggmlTensorBytes (runtime : Runtime) (code : ℕ) (shape : List ℕ) : Except Failure (Option ℕ) := do
  let elems ← elems runtime shape
  return dtypeBytes code elems

end MicroExpertRouter.Gguf
