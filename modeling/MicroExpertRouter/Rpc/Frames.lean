import MicroExpertRouter.Lib.Fields
import MicroExpertRouter.Lib.Metered

/-! The packed frames of `rpc.rs`. Offsets are computed in 64-bit `usize` arithmetic, which wraps;
an index outside the buffer and a capacity beyond `isize::MAX` bytes panic. A decoder lists what it
reserves. -/
namespace MicroExpertRouter.Rpc

/-- A `&[u8]`, which spans at most `isize::MAX` bytes. -/
structure Slice where
  bytes : List UInt8
  length_le : bytes.length ≤ isizeMax

inductive ErrorKind
  | unexpectedEof
  deriving DecidableEq, Repr

/-- What ends a decoder early. -/
inductive Stop
  | panic
  | io (kind : ErrorKind) (message : String)
  deriving DecidableEq, Repr

/-- `Vec::with_capacity`, in elements of some size. -/
structure Reservation where
  elements : ℕ
  size : ℕ
  deriving DecidableEq, Repr

abbrev Decoder (α : Type) := Metered Reservation UInt8 Stop α

/-- A `usize` operation, modulo `2^64`. -/
def word (n : ℕ) : ℕ := n % 2^64

namespace Decoder
variable {α : Type}

def fail (stop : Stop) : Decoder α := Metered.lift (Parser.fail stop)

/-- `buf.len()`. -/
def length : Decoder ℕ := Metered.lift fun buf pos => .ok (buf.length,pos)

/-- `buf[start..stop]`. -/
def slice (start stop : ℕ) : Decoder (List UInt8) := Metered.lift fun buf pos =>
  if start ≤ stop ∧ stop ≤ buf.length then .ok (Slab.read buf start (stop-start),pos)
  else .error .panic

/-- `from_le_bytes` of `width` bytes. -/
def readLe (off width : ℕ) : Decoder ℕ := do
  return Le.decode (← slice off (word (off+width)))

def withCapacity (elements size : ℕ) : Decoder Unit := do
  Metered.ask ⟨elements,size⟩
  if isizeMax<elements*size then fail .panic

/-- The loop that pushes `n` numbers, from the `i`-th on. -/
def readEach (start width : ℕ) : ℕ → ℕ → Decoder (List ℕ)
  | _, 0 => return []
  | i, n+1 => do
    let x ← readLe (word (start+word (width*i))) width
    let rest ← readEach start width (i+1) n
    return x::rest

/-- What follows the header: `k` ids and `count` halves, which take `payloadBytes` bytes. -/
def readBody (tooShort : ℕ → ℕ → String) (idsOff k payloadBytes count : ℕ) :
    Decoder (List ℕ × List ℕ) := do
  let payloadOff := word (idsOff+word (4*k))
  let payloadEnd := word (payloadOff+payloadBytes)
  let len ← length
  if len<payloadEnd then fail (.io .unexpectedEof (tooShort payloadEnd len))
  else do
    withCapacity k 4
    let ids ← readEach idsOff 4 0 k
    withCapacity count 2
    let payload ← readEach payloadOff 2 0 count
    return (ids,payload)

/-- A decoder on a frame: what it reserves, and what it returns. -/
def run (decoder : Decoder α) (buf : Slice) : List Reservation × Except Stop α :=
  ((decoder buf.bytes 0).1,(decoder buf.bytes 0).2.map Prod.fst)

end Decoder

/-- The bytes of a frame in a `Vec`, which has at most `isize::MAX` of them. -/
def vec (bytes : List UInt8) : Option (List UInt8) :=
  if isizeMax<bytes.length then none else some bytes

structure RouteExpertsRequest where
  requestId : UInt64
  layerIdx : UInt32
  dModel : UInt32
  expertIds : List UInt32
  hiddenStateF16 : List UInt16
  deriving DecidableEq, Repr

namespace RouteExpertsRequest

/-- Without a result, the assertion or the allocation panics. -/
def encode (self : RouteExpertsRequest) : Option (List UInt8) :=
  let k := self.expertIds.length
  let d := self.hiddenStateF16.length
  if d ≠ self.dModel.toNat then none
  else vec (Le.encode 8 self.requestId.toNat++Le.encode 4 self.layerIdx.toNat++
    Le.encode 4 self.dModel.toNat++Le.encode 4 (UInt32.ofNat k).toNat++
    Le.encodeAll 4 (self.expertIds.map UInt32.toNat)++
    Le.encodeAll 2 (self.hiddenStateF16.map UInt16.toNat))

def tooShort (need got : ℕ) : String :=
  s!"RouteExpertsRequest: frame too short — need {need} bytes, got {got}"

def decode : Decoder RouteExpertsRequest := do
  let len ← Decoder.length
  if len<20 then
    Decoder.fail (.io .unexpectedEof "RouteExpertsRequest: frame header is < 20 bytes")
  else do
    let requestId ← Decoder.readLe 0 8
    let layerIdx ← Decoder.readLe 8 4
    let dModel ← Decoder.readLe 12 4
    let k ← Decoder.readLe 16 4
    let body ← Decoder.readBody tooShort 20 k (word (2*dModel)) dModel
    return ⟨UInt64.ofNat requestId,UInt32.ofNat layerIdx,UInt32.ofNat dModel,
      body.1.map UInt32.ofNat,body.2.map UInt16.ofNat⟩

end RouteExpertsRequest

structure RouteExpertsResponse where
  requestId : UInt64
  dModel : UInt32
  expertIds : List UInt32
  ffnOutF16 : List UInt16
  deriving DecidableEq, Repr

namespace RouteExpertsResponse

def encode (self : RouteExpertsResponse) : Option (List UInt8) :=
  let k := self.expertIds.length
  let d := self.dModel.toNat
  if self.ffnOutF16.length ≠ word (k*d) then none
  else vec (Le.encode 8 self.requestId.toNat++Le.encode 4 self.dModel.toNat++
    Le.encode 4 (UInt32.ofNat k).toNat++Le.encodeAll 4 (self.expertIds.map UInt32.toNat)++
    Le.encodeAll 2 (self.ffnOutF16.map UInt16.toNat))

def tooShort (need got : ℕ) : String :=
  s!"RouteExpertsResponse: frame too short — need {need} bytes, got {got}"

def decode : Decoder RouteExpertsResponse := do
  let len ← Decoder.length
  if len<16 then
    Decoder.fail (.io .unexpectedEof "RouteExpertsResponse: frame header is < 16 bytes")
  else do
    let requestId ← Decoder.readLe 0 8
    let dModel ← Decoder.readLe 8 4
    let k ← Decoder.readLe 12 4
    let body ← Decoder.readBody tooShort 16 k (word (word (2*dModel)*k)) (word (dModel*k))
    return ⟨UInt64.ofNat requestId,UInt32.ofNat dModel,body.1.map UInt32.ofNat,
      body.2.map UInt16.ofNat⟩

end RouteExpertsResponse

end MicroExpertRouter.Rpc
