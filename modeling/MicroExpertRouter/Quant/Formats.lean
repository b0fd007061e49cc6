import Mathlib.Data.List.GetD
import Mathlib.Data.Nat.Bitwise
import MicroExpertRouter.Lib.Writes

/-! The block formats of GGML, one element of a block at a time. A number of two bytes is decoded by
a parameter; all others are exact. -/
namespace MicroExpertRouter.Quant

def byteAt (src : List UInt8) (i : ℕ) : UInt8 := src.getD i 0

/-- `src[start..start + len]`. -/
def part (src : List UInt8) (start len : ℕ) : List UInt8 := (src.drop start).take len

lemma byteAt_part {src : List UInt8} {start len i : ℕ} (h : i<len) :
    byteAt (part src start len) i = byteAt src (start+i) := by
  simp [byteAt, part, List.getElem?_take_of_lt h]

@[simp] lemma length_part (src : List UInt8) (start len : ℕ) :
    (part src start len).length = min len (src.length-start) := by
  simp [part]

lemma part_eq_map {src : List UInt8} {start len : ℕ} (h : start+len ≤ src.length) :
    part src start len = (List.range len).map fun i => byteAt src (start+i) := by
  apply List.ext_getElem
  · rw [length_part, List.length_map, List.length_range]
    omega
  · intro i hi _
    have hlen : i<len := by
      rw [length_part] at hi
      omega
    have hget : byteAt src (start+i) = src[start+i] := List.getD_eq_getElem _ _ (by omega)
    simp [part, hget]

def u16FromLeBytes (a b : UInt8) : UInt16 := a.toUInt16 ||| (b.toUInt16 <<< 8)

/-- The formats with a product on packed blocks. -/
inductive GgmlDType
  | q4_0
  | q4k
  | q5k
  | q6k
  | q8_0
  deriving DecidableEq, Repr

namespace GgmlDType

/-- Elements of a block. -/
def blockSize : GgmlDType → ℕ
  | q4_0 => 32
  | q4k => 256
  | q5k => 256
  | q6k => 256
  | q8_0 => 32

/-- Bytes of a block. -/
def typeSize : GgmlDType → ℕ
  | q4_0 => 18
  | q4k => 144
  | q5k => 176
  | q6k => 210
  | q8_0 => 34

lemma blockSize_pos (dtype : GgmlDType) : 0<dtype.blockSize := by
  cases dtype <;> decide

end GgmlDType

namespace Ggml
variable (half : UInt16 → ℚ) (block : List UInt8)

def low (b : UInt8) : ℕ := b.toNat % 16

def high (b : UInt8) : ℕ := b.toNat/16

/-- A byte in two's complement. -/
def signed (b : UInt8) : ℤ := if b.toNat<128 then b.toNat else b.toNat-256

/-- The number in two bytes. -/
def floatAt (i : ℕ) : ℚ := half (u16FromLeBytes (byteAt block i) (byteAt block (i+1)))

/-- The scale of a sub-block in the twelve bytes from the fifth one on: six bits in the first four,
or four bits and the two upper ones of an earlier byte. -/
def subScale (j : ℕ) : ℕ :=
  if j<4 then (byteAt block (4+j)).toNat % 64
  else (byteAt block (4+(j+4))).toNat % 16+16*((byteAt block (4+(j-4))).toNat/64)

/-- The minimum of a sub-block, likewise. -/
def subMin (j : ℕ) : ℕ :=
  if j<4 then (byteAt block (4+(j+4))).toNat % 64
  else (byteAt block (4+(j+4))).toNat/16+16*((byteAt block (4+j)).toNat/64)

/-- The nibble of an element of a K-block whose nibbles start at `start`. Of 64 elements the first
half has the low nibbles of 32 bytes, the second half the high ones. -/
def nibble (start n : ℕ) : ℕ :=
  if n % 64<32 then low (byteAt block (start+(32*(n/64)+n % 32)))
  else high (byteAt block (start+(32*(n/64)+n % 32)))

def q4_0 (n : ℕ) : ℚ :=
  let q : ℕ := if n<16 then low (byteAt block (2+n)) else high (byteAt block (2+(n-16)))
  floatAt half block 0*((q : ℚ)-8)

def q8_0 (n : ℕ) : ℚ := floatAt half block 0*signed (byteAt block (2+n))

def q4k (n : ℕ) : ℚ :=
  floatAt half block 0*subScale block (n/32)*nibble block 16 n-
    floatAt half block 2*subMin block (n/32)

def q5k (n : ℕ) : ℚ :=
  let fifth := (byteAt block (16+n % 32)).toNat/2^(n/32) % 2
  floatAt half block 0*subScale block (n/32)*(nibble block 48 n+16*fifth)-
    floatAt half block 2*subMin block (n/32)

/-- An element stands in one of four quarters of its half of the block. -/
def q6k (n : ℕ) : ℚ :=
  let quarter := n % 128/32
  let byte := byteAt block (64*(n/128)+(32*(quarter % 2)+n % 32))
  let upper := (byteAt block (128+(32*(n/128)+n % 32))).toNat/4^quarter % 4
  let scale := signed (byteAt block (192+(8*(n/128)+n % 32/16+2*quarter)))
  floatAt half block 208*scale*(((if quarter<2 then low byte else high byte)+16*upper : ℕ)-32)

/-- An element of a block. -/
def weight (dtype : GgmlDType) (n : ℕ) : ℚ :=
  match dtype with
  | .q4_0 => q4_0 half block n
  | .q4k => q4k half block n
  | .q5k => q5k half block n
  | .q6k => q6k half block n
  | .q8_0 => q8_0 half block n

end Ggml

section Bytes

lemma toNat_and_15 (b : UInt8) : (b &&& 0x0F).toNat = b.toNat % 16 := by
  rw [UInt8.toNat_and]
  exact Nat.and_two_pow_sub_one_eq_mod _ 4

lemma toNat_and_63 (b : UInt8) : (b &&& 0x3F).toNat = b.toNat % 64 := by
  rw [UInt8.toNat_and]
  exact Nat.and_two_pow_sub_one_eq_mod _ 6

lemma toNat_and_3 (b : UInt8) : (b &&& 0x03).toNat = b.toNat % 4 := by
  rw [UInt8.toNat_and]
  exact Nat.and_two_pow_sub_one_eq_mod _ 2

lemma toNat_shiftRight_4 (b : UInt8) : (b >>> 4).toNat = b.toNat/16 := by
  rw [UInt8.toNat_shiftRight]
  exact Nat.shiftRight_eq_div_pow _ 4

lemma toNat_shiftRight_2 (b : UInt8) : (b >>> 2).toNat = b.toNat/4 := by
  rw [UInt8.toNat_shiftRight]
  exact Nat.shiftRight_eq_div_pow _ 2

lemma toNat_shiftRight_6 (b : UInt8) : (b >>> 6).toNat = b.toNat/64 := by
  rw [UInt8.toNat_shiftRight]
  exact Nat.shiftRight_eq_div_pow _ 6

/-- Four bits below a few more. -/
lemma toNat_or_shiftLeft_4 {a b : UInt8} (ha : a.toNat<16) (hb : b.toNat<16) :
    (a ||| (b <<< 4)).toNat = a.toNat+16*b.toNat := by
  have hshift : (b <<< 4).toNat = 2^4*b.toNat := by
    rw [UInt8.toNat_shiftLeft]
    have hmod : (4 : UInt8).toNat % 8 = 4 := rfl
    rw [hmod, Nat.shiftLeft_eq, Nat.mod_eq_of_lt (by omega), Nat.mul_comm]
  rw [UInt8.toNat_or, hshift, Nat.or_comm, ← Nat.two_pow_add_eq_or_of_lt ha]
  omega

lemma toInt_toInt8 (b : UInt8) : b.toInt8.toInt = Ggml.signed b := by
  have hbits : b.toInt8.toInt = b.toBitVec.toInt := rfl
  have hnat : b.toBitVec.toNat = b.toNat := rfl
  unfold Ggml.signed
  rw [hbits, BitVec.toInt_eq_toNat_cond, hnat]
  split_ifs <;> omega

end Bytes

end MicroExpertRouter.Quant
