import MicroExpertRouter.Lib.BinaryFloat

/-! The conversions of `rpc.rs` between `f32` and the halves of the wire, on bit patterns. Both are
read as exact rationals, so that rounding is a statement about the nearest of them. -/
namespace MicroExpertRouter.Rpc
open BinaryFloat (Format roundBits)

def single : Format := ⟨23,8⟩

def half : Format := ⟨10,5⟩

/-- The `exp` and `new_exp` of the source are `i32`; no sum here leaves its range. -/
def f32ToF16Bits (bits : UInt32) : UInt16 :=
  let sign := (bits >>> 31 &&& 0x1).toUInt16
  let exp : ℤ := (bits >>> 23 &&& 0xFF).toNat
  let mant := bits &&& 0x7FFFFF
  if exp = 0xFF then
    let mant16 : UInt16 := if mant ≠ 0 then 0x200 else 0
    sign <<< 15 ||| (0x1F : UInt16) <<< 10 ||| mant16
  else
    let newExp := exp-127+15
    if newExp ≥ 0x1F then sign <<< 15 ||| (0x1F : UInt16) <<< 10
    else if newExp ≤ 0 then sign <<< 15
    else
      let roundBit := mant >>> 12 &&& 0x1
      let sticky := mant &&& 0xFFF ≠ 0
      let mant16 := (mant >>> 13).toUInt16
      if roundBit = 1 ∧ (sticky ∨ mant16 &&& 0x1 = 1) then
        let outMant := mant16+1
        if outMant = 0x400 then sign <<< 15 ||| UInt16.ofInt (newExp+1) <<< 10
        else sign <<< 15 ||| UInt16.ofInt newExp <<< 10 ||| outMant &&& 0x3FF
      else sign <<< 15 ||| UInt16.ofInt newExp <<< 10 ||| mant16 &&& 0x3FF

def f16BitsToF32 (bits : UInt16) : UInt32 :=
  let sign := (bits >>> 15 &&& 0x1).toUInt32
  let exp : ℤ := (bits >>> 10 &&& 0x1F).toNat
  let mant := (bits &&& 0x3FF).toUInt32
  if exp = 0 then sign <<< 31
  else if exp = 0x1F then
    let mant32 := if mant ≠ 0 then mant <<< 13 ||| 0x400000 else 0
    sign <<< 31 ||| (0xFF : UInt32) <<< 23 ||| mant32
  else
    let newExp := UInt32.ofInt (exp-15+127)
    sign <<< 31 ||| newExp <<< 23 ||| mant <<< 13

section Fields

/-- Fields side by side do not overlap. -/
lemma or_fields {a b s e m : ℕ} (hm : m<2^b) (h : e*2^b+m<2^a) :
    s <<< a ||| e <<< b ||| m = s*2^a+(e*2^b+m) := by
  rw [Nat.or_assoc, ← Nat.shiftLeft_add_eq_or_of_lt hm, Nat.shiftLeft_eq e,
    ← Nat.shiftLeft_add_eq_or_of_lt h, Nat.shiftLeft_eq]

/-- One of them. -/
lemma and_field (n k w : ℕ) : n >>> k &&& 2^w-1 = n/2^k % 2^w := by
  rw [Nat.and_two_pow_sub_one_eq_mod, Nat.shiftRight_eq_div_pow]

lemma toNat_field {x k mask : UInt32} {w : ℕ} (hmask : mask.toNat = 2^w-1) :
    (x >>> k &&& mask).toNat = x.toNat/2^(k.toNat % 32) % 2^w := by
  rw [UInt32.toNat_and, UInt32.toNat_shiftRight, hmask]
  exact and_field _ _ _

lemma toNat_halfField {x k mask : UInt16} {w : ℕ} (hmask : mask.toNat = 2^w-1) :
    (x >>> k &&& mask).toNat = x.toNat/2^(k.toNat % 16) % 2^w := by
  rw [UInt16.toNat_and, UInt16.toNat_shiftRight, hmask]
  exact and_field _ _ _

/-- The lowest field. -/
lemma toNat_low {x mask : UInt32} {w : ℕ} (hmask : mask.toNat = 2^w-1) :
    (x &&& mask).toNat = x.toNat % 2^w := by
  rw [UInt32.toNat_and, hmask, Nat.and_two_pow_sub_one_eq_mod]

lemma toNat_halfLow {x mask : UInt16} {w : ℕ} (hmask : mask.toNat = 2^w-1) :
    (x &&& mask).toNat = x.toNat % 2^w := by
  rw [UInt16.toNat_and, hmask, Nat.and_two_pow_sub_one_eq_mod]

lemma toNat_halfFields {s e m : UInt16} (hs : s.toNat ≤ 1) (he : e.toNat<2^5) (hm : m.toNat<2^10) :
    (s <<< 15 ||| e <<< 10 ||| m).toNat = s.toNat*2^15+(e.toNat*2^10+m.toNat) := by
  have hsplace : s.toNat <<< 15<2^16 := by rw [Nat.shiftLeft_eq]; omega
  have heplace : e.toNat <<< 10<2^16 := by rw [Nat.shiftLeft_eq]; omega
  rw [UInt16.toNat_or, UInt16.toNat_or, UInt16.toNat_shiftLeft, UInt16.toNat_shiftLeft]
  change s.toNat <<< 15 % 2^16 ||| e.toNat <<< 10 % 2^16 ||| m.toNat = _
  rw [Nat.mod_eq_of_lt hsplace, Nat.mod_eq_of_lt heplace]
  exact or_fields hm (by omega)

lemma toNat_singleFields {s e m : UInt32} (hs : s.toNat ≤ 1) (he : e.toNat<2^8) (hm : m.toNat<2^23) :
    (s <<< 31 ||| e <<< 23 ||| m).toNat = s.toNat*2^31+(e.toNat*2^23+m.toNat) := by
  have hsplace : s.toNat <<< 31<2^32 := by rw [Nat.shiftLeft_eq]; omega
  have heplace : e.toNat <<< 23<2^32 := by rw [Nat.shiftLeft_eq]; omega
  rw [UInt32.toNat_or, UInt32.toNat_or, UInt32.toNat_shiftLeft, UInt32.toNat_shiftLeft]
  change s.toNat <<< 31 % 2^32 ||| e.toNat <<< 23 % 2^32 ||| m.toNat = _
  rw [Nat.mod_eq_of_lt hsplace, Nat.mod_eq_of_lt heplace]
  exact or_fields hm (by omega)

end Fields

/-- A field with none below it. -/
lemma toNat_halfExponent {s e : UInt16} (hs : s.toNat ≤ 1) (he : e.toNat<2^5) :
    (s <<< 15 ||| e <<< 10).toNat = s.toNat*2^15+e.toNat*2^10 := by
  have h := toNat_halfFields (m := 0) hs he (by decide)
  rwa [UInt16.or_zero, UInt16.toNat_zero, Nat.add_zero] at h

/-- What becomes of the magnitude. -/
def narrow (q : ℕ) : ℕ :=
  if 255*2^23<q then 0x7E00
  else if 143*2^23 ≤ q then 0x7C00
  else if q<113*2^23 then 0
  else roundBits 13 (q-112*2^23)

lemma toNat_ofInt {n : ℕ} (h : n<2^16) : (UInt16.ofInt n).toNat = n := by
  unfold UInt16.ofInt
  rw [UInt16.toNat_ofNat']
  omega

section Narrowing
variable {s : UInt16} {m : UInt32} {e : ℕ}

/-- The last branches of the source: the round bit with the sticky ones is the comparison with one
half, and the carry of the mantissa goes into the exponent. -/
lemma toNat_rounded (hs : s.toNat ≤ 1) (hm : m.toNat<2^23) (he : e<31) :
    (if m >>> 12 &&& 0x1 = 1 ∧ (m &&& 0xFFF ≠ 0 ∨ (m >>> 13).toUInt16 &&& 0x1 = 1) then
      if (m >>> 13).toUInt16+1 = 0x400 then s <<< 15 ||| UInt16.ofInt ((e : ℤ)+1) <<< 10
      else s <<< 15 ||| UInt16.ofInt (e : ℤ) <<< 10 ||| (m >>> 13).toUInt16+1 &&& 0x3FF
    else s <<< 15 ||| UInt16.ofInt (e : ℤ) <<< 10 ||| (m >>> 13).toUInt16 &&& 0x3FF).toNat =
      s.toNat*2^15+roundBits 13 (e*2^23+m.toNat) := by
  have hround : (m >>> 12 &&& 0x1).toNat = m.toNat/2^12 % 2^1 := toNat_field rfl
  have hsticky : (m &&& 0xFFF).toNat = m.toNat % 2^12 := toNat_low rfl
  have hkept : (m >>> 13).toUInt16.toNat = m.toNat/2^13 := by
    rw [UInt32.toNat_toUInt16, UInt32.toNat_shiftRight]
    change m.toNat >>> 13 % 2^16 = _
    rw [Nat.shiftRight_eq_div_pow]
    omega
  generalize (m >>> 13).toUInt16 = kept at hkept ⊢
  have hodd : (kept &&& 0x1).toNat = kept.toNat % 2^1 := toNat_halfLow rfl
  have hnext : (kept+1).toNat = kept.toNat+1 := by
    rw [UInt16.toNat_add]
    change (kept.toNat+1) % 2^16 = _
    omega
  have hmask : ∀ x : UInt16, x.toNat<2^10 → (x &&& 0x3FF).toNat = x.toNat := by
    intro x hx
    exact (toNat_halfLow (w := 10) rfl).trans (Nat.mod_eq_of_lt hx)
  have hplace : (UInt16.ofInt (e : ℤ)).toNat = e := toNat_ofInt (by omega)
  have hplace' : (UInt16.ofInt ((e : ℤ)+1)).toNat = e+1 := toNat_ofInt (n := e+1) (by omega)
  have hcond : (m >>> 12 &&& 0x1 = 1 ∧ (m &&& 0xFFF ≠ 0 ∨ kept &&& 0x1 = 1)) ↔
      2^13<2*((e*2^23+m.toNat) % 2^13) ∨
        2*((e*2^23+m.toNat) % 2^13) = 2^13 ∧ (e*2^23+m.toNat)/2^13 % 2 = 1 := by
    rw [← UInt32.toNat_inj, hround, Ne, ← UInt32.toNat_inj, hsticky, ← UInt16.toNat_inj, hodd, hkept]
    change m.toNat/2^12 % 2^1 = 1 ∧ (¬ m.toNat % 2^12 = 0 ∨ m.toNat/2^13 % 2^1 = 1) ↔ _
    omega
  unfold roundBits
  by_cases hup : 2^13<2*((e*2^23+m.toNat) % 2^13) ∨
      2*((e*2^23+m.toNat) % 2^13) = 2^13 ∧ (e*2^23+m.toNat)/2^13 % 2 = 1
  · rw [if_pos (hcond.mpr hup), if_pos hup]
    by_cases hcarry : kept+1 = 0x400
    · have hfull : kept.toNat+1 = 2^10 := by rw [← hnext, hcarry]; rfl
      rw [if_pos hcarry, toNat_halfExponent hs (by omega), hplace']
      omega
    · have hfull : kept.toNat+1 ≠ 2^10 := by
        intro heq
        exact hcarry (UInt16.toNat_inj.mp (hnext.trans heq))
      have hlt : (kept+1).toNat<2^10 := by omega
      rw [if_neg hcarry, toNat_halfFields hs (by omega) (by rwa [hmask _ hlt]), hmask _ hlt, hplace,
        hnext]
      omega
  · have hlt : kept.toNat<2^10 := by omega
    rw [if_neg (mt hcond.mp hup), if_neg hup, toNat_halfFields hs (by omega) (by rwa [hmask _ hlt]),
      hmask _ hlt, hplace]
    omega

/-- The branches of the source, by the exponent. -/
lemma toNat_branches (hs : s.toNat ≤ 1) (hm : m.toNat<2^23) (he : e<2^8) :
    (if (e : ℤ) = 0xFF then
      s <<< 15 ||| (0x1F : UInt16) <<< 10 ||| (if m ≠ 0 then 0x200 else 0)
    else if (e : ℤ)-127+15 ≥ 0x1F then s <<< 15 ||| (0x1F : UInt16) <<< 10
    else if (e : ℤ)-127+15 ≤ 0 then s <<< 15
    else if m >>> 12 &&& 0x1 = 1 ∧ (m &&& 0xFFF ≠ 0 ∨ (m >>> 13).toUInt16 &&& 0x1 = 1) then
      if (m >>> 13).toUInt16+1 = 0x400 then s <<< 15 ||| UInt16.ofInt ((e : ℤ)-127+15+1) <<< 10
      else s <<< 15 ||| UInt16.ofInt ((e : ℤ)-127+15) <<< 10 ||| (m >>> 13).toUInt16+1 &&& 0x3FF
    else s <<< 15 ||| UInt16.ofInt ((e : ℤ)-127+15) <<< 10 ||| (m >>> 13).toUInt16 &&& 0x3FF).toNat =
      s.toNat*2^15+narrow (e*2^23+m.toNat) := by
  unfold narrow
  by_cases hspecial : (e : ℤ) = 0xFF
  · rw [if_pos hspecial]
    by_cases hzero : m = 0
    · rw [if_neg (not_not.mpr hzero), UInt16.or_zero, toNat_halfExponent hs (by decide), hzero,
        if_neg (by change ¬ 255*2^23<e*2^23+0; omega), if_pos (by omega)]
      rfl
    · have hpos : m.toNat ≠ 0 := fun heq => hzero (UInt32.toNat_inj.mp heq)
      rw [if_pos hzero, toNat_halfFields hs (by decide) (by decide), if_pos (by omega)]
      rfl
  have hnumber : ¬ 255*2^23<e*2^23+m.toNat := by omega
  rw [if_neg hspecial, if_neg hnumber]
  by_cases hover : (e : ℤ)-127+15 ≥ 0x1F
  · rw [if_pos hover, toNat_halfExponent hs (by decide), if_pos (by omega)]
    rfl
  have hbelow : ¬ 143*2^23 ≤ e*2^23+m.toNat := by omega
  rw [if_neg hover, if_neg hbelow]
  by_cases hunder : (e : ℤ)-127+15 ≤ 0
  · rw [if_pos hunder, if_pos (by omega)]
    have h := toNat_halfExponent (e := 0) hs (by decide)
    rw [UInt16.zero_shiftLeft, UInt16.or_zero] at h
    exact h
  · have hnew : (e : ℤ)-127+15 = (e-112 : ℕ) := by omega
    have hrest : e*2^23+m.toNat-112*2^23 = (e-112)*2^23+m.toNat := by omega
    have hnormal : ¬ e*2^23+m.toNat<113*2^23 := by omega
    rw [if_neg hunder, if_neg hnormal, hnew, hrest]
    exact toNat_rounded hs hm (by omega)

end Narrowing

theorem toNat_f32ToF16Bits (bits : UInt32) : (f32ToF16Bits bits).toNat =
    half.pack (single.negative bits.toNat) (narrow (single.unsigned bits.toNat)) := by
  have hlt := bits.toNat_lt
  have hsign : (bits >>> 31 &&& 0x1).toUInt16.toNat = bits.toNat/2^31 := by
    have hfield : (bits >>> 31 &&& 0x1).toNat = bits.toNat/2^31 % 2^1 := toNat_field rfl
    rw [UInt32.toNat_toUInt16, hfield]
    omega
  have hexp : (bits >>> 23 &&& 0xFF).toNat = bits.toNat/2^23 % 2^8 := toNat_field rfl
  have hmant : (bits &&& 0x7FFFFF).toNat = bits.toNat % 2^23 := toNat_low rfl
  have hpack : half.pack (single.negative bits.toNat) (narrow (single.unsigned bits.toNat)) =
      bits.toNat/2^31*2^15+narrow (bits.toNat % 2^31) := by
    rw [BinaryFloat.pack_eq, BinaryFloat.toNat_negative (by exact hlt)]
    rfl
  have hq : bits.toNat % 2^31 = bits.toNat/2^23 % 2^8*2^23+bits.toNat % 2^23 := by omega
  rw [hpack, hq, ← hsign, ← hmant]
  unfold f32ToF16Bits
  dsimp only
  rw [hexp]
  generalize (bits >>> 31 &&& 0x1).toUInt16 = s at hsign ⊢
  generalize bits &&& 0x7FFFFF = m at hmant ⊢
  have hs : s.toNat ≤ 1 := by omega
  have hm : m.toNat<2^23 := by omega
  have he : bits.toNat/2^23 % 2^8<2^8 := Nat.mod_lt _ (by decide)
  generalize bits.toNat/2^23 % 2^8 = e at he ⊢
  exact toNat_branches hs hm he

lemma toNat_f16BitsToF32 {bits : UInt16} (h : half.Normal bits.toNat) : (f16BitsToF32 bits).toNat =
    single.pack (half.negative bits.toNat) (half.unsigned bits.toNat*2^13+112*2^23) := by
  have hlt := bits.toNat_lt
  have hfinite : bits.toNat % 2^15<31*2^10 := h.1
  have hnormal : 2^10 ≤ bits.toNat % 2^15 := h.2
  have hsign : (bits >>> 15 &&& 0x1).toUInt32.toNat = bits.toNat/2^15 := by
    have hfield : (bits >>> 15 &&& 0x1).toNat = bits.toNat/2^15 % 2^1 := toNat_halfField rfl
    rw [UInt16.toNat_toUInt32, hfield]
    omega
  have hexp : (bits >>> 10 &&& 0x1F).toNat = bits.toNat/2^10 % 2^5 := toNat_halfField rfl
  have hmant : (bits &&& 0x3FF).toUInt32.toNat = bits.toNat % 2^10 := by
    rw [UInt16.toNat_toUInt32]
    exact toNat_halfLow rfl
  have hpack : single.pack (half.negative bits.toNat) (half.unsigned bits.toNat*2^13+112*2^23) =
      bits.toNat/2^15*2^31+(bits.toNat % 2^15*2^13+112*2^23) := by
    rw [BinaryFloat.pack_eq, BinaryFloat.toNat_negative (by exact hlt)]
    rfl
  have hq : bits.toNat % 2^15 = bits.toNat/2^10 % 2^5*2^10+bits.toNat % 2^10 := by omega
  rw [hq] at hfinite hnormal
  rw [hpack, hq, ← hsign, ← hmant]
  unfold f16BitsToF32
  dsimp only
  rw [hexp]
  rw [← hmant] at hfinite hnormal
  generalize (bits >>> 15 &&& 0x1).toUInt32 = s at hsign ⊢
  generalize (bits &&& 0x3FF).toUInt32 = m at hmant hfinite hnormal ⊢
  generalize bits.toNat/2^10 % 2^5 = e at hfinite hnormal ⊢
  have hm : m.toNat<2^10 := by omega
  have hnew : (UInt32.ofInt ((e : ℤ)-15+127)).toNat = e+112 := by
    unfold UInt32.ofInt
    rw [UInt32.toNat_ofNat']
    omega
  have hshift : (m <<< 13).toNat = m.toNat*2^13 := by
    rw [UInt32.toNat_shiftLeft]
    change m.toNat <<< 13 % 2^32 = _
    rw [Nat.shiftLeft_eq]
    omega
  rw [if_neg (by omega), if_neg (by omega),
    toNat_singleFields (by omega) (by omega) (by omega), hnew, hshift]
  omega

section Rounding
variable {q : ℕ} {a b bits : UInt32}

lemma narrow_normal (h : 113*2^23 ≤ q) (h' : q<143*2^23) : narrow q = roundBits 13 (q-112*2^23) := by
  unfold narrow
  rw [if_neg (by omega), if_neg (by omega), if_neg (by omega)]

lemma narrow_lt (h : 113*2^23 ≤ q) (h' : q<0x477FF000) : narrow q<half.infinity := by
  rw [narrow_normal h (by omega)]
  change roundBits 13 (q-112*2^23)<0x7C00
  unfold roundBits
  split_ifs <;> omega

lemma narrow_infinite (h : 0x477FF000 ≤ q) (h' : q ≤ single.infinity) : narrow q = half.infinity := by
  change q ≤ 255*2^23 at h'
  change narrow q = 0x7C00
  unfold narrow roundBits
  split_ifs <;> omega

lemma narrow_mono : Monotone narrow := by
  intro q r h
  have hround := BinaryFloat.roundBits_mono 13 (Nat.sub_le_sub_right h (112*2^23))
  have hbound := (BinaryFloat.div_le_roundBits 13 (q-112*2^23)).2
  unfold narrow
  split_ifs <;> omega

lemma narrow_lt_signPlace (q : ℕ) : narrow q<half.signPlace := by
  have hbound := (BinaryFloat.div_le_roundBits 13 (q-112*2^23)).2
  change narrow q<2^15
  unfold narrow
  split_ifs <;> omega

lemma unsigned_f32ToF16Bits (bits : UInt32) :
    half.unsigned (f32ToF16Bits bits).toNat = narrow (single.unsigned bits.toNat) := by
  rw [toNat_f32ToF16Bits, BinaryFloat.unsigned_pack (narrow_lt_signPlace _)]

lemma negative_f32ToF16Bits (bits : UInt32) :
    half.negative (f32ToF16Bits bits).toNat = single.negative bits.toNat := by
  rw [toNat_f32ToF16Bits, BinaryFloat.negative_pack (narrow_lt_signPlace _)]

/-- The least normal half. -/
lemma leastNormal_le (n : ℕ) : 2^(-14 : ℤ) ≤ |single.value n| ↔ 113*2^23 ≤ single.unsigned n := by
  have hvalue : single.magnitude (113*2^23) = 2^(-14 : ℤ) := by
    norm_num [Format.magnitude, Format.ulp, Format.bias, single]
  rw [BinaryFloat.abs_value, ← hvalue, BinaryFloat.magnitude_strictMono.le_iff_le]

/-- Half way between the greatest half and the next power of two. -/
lemma overflow_le (n : ℕ) : 65520 ≤ |single.value n| ↔ 0x477FF000 ≤ single.unsigned n := by
  have hvalue : single.magnitude 0x477FF000 = 65520 := by
    norm_num [Format.magnitude, Format.ulp, Format.bias, single]
  rw [BinaryFloat.abs_value, ← hvalue, BinaryFloat.magnitude_strictMono.le_iff_le]

/-- Thirteen bits fewer, and the exponents 112 further down. -/
lemma magnitude_single (h : 2^23 ≤ q) : single.magnitude (q+112*2^23) = half.magnitude (q/2^13)+
    (q % 2^13 : ℕ)/2^13*(half.magnitude (q/2^13+1)-half.magnitude (q/2^13)) :=
  @BinaryFloat.magnitude_narrow single half 13 112 q rfl rfl h

/-- The nearest half, for what is neither too small for a normal half nor beyond the greatest one. -/
theorem f32ToF16Bits_nearest (hlow : 113*2^23 ≤ single.unsigned bits.toNat)
    (hhigh : single.unsigned bits.toNat<0x477FF000) :
    half.NearestEven (single.value bits.toNat) (f32ToF16Bits bits).toNat := by
  have hle := (leastNormal_le _).mpr hlow
  rw [BinaryFloat.abs_value] at hle
  rw [toNat_f32ToF16Bits, Format.value]
  generalize single.unsigned bits.toNat = q at hlow hhigh hle ⊢
  have hround := narrow_normal hlow (by omega)
  have hplace := @magnitude_single (q-112*2^23) (by omega)
  rw [Nat.sub_add_cancel (by omega)] at hplace
  have hnear := BinaryFloat.roundBits_nearest BinaryFloat.magnitude_strictMono hplace
  rw [← hround] at hnear
  refine BinaryFloat.nearestEven_pack rfl (narrow_lt hlow hhigh) (BinaryFloat.magnitude_nonneg q)
    hnear ?_
  -- the least subnormal half is nearer than zero
  have hleast : half.magnitude 1 = 2^(-24 : ℤ) := by
    norm_num [Format.magnitude, Format.ulp, Format.bias, half]
  have hone : |half.magnitude 1-single.magnitude q|<single.magnitude q := by
    have hpos : (0 : ℚ)<2^(-24 : ℤ) := by norm_num
    have hbelow : (2 : ℚ)^(-24 : ℤ) ≤ 2^(-14 : ℤ) := by norm_num
    rw [hleast, abs_sub_comm, abs_of_nonneg (by linarith)]
    linarith
  exact (hnear 1).1.trans_lt hone

/-- A normal half is a number of the wider format, which is rounded back to it. -/
theorem f16BitsToF32_exact {bits : UInt16} (h : half.Normal bits.toNat) :
    single.Finite (f16BitsToF32 bits).toNat ∧
      single.value (f16BitsToF32 bits).toNat = half.value bits.toNat ∧
      f32ToF16Bits (f16BitsToF32 bits) = bits := by
  have hu : 2^10 ≤ half.unsigned bits.toNat ∧ half.unsigned bits.toNat<31*2^10 := ⟨h.2,h.1⟩
  have hlt : half.unsigned bits.toNat*2^13+112*2^23<single.infinity := by
    change _<255*2^23
    omega
  have hplace := hlt.trans BinaryFloat.infinity_lt
  have hvalue : single.magnitude (half.unsigned bits.toNat*2^13+112*2^23) =
      half.magnitude (half.unsigned bits.toNat) := by
    rw [magnitude_single (by omega), Nat.mul_mod_left, Nat.mul_div_cancel _ (Nat.two_pow_pos 13),
      Nat.cast_zero, zero_div, zero_mul, add_zero]
  rw [Format.Finite, ← UInt16.toNat_inj, toNat_f32ToF16Bits, toNat_f16BitsToF32 h,
    BinaryFloat.value_pack hplace, BinaryFloat.unsigned_pack hplace,
    BinaryFloat.negative_pack hplace, hvalue]
  refine ⟨hlt,rfl,?_⟩
  have hback : narrow (half.unsigned bits.toNat*2^13+112*2^23) = half.unsigned bits.toNat := by
    rw [narrow_normal (by omega) (by omega)]
    unfold roundBits
    split_ifs <;> omega
  rw [hback]
  exact BinaryFloat.pack_unsigned bits.toNat_lt

end Rounding

def packHiddenState (hiddenF32 : List UInt32) : List UInt16 := hiddenF32.map f32ToF16Bits

def unpackHiddenState (hiddenF16 : List UInt16) : List UInt32 := hiddenF16.map f16BitsToF32

theorem packHiddenState_unpackHiddenState {hidden : List UInt16}
    (h : ∀ bits ∈ hidden, half.Normal bits.toNat) :
    packHiddenState (unpackHiddenState hidden) = hidden := by
  have hback : ∀ bits ∈ hidden, (f32ToF16Bits ∘ f16BitsToF32) bits = id bits :=
    fun bits hbits => (f16BitsToF32_exact (h bits hbits)).2.2
  unfold packHiddenState unpackHiddenState
  rw [List.map_map, List.map_congr_left hback, List.map_id]

/-- The conversion to halves rounds to the nearest, flushes what is too small and keeps infinities,
NaNs and the order; that from halves is exact on normal ones. -/
theorem f32ToF16Bits_correctlyRounded :
    (∀ bits : UInt32, single.Finite bits.toNat →
      (2^(-14 : ℤ) ≤ |single.value bits.toNat| → |single.value bits.toNat|<65520 →
        half.NearestEven (single.value bits.toNat) (f32ToF16Bits bits).toNat) ∧
      (65520 ≤ |single.value bits.toNat| → half.IsInfinite (f32ToF16Bits bits).toNat ∧
        half.negative (f32ToF16Bits bits).toNat = single.negative bits.toNat) ∧
      (|single.value bits.toNat|<2^(-14 : ℤ) → half.unsigned (f32ToF16Bits bits).toNat = 0 ∧
        half.negative (f32ToF16Bits bits).toNat = single.negative bits.toNat)) ∧
    (∀ bits : UInt32, single.IsInfinite bits.toNat → half.IsInfinite (f32ToF16Bits bits).toNat ∧
      half.negative (f32ToF16Bits bits).toNat = single.negative bits.toNat) ∧
    (∀ bits : UInt32, single.IsNan bits.toNat → half.IsNan (f32ToF16Bits bits).toNat) ∧
    (∀ a b : UInt32, ¬ single.IsNan a.toNat → ¬ single.IsNan b.toNat →
      single.extended a.toNat ≤ single.extended b.toNat →
      half.extended (f32ToF16Bits a).toNat ≤ half.extended (f32ToF16Bits b).toNat) ∧
    ∀ bits : UInt16, half.Normal bits.toNat → single.Finite (f16BitsToF32 bits).toNat ∧
      single.value (f16BitsToF32 bits).toNat = half.value bits.toNat ∧
      f32ToF16Bits (f16BitsToF32 bits) = bits := by
  refine ⟨fun bits hfinite => ?_,fun bits hinf => ?_,fun bits hnan => ?_,
    fun a b ha hb h => ?_,fun bits h => ?_⟩
  · rw [← not_le, ← not_le, leastNormal_le, overflow_le, not_le, not_le]
    refine ⟨f32ToF16Bits_nearest,fun hover => ?_,fun hunder => ?_⟩
    · rw [Format.IsInfinite, unsigned_f32ToF16Bits]
      exact ⟨narrow_infinite hover hfinite.le,negative_f32ToF16Bits bits⟩
    · rw [unsigned_f32ToF16Bits]
      refine ⟨?_,negative_f32ToF16Bits bits⟩
      unfold narrow
      rw [if_neg (by omega), if_neg (by omega), if_pos hunder]
  · rw [Format.IsInfinite, unsigned_f32ToF16Bits]
    rw [Format.IsInfinite] at hinf
    exact ⟨narrow_infinite (hinf ▸ by decide) hinf.le,negative_f32ToF16Bits bits⟩
  · rw [Format.IsNan, unsigned_f32ToF16Bits]
    have hlarge : 255*2^23<single.unsigned bits.toNat := hnan
    unfold narrow
    rw [if_pos hlarge]
    decide
  · have hkeep : ∀ x : UInt32, ¬ single.IsNan x.toNat → ¬ half.IsNan (f32ToF16Bits x).toNat := by
      intro x hx
      rw [Format.IsNan, not_lt] at hx ⊢
      rw [unsigned_f32ToF16Bits]
      exact (narrow_mono hx).trans_eq (narrow_infinite (by decide) le_rfl)
    rw [BinaryFloat.extended_le_iff (by decide) ha hb] at h
    rw [BinaryFloat.extended_le_iff (by decide) (hkeep a ha) (hkeep b hb), toNat_f32ToF16Bits,
      toNat_f32ToF16Bits]
    exact BinaryFloat.rank_pack_mono narrow_mono rfl narrow_lt_signPlace h
  · exact f16BitsToF32_exact h

/-- A tie between two halves, minus 65520, a number below the normal halves, and the least NaN. -/
theorem f32ToF16Bits_correctlyRounded_tie :
    half.NearestEven (single.value 0x3F803000) 0x3C02 ∧
    half.IsInfinite (f32ToF16Bits 0xC77FF000).toNat ∧
    half.unsigned (f32ToF16Bits 0xB87FFFFF).toNat = 0 ∧
    half.IsNan (f32ToF16Bits 0x7F800001).toNat ∧
    half.extended (f32ToF16Bits 0xC77FF000).toNat ≤ half.extended (f32ToF16Bits 0x3F803000).toNat ∧
    single.value (f16BitsToF32 0x3C02).toNat = half.value 0x3C02 := by
  obtain ⟨hfinite,-,hnan,hmono,hback⟩ := f32ToF16Bits_correctlyRounded
  refine ⟨(hfinite 0x3F803000 (by decide)).1 ?_ ?_,((hfinite 0xC77FF000 (by decide)).2.1 ?_).1,
    ((hfinite 0xB87FFFFF (by decide)).2.2 ?_).1,hnan 0x7F800001 (by decide),
    hmono 0xC77FF000 0x3F803000 (by decide) (by decide)
      ((BinaryFloat.extended_le_iff (by decide) (by decide) (by decide)).mpr (by decide)),
    (hback 0x3C02 (by decide)).2.1⟩
  · exact (leastNormal_le _).mpr (by decide)
  · exact not_le.mp (mt (overflow_le _).mp (by decide))
  · exact (overflow_le _).mpr (by decide)
  · exact not_le.mp (mt (leastNormal_le _).mp (by decide))

end MicroExpertRouter.Rpc
