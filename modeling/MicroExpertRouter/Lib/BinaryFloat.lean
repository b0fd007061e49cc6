import Mathlib.Tactic
import Mathlib.Order.WithBot
import Mathlib.Data.Rat.Defs

/-! Patterns of binary floating-point formats as exact rationals, and rounding to the nearest value
with ties to even. The pattern of a magnitude has the exponent above the mantissa, so that the
magnitudes of one pattern after the other grow, from one exponent to the next too. -/
namespace MicroExpertRouter.BinaryFloat

/-- The widths of the mantissa and of the exponent, which stand below a sign bit. -/
structure Format where
  manBits : ℕ
  expBits : ℕ

namespace Format
variable (fmt : Format)

def bias : ℕ := 2^(fmt.expBits-1)-1

/-- The weight of the lowest bit of the mantissa. -/
def ulp (p : ℕ) : ℚ := 2^((max (p/2^fmt.manBits) 1 : ℕ)-(fmt.bias+fmt.manBits : ℕ) : ℤ)

/-- The magnitude of a pattern without a sign. -/
def magnitude (p : ℕ) : ℚ :=
  ((if p/2^fmt.manBits = 0 then 0 else 2^fmt.manBits)+p % 2^fmt.manBits : ℕ)*fmt.ulp p

/-- The pattern of infinity; that of a number is below and that of a NaN above. -/
def infinity : ℕ := (2^fmt.expBits-1)*2^fmt.manBits

def signPlace : ℕ := 2^(fmt.expBits+fmt.manBits)

/-- The sign of a pattern. -/
def negative (bits : ℕ) : Bool := fmt.signPlace ≤ bits

/-- The pattern without its sign. -/
def unsigned (bits : ℕ) : ℕ := bits % fmt.signPlace

def pack (negative : Bool) (p : ℕ) : ℕ := if negative then fmt.signPlace+p else p

def Finite (bits : ℕ) : Prop := fmt.unsigned bits<fmt.infinity

def IsInfinite (bits : ℕ) : Prop := fmt.unsigned bits = fmt.infinity

def IsNan (bits : ℕ) : Prop := fmt.infinity<fmt.unsigned bits

/-- Finite, and neither zero nor subnormal. -/
def Normal (bits : ℕ) : Prop := fmt.Finite bits ∧ 2^fmt.manBits ≤ fmt.unsigned bits

instance (bits : ℕ) : Decidable (fmt.Finite bits) := inferInstanceAs (Decidable (_<_))

instance (bits : ℕ) : Decidable (fmt.IsInfinite bits) := inferInstanceAs (Decidable (_ = _))

instance (bits : ℕ) : Decidable (fmt.IsNan bits) := inferInstanceAs (Decidable (_<_))

instance (bits : ℕ) : Decidable (fmt.Normal bits) := inferInstanceAs (Decidable (_ ∧ _))

def withSign (negative : Bool) (y : ℚ) : ℚ := if negative then -y else y

/-- The number that a finite pattern stands for. -/
def value (bits : ℕ) : ℚ := withSign (fmt.negative bits) (fmt.magnitude (fmt.unsigned bits))

/-- The magnitudes grow with their patterns, and so do the values with these. -/
def rank (bits : ℕ) : ℤ := if fmt.negative bits then -fmt.unsigned bits else fmt.unsigned bits

/-- The value of any pattern but those of a NaN. -/
def extended (bits : ℕ) : WithBot (WithTop ℚ) :=
  if fmt.unsigned bits = fmt.infinity then (if fmt.negative bits then ⊥ else (⊤ : WithTop ℚ))
  else ((fmt.value bits : ℚ) : WithTop ℚ)

/-- The finite pattern nearest to a number, the even one of two. -/
structure NearestEven (x : ℚ) (bits : ℕ) : Prop where
  finite : fmt.Finite bits
  nearest : ∀ other, fmt.Finite other → |fmt.value bits-x| ≤ |fmt.value other-x|
  even : ∀ other, fmt.Finite other → |fmt.value other-x| = |fmt.value bits-x| →
    fmt.value other = fmt.value bits ∨ bits % 2 = 0

end Format

/-- The quotient and the remainder of the next number. -/
lemma succ_div_mod {M : ℕ} (hM : 0<M) (p : ℕ) :
    p % M+1<M ∧ (p+1)/M = p/M ∧ (p+1) % M = p % M+1 ∨
      p % M+1 = M ∧ (p+1)/M = p/M+1 ∧ (p+1) % M = 0 := by
  have hmod := Nat.mod_lt p hM
  have hp : p+1 = p % M+1+p/M*M := by
    have h := Nat.mod_add_div' p M
    omega
  have hdiv : (p+1)/M = (p % M+1)/M+p/M := by
    rw [hp, Nat.add_mul_div_right _ _ hM]
  have hrem : (p+1) % M = (p % M+1) % M := by
    rw [hp, Nat.add_mul_mod_self_right]
  rw [hdiv, hrem]
  obtain hlt | hlast := Nat.lt_or_eq_of_le (Nat.succ_le_of_lt hmod)
  · left
    rw [Nat.div_eq_of_lt hlt, Nat.mod_eq_of_lt hlt, Nat.zero_add]
    exact ⟨hlt,rfl,rfl⟩
  · right
    have hnext : p % M+1 = M := hlast
    rw [hnext, Nat.div_self hM, Nat.mod_self, Nat.add_comm]
    exact ⟨rfl,rfl,rfl⟩

section Magnitudes
variable {fmt : Format}

lemma ulp_pos (p : ℕ) : 0<fmt.ulp p := by
  unfold Format.ulp
  positivity

@[simp] lemma magnitude_zero : fmt.magnitude 0 = 0 := by
  simp [Format.magnitude]

/-- From one pattern to the next, also where the exponent grows. -/
theorem magnitude_succ (p : ℕ) : fmt.magnitude (p+1) = fmt.magnitude p+fmt.ulp p := by
  unfold Format.magnitude Format.ulp
  obtain ⟨-,hdiv,hmod⟩ | ⟨hlast,hdiv,hmod⟩ := succ_div_mod (Nat.two_pow_pos fmt.manBits) p
  · rw [hdiv, hmod]
    push_cast
    ring
  · rw [hdiv, hmod]
    have hsum : ((p % 2^fmt.manBits : ℕ) : ℚ)+1 = 2^fmt.manBits := by
      exact_mod_cast hlast
    generalize p/2^fmt.manBits = e
    obtain rfl | hexp := Nat.eq_zero_or_pos e
    · simp only [Nat.zero_add, Nat.max_self, Nat.zero_max, if_true, one_ne_zero, if_false,
        Nat.add_zero]
      push_cast
      rw [← hsum]
      ring
    · -- the mantissa starts anew, with twice the weight
      have htwice : ((max (e+1) 1 : ℕ) : ℤ)-(fmt.bias+fmt.manBits : ℕ) =
          ((max e 1 : ℕ) : ℤ)-(fmt.bias+fmt.manBits : ℕ)+1 := by
        have hmax : max (e+1) 1 = e+1 := by omega
        have hmax' : max e 1 = e := by omega
        rw [hmax, hmax']
        push_cast
        ring
      rw [htwice, zpow_add_one₀ two_ne_zero, if_neg (Nat.succ_ne_zero e), if_neg hexp.ne']
      generalize (2 : ℚ)^(((max e 1 : ℕ) : ℤ)-(fmt.bias+fmt.manBits : ℕ)) = u
      push_cast
      rw [← hsum]
      ring

lemma magnitude_strictMono : StrictMono fmt.magnitude := by
  refine strictMono_nat_of_lt_succ fun p => ?_
  rw [magnitude_succ]
  linarith [@ulp_pos fmt p]

lemma magnitude_nonneg (p : ℕ) : 0 ≤ fmt.magnitude p := by
  rw [← @magnitude_zero fmt]
  exact magnitude_strictMono.monotone (Nat.zero_le p)

end Magnitudes

section Rounding

/-- A pattern without its lowest bits, rounded to the nearest with ties to even. -/
def roundBits (d p : ℕ) : ℕ :=
  if 2^d<2*(p % 2^d) ∨ 2*(p % 2^d) = 2^d ∧ p/2^d % 2 = 1 then p/2^d+1 else p/2^d

variable {f : ℕ → ℚ} {p j : ℕ} {y : ℚ}

/-- Between two values in a row no other one is nearer than the lower of them, if it is not further
away than the upper one. -/
lemma nearest_lower (hf : StrictMono f) (hlow : f p ≤ y) (h : y-f p ≤ f (p+1)-y) (j : ℕ) :
    |f p-y| ≤ |f j-y| ∧ (|f j-y| = |f p-y| → j = p ∨ y-f p = f (p+1)-y) := by
  have hp : |f p-y| = y-f p := by rw [abs_sub_comm, abs_of_nonneg (sub_nonneg.mpr hlow)]
  obtain hj | hj := Nat.lt_or_ge p j
  · have hnext : f (p+1) ≤ f j := hf.monotone hj
    have habs : |f j-y| = f j-y := abs_of_nonneg (by linarith)
    rw [hp, habs]
    exact ⟨by linarith,fun heq => .inr (by linarith)⟩
  · have hle : f j ≤ f p := hf.monotone hj
    have habs : |f j-y| = y-f j := by rw [abs_sub_comm, abs_of_nonneg (by linarith)]
    rw [hp, habs]
    exact ⟨by linarith,fun heq => .inl (hf.injective (by linarith))⟩

/-- Nor than the upper of them. -/
lemma nearest_upper (hf : StrictMono f) (hhigh : y ≤ f (p+1)) (h : f (p+1)-y ≤ y-f p) (j : ℕ) :
    |f (p+1)-y| ≤ |f j-y| ∧ (|f j-y| = |f (p+1)-y| → j = p+1 ∨ y-f p = f (p+1)-y) := by
  have hp : |f (p+1)-y| = f (p+1)-y := abs_of_nonneg (sub_nonneg.mpr hhigh)
  obtain hj | hj := Nat.lt_or_ge p j
  · have hnext : f (p+1) ≤ f j := hf.monotone hj
    have habs : |f j-y| = f j-y := abs_of_nonneg (by linarith)
    rw [hp, habs]
    exact ⟨by linarith,fun heq => .inl (hf.injective (by linarith))⟩
  · have hle : f j ≤ f p := hf.monotone hj
    have habs : |f j-y| = y-f j := by rw [abs_sub_comm, abs_of_nonneg (by linarith)]
    rw [hp, habs]
    exact ⟨by linarith,fun heq => .inr (by linarith)⟩

/-- Rounding a pattern rounds what stands between two magnitudes in proportion to its lowest bits. -/
theorem roundBits_nearest (hf : StrictMono f) {d q : ℕ}
    (hy : y = f (q/2^d)+(q % 2^d : ℕ)/2^d*(f (q/2^d+1)-f (q/2^d))) (j : ℕ) :
    |f (roundBits d q)-y| ≤ |f j-y| ∧
      (|f j-y| = |f (roundBits d q)-y| → j = roundBits d q ∨ roundBits d q % 2 = 0) := by
  have hgap : 0<f (q/2^d+1)-f (q/2^d) := sub_pos.mpr (hf (Nat.lt_succ_self _))
  have hpow : (0 : ℚ)<2^d := by positivity
  have hmod := Nat.mod_lt q (Nat.two_pow_pos d)
  unfold roundBits
  generalize q/2^d = p at hy hgap ⊢
  generalize q % 2^d = r at hy hmod ⊢
  have hside : y-f p-(f (p+1)-y) = (2*(r : ℚ)-2^d)*((f (p+1)-f p)/2^d) := by
    rw [hy]
    field_simp
    ring
  have hscale : 0<(f (p+1)-f p)/2^d := div_pos hgap hpow
  have hshare : 0 ≤ (r : ℚ)/2^d := by positivity
  have hshare' : (r : ℚ)/2^d<1 := (div_lt_one hpow).mpr (by exact_mod_cast hmod)
  have hlow : f p ≤ y := by nlinarith
  have hhigh : y ≤ f (p+1) := by nlinarith
  have htwice : y-f p = f (p+1)-y → 2*r = 2^d := by
    intro hboth
    have hzero : (2*(r : ℚ)-2^d)*((f (p+1)-f p)/2^d) = 0 := by linarith
    have hr : 2*(r : ℚ) = 2^d := sub_eq_zero.mp ((mul_eq_zero.mp hzero).resolve_right hscale.ne')
    exact_mod_cast hr
  by_cases hup : 2^d<2*r ∨ 2*r = 2^d ∧ p % 2 = 1
  · rw [if_pos hup]
    have hle : (2 : ℚ)^d ≤ 2*(r : ℚ) := by
      have hle : 2^d ≤ 2*r := by omega
      exact_mod_cast hle
    have hnear : f (p+1)-y ≤ y-f p := by
      have hnonneg := mul_nonneg (sub_nonneg.mpr hle) hscale.le
      linarith
    obtain ⟨hnearest,htie⟩ := nearest_upper hf hhigh hnear j
    refine ⟨hnearest,fun heq => (htie heq).imp_right fun hboth => ?_⟩
    have hhalf := htwice hboth
    omega
  · rw [if_neg hup]
    have hle : 2*(r : ℚ) ≤ 2^d := by
      have hle : 2*r ≤ 2^d := by omega
      exact_mod_cast hle
    have hnear : y-f p ≤ f (p+1)-y := by
      have hnonpos := mul_nonpos_of_nonpos_of_nonneg (sub_nonpos.mpr hle) hscale.le
      linarith
    obtain ⟨hnearest,htie⟩ := nearest_lower hf hlow hnear j
    refine ⟨hnearest,fun heq => (htie heq).imp_right fun hboth => ?_⟩
    have hhalf := htwice hboth
    omega

lemma roundBits_mono (d : ℕ) : Monotone (roundBits d) := by
  refine monotone_nat_of_le_succ fun q => ?_
  unfold roundBits
  obtain ⟨-,hdiv,hmod⟩ | ⟨-,hdiv,hmod⟩ := succ_div_mod (Nat.two_pow_pos d) q
  · rw [hdiv, hmod]
    split_ifs <;> omega
  · rw [hdiv, hmod]
    split_ifs <;> omega

lemma div_le_roundBits (d q : ℕ) : q/2^d ≤ roundBits d q ∧ roundBits d q ≤ q/2^d+1 := by
  unfold roundBits
  split_ifs <;> omega

end Rounding

section Narrowing

/-- A magnitude of a format with more bits stands between two of a narrower one, in proportion to the
bits that the narrower one lacks. -/
theorem magnitude_narrow {fine coarse : Format} {d shift q : ℕ}
    (hman : fine.manBits = coarse.manBits+d) (hbias : fine.bias = coarse.bias+shift)
    (hq : 2^fine.manBits ≤ q) :
    fine.magnitude (q+shift*2^fine.manBits) = coarse.magnitude (q/2^d)+
      (q % 2^d : ℕ)/2^d*(coarse.magnitude (q/2^d+1)-coarse.magnitude (q/2^d)) := by
  have hpos := Nat.two_pow_pos fine.manBits
  have hexp : (q+shift*2^fine.manBits)/2^fine.manBits = q/2^fine.manBits+shift :=
    Nat.add_mul_div_right _ _ hpos
  have hmod : (q+shift*2^fine.manBits) % 2^fine.manBits = q % 2^fine.manBits :=
    Nat.add_mul_mod_self_right _ _ _
  have hsplit : 2^fine.manBits = 2^d*2^coarse.manBits := by
    rw [hman, Nat.pow_add, Nat.mul_comm]
  have hexp' : q/2^d/2^coarse.manBits = q/2^fine.manBits := by
    rw [Nat.div_div_eq_div_mul, hsplit]
  have hmod' : q % 2^fine.manBits = q % 2^d+2^d*(q/2^d % 2^coarse.manBits) := by
    rw [hsplit, Nat.mod_mul]
  have he : 0<q/2^fine.manBits := Nat.div_pos hq hpos
  rw [magnitude_succ, add_sub_cancel_left]
  unfold Format.magnitude Format.ulp
  rw [hexp, hmod, hexp', hmod', if_neg (by omega), if_neg he.ne', hbias]
  generalize q/2^fine.manBits = e at he
  rw [hman]
  have hmax : max e 1 = e := by omega
  have hmax' : max (e+shift) 1 = e+shift := by omega
  have hscale : (2 : ℚ)^(((e : ℕ) : ℤ)-(coarse.bias+coarse.manBits : ℕ)) =
      2^(((e+shift : ℕ) : ℤ)-(coarse.bias+shift+(coarse.manBits+d) : ℕ))*2^d := by
    rw [← zpow_natCast, ← zpow_add₀ two_ne_zero]
    congr 1
    push_cast
    ring
  rw [hmax, hmax', hscale]
  have hpow : (2 : ℚ)^d ≠ 0 := by positivity
  push_cast
  rw [pow_add]
  field_simp
  ring

end Narrowing

section Signs
variable {fmt : Format} {s : Bool} {p a b : ℕ} {x y : ℚ}

open Format (withSign)

lemma infinity_lt : fmt.infinity<fmt.signPlace := by
  have hpos := Nat.two_pow_pos fmt.manBits
  have hexp := Nat.two_pow_pos fmt.expBits
  unfold Format.infinity Format.signPlace
  rw [Nat.pow_add]
  exact Nat.mul_lt_mul_of_pos_right (by omega) hpos

lemma pack_eq (s : Bool) (p : ℕ) : fmt.pack s p = s.toNat*fmt.signPlace+p := by
  cases s <;> simp [Format.pack]

lemma toNat_negative (ha : a<2*fmt.signPlace) :
    (fmt.negative a).toNat = a/fmt.signPlace := by
  have hpos : 0<fmt.signPlace := Nat.two_pow_pos _
  unfold Format.negative
  by_cases h : fmt.signPlace ≤ a
  · have hquot : a/fmt.signPlace = 1 := Nat.div_eq_of_lt_le (by omega) (by omega)
    rw [decide_eq_true h, hquot]
    rfl
  · rw [decide_eq_false h, Nat.div_eq_of_lt (not_le.mp h)]
    rfl

lemma pack_unsigned (ha : a<2*fmt.signPlace) :
    fmt.pack (fmt.negative a) (fmt.unsigned a) = a := by
  rw [pack_eq, toNat_negative ha]
  exact Nat.div_add_mod' a _

lemma unsigned_pack (hp : p<fmt.signPlace) : fmt.unsigned (fmt.pack s p) = p := by
  unfold Format.unsigned Format.pack
  cases s
  · exact Nat.mod_eq_of_lt hp
  · simp [Nat.mod_eq_of_lt hp]

lemma negative_pack (hp : p<fmt.signPlace) : fmt.negative (fmt.pack s p) = s := by
  unfold Format.negative Format.pack
  cases s
  · simpa using hp
  · simp

lemma value_pack (hp : p<fmt.signPlace) :
    fmt.value (fmt.pack s p) = withSign s (fmt.magnitude p) := by
  rw [Format.value, negative_pack hp, unsigned_pack hp]

lemma abs_withSign (s : Bool) (y : ℚ) : |withSign s y| = |y| := by
  cases s
  · rfl
  · exact abs_neg y

lemma abs_value (a : ℕ) : |fmt.value a| = fmt.magnitude (fmt.unsigned a) := by
  rw [Format.value, abs_withSign, abs_of_nonneg (magnitude_nonneg _)]

lemma abs_withSign_sub (s : Bool) (x y : ℚ) : |withSign s x-withSign s y| = |x-y| := by
  cases s
  · rfl
  · exact (abs_sub_comm _ _).trans (congrArg _ (by simp [withSign]; ring))

/-- A number of the other sign is further away than zero. -/
lemma le_abs_withSign_sub {s s' : Bool} (hs : s' ≠ s) (hx : 0 ≤ x) (hy : 0 ≤ y) :
    y ≤ |withSign s' x-withSign s y| := by
  cases s <;> cases s'
  · exact absurd rfl hs
  · have heq : withSign true x-withSign false y = -(x+y) := by simp [withSign]; ring
    rw [heq, abs_neg, abs_of_nonneg (by linarith)]
    linarith
  · have heq : withSign false x-withSign true y = x+y := by simp [withSign]
    rw [heq, abs_of_nonneg (by linarith)]
    linarith
  · exact absurd rfl hs

/-- The nearest magnitude with the sign of the number. -/
theorem nearestEven_pack (heven : fmt.signPlace % 2 = 0) (hp : p<fmt.infinity) (hy : 0 ≤ y)
    (hnear : ∀ j, |fmt.magnitude p-y| ≤ |fmt.magnitude j-y| ∧
      (|fmt.magnitude j-y| = |fmt.magnitude p-y| → j = p ∨ p % 2 = 0))
    (hclose : |fmt.magnitude p-y|<y) : fmt.NearestEven (withSign s y) (fmt.pack s p) := by
  have hplace := hp.trans infinity_lt
  have hdist : |fmt.value (fmt.pack s p)-withSign s y| = |fmt.magnitude p-y| := by
    rw [value_pack hplace, abs_withSign_sub]
  have hother : ∀ other, fmt.negative other = s →
      |fmt.value other-withSign s y| = |fmt.magnitude (fmt.unsigned other)-y| := by
    intro other hsign
    rw [Format.value, hsign, abs_withSign_sub]
  have hopposite : ∀ other, fmt.negative other ≠ s → y ≤ |fmt.value other-withSign s y| :=
    fun other hsign => le_abs_withSign_sub hsign (magnitude_nonneg _) hy
  constructor
  · rw [Format.Finite, unsigned_pack hplace]
    exact hp
  · intro other _
    rw [hdist]
    by_cases hsign : fmt.negative other = s
    · rw [hother other hsign]
      exact (hnear _).1
    · exact hclose.le.trans (hopposite other hsign)
  · intro other _ heq
    rw [hdist] at heq
    by_cases hsign : fmt.negative other = s
    · rw [hother other hsign] at heq
      refine ((hnear _).2 heq).imp (fun hsame => ?_) fun hpEven => ?_
      · rw [value_pack hplace, Format.value, hsign, hsame]
      · unfold Format.pack
        split_ifs <;> omega
    · exact absurd (hopposite other hsign) (not_le.mpr (heq ▸ hclose))

end Signs

section Order
variable {fmt : Format} {a b : ℕ}

lemma value_le_iff : fmt.value a ≤ fmt.value b ↔ fmt.rank a ≤ fmt.rank b := by
  have hmono : StrictMono fmt.magnitude := magnitude_strictMono
  have ha := @magnitude_nonneg fmt (fmt.unsigned a)
  have hb := @magnitude_nonneg fmt (fmt.unsigned b)
  have hzero : ∀ p, fmt.magnitude p ≤ 0 ↔ p = 0 := by
    intro p
    rw [← @magnitude_zero fmt, hmono.le_iff_le, Nat.le_zero]
  unfold Format.value Format.withSign Format.rank
  cases fmt.negative a <;> cases fmt.negative b <;>
    simp only [if_true, Bool.false_eq_true, if_false, neg_le_neg_iff, Nat.cast_le, hmono.le_iff_le]
  · constructor
    · intro h
      have hle := (hzero _).mp (h.trans (neg_nonpos.mpr hb))
      have hle' := (hzero _).mp (le_neg.mp (ha.trans h) |>.trans_eq neg_zero)
      omega
    · intro h
      have heq : fmt.unsigned a = 0 := by omega
      have heq' : fmt.unsigned b = 0 := by omega
      rw [heq, heq', magnitude_zero, neg_zero]
  · exact iff_of_true (by linarith) (by omega)

/-- The order goes on at infinity. -/
theorem extended_le_iff (hinf : 0<fmt.infinity) (ha : ¬ fmt.IsNan a) (hb : ¬ fmt.IsNan b) :
    fmt.extended a ≤ fmt.extended b ↔ fmt.rank a ≤ fmt.rank b := by
  rw [Format.IsNan, not_lt] at ha hb
  unfold Format.extended
  by_cases ha' : fmt.unsigned a = fmt.infinity <;> by_cases hb' : fmt.unsigned b = fmt.infinity
  · rw [if_pos ha', if_pos hb', Format.rank, Format.rank, ha', hb']
    cases fmt.negative a <;> cases fmt.negative b <;> simp
    omega
  · rw [if_pos ha', if_neg hb', Format.rank, ha']
    have hlt := lt_of_le_of_ne hb hb'
    have hrank : -(fmt.infinity : ℤ)<fmt.rank b ∧ fmt.rank b<fmt.infinity := by
      unfold Format.rank
      split_ifs <;> omega
    cases fmt.negative a
    · simp [hrank.2]
    · simp [hrank.1.le]
  · rw [if_neg ha', if_pos hb', Format.rank, Format.rank, hb']
    have hlt := lt_of_le_of_ne ha ha'
    cases fmt.negative b
    · simp only [Bool.false_eq_true, if_false]
      exact iff_of_true (WithBot.coe_le_coe.mpr le_top) (by split_ifs <;> omega)
    · simp only [if_true]
      exact iff_of_false (by simp) (by split_ifs <;> omega)
  · rw [if_neg ha', if_neg hb', WithBot.coe_le_coe, WithTop.coe_le_coe, value_le_iff]

/-- A conversion of the magnitudes which keeps their order and zero keeps that of the values. -/
theorem rank_pack_mono {target : Format} {narrow : ℕ → ℕ} (hmono : Monotone narrow)
    (hzero : narrow 0 = 0) (hlt : ∀ p, narrow p<target.signPlace) (h : fmt.rank a ≤ fmt.rank b) :
    target.rank (target.pack (fmt.negative a) (narrow (fmt.unsigned a))) ≤
      target.rank (target.pack (fmt.negative b) (narrow (fmt.unsigned b))) := by
  unfold Format.rank at h ⊢
  rw [negative_pack (hlt _), unsigned_pack (hlt _), negative_pack (hlt _), unsigned_pack (hlt _)]
  generalize fmt.negative a = s at h ⊢
  generalize fmt.negative b = t at h ⊢
  cases s <;> cases t <;>
    simp only [if_true, Bool.false_eq_true, if_false, neg_le_neg_iff, Nat.cast_le] at h ⊢
  · exact hmono h
  · have heq : fmt.unsigned a = 0 := by omega
    have heq' : fmt.unsigned b = 0 := by omega
    rw [heq, heq', hzero]
    rfl
  · omega
  · exact hmono h

end Order

end MicroExpertRouter.BinaryFloat
