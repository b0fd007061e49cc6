import Mathlib.Tactic

/-! Text as lists of characters: a text split at the last occurrence of a pattern, and decimal
numerals with zeros in front. -/
namespace MicroExpertRouter.Text

/-- The text without a pattern at its end. -/
def stripSuffix (pat text : List Char) : Option (List Char) :=
  if pat <:+ text then some (text.take (text.length-pat.length)) else none

/-- The text before and after the last occurrence of a pattern. -/
def rsplitOnce (pat : List Char) : List Char → Option (List Char × List Char)
  | [] => none
  | c::text => match rsplitOnce pat text with
    | some (before,after) => some (c::before,after)
    | none => if pat <+: c::text then some ([],(c::text).drop pat.length) else none

section Splitting
variable {pat text before after : List Char} {c : Char}

lemma stripSuffix_eq_some {front : List Char} :
    stripSuffix pat text = some front ↔ text = front++pat := by
  unfold stripSuffix
  split_ifs with h
  · obtain ⟨rest,rfl⟩ := h
    simp [eq_comm]
  · refine iff_of_false (fun heq => by cases heq) ?_
    rintro rfl
    exact h (List.suffix_append _ _)

lemma of_rsplitOnce (h : rsplitOnce pat text = some (before,after)) :
    text = before++pat++after := by
  induction text generalizing before with
  | nil => cases h
  | cons c text ih =>
    unfold rsplitOnce at h
    cases hrest : rsplitOnce pat text with
    | some parts =>
      rw [hrest] at h
      obtain ⟨rfl,rfl⟩ := Prod.mk.inj (Option.some.inj h)
      simp [ih hrest]
    | none =>
      rw [hrest] at h
      dsimp only at h
      split_ifs at h with hpre
      obtain ⟨rfl,rfl⟩ := Prod.mk.inj (Option.some.inj h)
      exact (List.prefix_iff_eq_append.mp hpre).symm

lemma rsplitOnce_cons (h : rsplitOnce pat text = some (before,after)) (c : Char) :
    rsplitOnce pat (c::text) = some (c::before,after) := by
  rw [rsplitOnce, h]

lemma rsplitOnce_eq_none (h : c ∉ text) (pat : List Char) : rsplitOnce (c::pat) text = none := by
  induction text with
  | nil => rfl
  | cons d text ih =>
    rw [List.mem_cons, not_or] at h
    rw [rsplitOnce, ih h.2]
    exact if_neg fun hpre => h.1 (List.cons_prefix_cons.mp hpre).1

/-- The last occurrence of a pattern, when none begins later. -/
lemma rsplitOnce_append (h : rsplitOnce (c::pat) (pat++after) = none) (before : List Char) :
    rsplitOnce (c::pat) (before++c::pat++after) = some (before,after) := by
  induction before with
  | nil =>
    rw [List.nil_append, List.cons_append, rsplitOnce, h]
    have hpre : c::pat <+: c::(pat++after) := List.prefix_append (c::pat) after
    simp [hpre]
  | cons d before ih => exact rsplitOnce_cons ih d

end Splitting

section Numerals
variable {digits digits' : List Char} {width n : ℕ}

/-- The number that these digits stand for. -/
def value (digits : List Char) : ℕ := Nat.ofDigitChars 10 digits 0

/-- A number with zeros in front. -/
def padded (width n : ℕ) : List Char :=
  List.replicate (width-(Nat.toDigits 10 n).length) '0'++Nat.toDigits 10 n

/-- Nothing but digits. -/
def Digits (text : List Char) : Prop := ∀ c ∈ text, c.isDigit = true

instance (text : List Char) : Decidable (Digits text) := List.decidableBAll _ _

@[simp] lemma value_padded : value (padded width n) = n := by
  simp [value, padded, Nat.ofDigitChars_append]

@[simp] lemma length_padded : (padded width n).length = max width (Nat.toDigits 10 n).length := by
  simp only [padded, List.length_append, List.length_replicate]
  omega

lemma padded_max : padded (max width (Nat.toDigits 10 n).length) n = padded width n := by
  have hzeros : max width (Nat.toDigits 10 n).length-(Nat.toDigits 10 n).length =
      width-(Nat.toDigits 10 n).length := by omega
  rw [padded, hzeros, padded]

lemma digits_padded : Digits (padded width n) := by
  intro c hc
  rcases List.mem_append.mp hc with hzero | hdigit
  · rw [List.eq_of_mem_replicate hzero]
    rfl
  · exact Nat.isDigit_of_mem_toDigits (by decide) (by decide) hdigit

@[simp] lemma padded_ne_nil : padded width n ≠ [] := by
  simp [padded, Nat.toDigits_ne_nil]

lemma Digits.notMem {c : Char} (h : Digits digits) (hc : c.isDigit = false) : c ∉ digits := by
  intro hmem
  rw [h c hmem] at hc
  cases hc

/-- The number a digit stands for. -/
def digit (c : Char) : ℕ := c.toNat - '0'.toNat

lemma digit_lt {c : Char} (h : c.isDigit = true) : digit c<10 := by
  have hle := (Char.isDigit_iff_toNat.mp h).2
  have hzero : '0'.toNat = 48 := rfl
  have hnine : '9'.toNat = 57 := rfl
  unfold digit
  omega

lemma digit_inj {c d : Char} (hc : c.isDigit = true) (hd : d.isDigit = true)
    (h : digit c = digit d) : c = d := by
  have hc' := (Char.isDigit_iff_toNat.mp hc).1
  have hd' := (Char.isDigit_iff_toNat.mp hd).1
  unfold digit at h
  refine Char.ext (UInt32.toNat_inj.mp ?_)
  change c.toNat = d.toNat
  omega

@[simp] lemma value_concat (digits : List Char) (c : Char) :
    value (digits++[c]) = 10*value digits+digit c := by
  simp [value, digit, Nat.ofDigitChars_append, Nat.ofDigitChars_cons]

lemma value_lt (h : Digits digits) : value digits<10^digits.length := by
  induction digits using List.reverseRecOn with
  | nil => simp [value]
  | append_singleton digits c ih =>
    have hvalue := ih fun d hd => h d (List.mem_append_left _ hd)
    have hdigit := digit_lt (h c (by simp))
    rw [value_concat, List.length_append, List.length_singleton, pow_succ]
    omega

/-- Numerals of one length are equal when they stand for one number. -/
lemma Digits.eq (h : Digits digits) (h' : Digits digits')
    (hlength : digits.length = digits'.length) (hvalue : value digits = value digits') :
    digits = digits' := by
  induction digits using List.reverseRecOn generalizing digits' with
  | nil => exact (List.length_eq_zero_iff.mp hlength.symm).symm
  | append_singleton digits c ih =>
    rcases List.eq_nil_or_concat digits' with rfl | ⟨front,d,rfl⟩
    · simp at hlength
    · rw [List.concat_eq_append] at *
      rw [value_concat, value_concat] at hvalue
      have hc := h c (by simp)
      have hd := h' d (by simp)
      have hc' := digit_lt hc
      have hd' := digit_lt hd
      have hfront := ih (fun e he => h e (List.mem_append_left _ he))
        (fun e he => h' e (List.mem_append_left _ he)) (by simpa using hlength) (by omega)
      rw [hfront, digit_inj hc hd (by omega)]

lemma length_toDigits_le (hne : digits ≠ []) (h : Digits digits) :
    (Nat.toDigits 10 (value digits)).length ≤ digits.length :=
  (Nat.length_toDigits_le_iff (by decide) (List.length_pos_iff.mpr hne)).mpr (value_lt h)

/-- A numeral is its number with zeros in front. -/
lemma Digits.padded_value (h : Digits digits) (hne : digits ≠ []) :
    padded digits.length (value digits) = digits := by
  refine digits_padded.eq h ?_ value_padded
  rw [length_padded]
  exact max_eq_left (length_toDigits_le hne h)

end Numerals

end MicroExpertRouter.Text
