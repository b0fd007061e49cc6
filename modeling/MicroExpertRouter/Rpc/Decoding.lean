import MicroExpertRouter.Rpc.Frames

/-! What the decoders do on any buffer, from one lemma for each of their parts. -/
namespace MicroExpertRouter.Rpc
open Metered Fields
variable {buf : List UInt8} {pos start width off i n k count payloadBytes idsOff : ℕ}

lemma word_of_lt (h : n<2^64) : word n = n := Nat.mod_eq_of_lt h

namespace Decoder

lemma length_eq (buf : List UInt8) (pos : ℕ) : length buf pos = ([],.ok (buf.length,pos)) := rfl

lemma slice_eq (start stop : ℕ) (buf : List UInt8) (pos : ℕ) : slice start stop buf pos =
    ([],if start ≤ stop ∧ stop ≤ buf.length then .ok (Slab.read buf start (stop-start),pos)
      else .error .panic) := rfl

lemma readLe_ok (hbuf : buf.length ≤ isizeMax) (h : off+width ≤ buf.length) (pos : ℕ) :
    readLe off width buf pos = ([],.ok (Fields.readLe buf off width,pos)) := by
  have hword : word (off+width) = off+width := by
    apply word_of_lt
    unfold isizeMax at hbuf
    omega
  have hslice : slice off (word (off+width)) buf pos =
      ([],.ok (Slab.read buf off width,pos)) := by
    rw [slice_eq, hword, if_pos ⟨Nat.le_add_right off width,h⟩, Nat.add_sub_cancel_left]
  rw [readLe, Metered.bind_ok hslice]
  rfl

/-- A number is read, or its place is outside. -/
lemma readLe_any (off width : ℕ) (buf : List UInt8) (pos : ℕ) :
    readLe off width buf pos = ([],.error .panic) ∨
      ∃ x, readLe off width buf pos = ([],.ok (x,pos)) := by
  by_cases h : off ≤ word (off+width) ∧ word (off+width) ≤ buf.length
  · have hslice : slice off (word (off+width)) buf pos =
        ([],.ok (Slab.read buf off (word (off+width)-off),pos)) := by
      rw [slice_eq, if_pos h]
    exact .inr ⟨_,Metered.bind_ok hslice⟩
  · have hslice : slice off (word (off+width)) buf pos = ([],.error .panic) := by
      rw [slice_eq, if_neg h]
    exact .inl (Metered.bind_error hslice)

lemma readEach_ok (hbuf : buf.length ≤ isizeMax) (pos : ℕ) (n : ℕ) :
    ∀ {i}, start+width*(i+n) ≤ buf.length →
      readEach start width i n buf pos = ([],.ok (readAll buf width (start+width*i) n,pos)) := by
  have hsmall : isizeMax<2^64 := by decide
  induction n with
  | zero => exact fun _ => rfl
  | succ n ih =>
    intro i h
    have hnext : start+width*(i+1+n) ≤ buf.length := by
      rw [Nat.add_right_comm]
      exact h
    have hstep : start+width*i+width ≤ buf.length := by
      rw [Nat.add_assoc, ← Nat.mul_succ]
      exact le_trans (Nat.add_le_add_left (Nat.mul_le_mul_left _ (by omega)) _) h
    have hword : word (start+word (width*i)) = start+width*i := by
      rw [word_of_lt (n := width*i) (by omega), word_of_lt (by omega)]
    have htail := ih hnext
    rw [Nat.mul_succ, ← Nat.add_assoc] at htail
    rw [readEach, hword, Metered.bind_ok (readLe_ok hbuf hstep pos), Metered.bind_ok htail]
    rfl

/-- A loop that ends has read all its numbers. -/
lemma readEach_any (start width : ℕ) (buf : List UInt8) (pos : ℕ) (n : ℕ) :
    ∀ i, readEach start width i n buf pos = ([],.error .panic) ∨
      ∃ xs, readEach start width i n buf pos = ([],.ok (xs,pos)) ∧ xs.length = n := by
  induction n with
  | zero => exact fun _ => .inr ⟨[],rfl,rfl⟩
  | succ n ih =>
    intro i
    rcases readLe_any (word (start+word (width*i))) width buf pos with hpanic | ⟨x,hx⟩
    · exact .inl (Metered.bind_error hpanic)
    · rw [readEach, Metered.bind_ok hx]
      rcases ih (i+1) with hpanic | ⟨xs,hxs,hlength⟩
      · rw [Metered.bind_error hpanic]
        exact .inl rfl
      · rw [Metered.bind_ok hxs]
        exact .inr ⟨x::xs,rfl,congrArg Nat.succ hlength⟩

lemma withCapacity_ok {size : ℕ} (h : n*size ≤ isizeMax) (buf : List UInt8) (pos : ℕ) :
    withCapacity n size buf pos = ([⟨n,size⟩],.ok ((),pos)) := by
  have hask : (Metered.ask ⟨n,size⟩ : Decoder Unit) buf pos = ([⟨n,size⟩],.ok ((),pos)) := rfl
  rw [withCapacity, Metered.bind_ok hask, if_neg (Nat.not_lt.mpr h)]
  rfl

lemma withCapacity_any (n size : ℕ) (buf : List UInt8) (pos : ℕ) :
    withCapacity n size buf pos = ([⟨n,size⟩],.error .panic) ∨
      withCapacity n size buf pos = ([⟨n,size⟩],.ok ((),pos)) := by
  by_cases h : isizeMax<n*size
  · have hask : (Metered.ask ⟨n,size⟩ : Decoder Unit) buf pos = ([⟨n,size⟩],.ok ((),pos)) := rfl
    rw [withCapacity, Metered.bind_ok hask, if_pos h]
    exact .inl rfl
  · exact .inr (withCapacity_ok (Nat.not_lt.mp h) buf pos)

section Body
variable {tooShort : ℕ → ℕ → String}

/-- A frame that is shorter than it says. -/
lemma readBody_short (h : buf.length<word (word (idsOff+word (4*k))+payloadBytes)) (pos : ℕ) :
    ∃ message, readBody tooShort idsOff k payloadBytes count buf pos =
      ([],.error (.io .unexpectedEof message)) := by
  rw [readBody, Metered.bind_ok (length_eq buf pos), if_pos h]
  exact ⟨_,rfl⟩

/-- A frame whose parts fit is read part by part. -/
lemma readBody_ok (hbuf : buf.length ≤ isizeMax) (hpayload : payloadBytes = 2*count)
    (h : idsOff+4*k+2*count ≤ buf.length) (pos : ℕ) :
    readBody tooShort idsOff k payloadBytes count buf pos =
      ([⟨k,4⟩,⟨count,2⟩],
        .ok ((readAll buf 4 idsOff k,readAll buf 2 (idsOff+4*k) count),pos)) := by
  have hsmall : isizeMax<2^64 := by decide
  have hoff : word (idsOff+word (4*k)) = idsOff+4*k := by
    rw [word_of_lt (n := 4*k) (by omega), word_of_lt (by omega)]
  have hend : word (idsOff+4*k+payloadBytes) = idsOff+4*k+2*count := by
    rw [hpayload, word_of_lt (by omega)]
  have hids : readEach idsOff 4 0 k buf pos = ([],.ok (readAll buf 4 idsOff k,pos)) :=
    readEach_ok hbuf pos k (by omega)
  have hhalves : readEach (idsOff+4*k) 2 0 count buf pos =
      ([],.ok (readAll buf 2 (idsOff+4*k) count,pos)) := readEach_ok hbuf pos count (by omega)
  rw [readBody, Metered.bind_ok (length_eq buf pos)]
  simp only [hoff, hend, if_neg (Nat.not_lt.mpr h)]
  rw [Metered.bind_ok (withCapacity_ok (by omega) buf pos), Metered.bind_ok hids,
    Metered.bind_ok (withCapacity_ok (by omega) buf pos), Metered.bind_ok hhalves]
  rfl

/-- Past the length check a decoder panics, or returns as many numbers as the header says. -/
lemma readBody_any (h : word (word (idsOff+word (4*k))+payloadBytes) ≤ buf.length) (pos : ℕ) :
    (readBody tooShort idsOff k payloadBytes count buf pos).2 = .error .panic ∨
      ∃ ids payload, (readBody tooShort idsOff k payloadBytes count buf pos).2 =
        .ok ((ids,payload),pos) ∧ ids.length = k ∧ payload.length = count := by
  rw [readBody, Metered.bind_ok (length_eq buf pos), if_neg (Nat.not_lt.mpr h)]
  rcases withCapacity_any k 4 buf pos with hpanic | hreserved
  · rw [Metered.bind_error hpanic]
    exact .inl rfl
  rw [Metered.bind_ok hreserved]
  rcases readEach_any idsOff 4 buf pos k 0 with hpanic | ⟨ids,hids,hlength⟩
  · rw [Metered.bind_error hpanic]
    exact .inl rfl
  rw [Metered.bind_ok hids]
  rcases withCapacity_any count 2 buf pos with hpanic | hreserved
  · rw [Metered.bind_error hpanic]
    exact .inl rfl
  rw [Metered.bind_ok hreserved]
  rcases readEach_any (word (idsOff+word (4*k))) 2 buf pos count 0 with
    hpanic | ⟨payload,hpayload,hlength'⟩
  · rw [Metered.bind_error hpanic]
    exact .inl rfl
  rw [Metered.bind_ok hpayload]
  exact .inr ⟨ids,payload,rfl,hlength,hlength'⟩

end Body

end Decoder

end MicroExpertRouter.Rpc
