import MicroExpertRouter.Quant.Formats

/-! The block decoders of `inference.rs`, which write a buffer as long as a block. Floats are exact. -/
namespace MicroExpertRouter.Quant
open Writes (writeAll writeRun)

variable (half : UInt16 → ℚ)

/-- `q4k_unpack_scales`, one sub-block of it. -/
def unpackPair (scales : List UInt8) (j : ℕ) : UInt8 × UInt8 :=
  if j<4 then ⟨byteAt scales j &&& 0x3F,byteAt scales (j+4) &&& 0x3F⟩
  else
    let d := (byteAt scales (j+4) &&& (0x0F : UInt8)) ||| ((byteAt scales (j-4) >>> 6) <<< 4)
    let m := (byteAt scales (j+4) >>> (4 : UInt8)) ||| ((byteAt scales j >>> 6) <<< 4)
    ⟨d &&& 0x3F,m &&& 0x3F⟩

def q4kUnpackScales (scales : List UInt8) : List (UInt8 × UInt8) :=
  (List.range 8).map (unpackPair scales)

def pairAt (pairs : List (UInt8 × UInt8)) (j : ℕ) : UInt8 × UInt8 := pairs.getD j (0,0)

def dequantizeQ4kBlock (src : List UInt8) (dst : List ℚ) : List ℚ :=
  let d := half (u16FromLeBytes (byteAt src 0) (byteAt src 1))
  let dmin := half (u16FromLeBytes (byteAt src 2) (byteAt src 3))
  let pairs := q4kUnpackScales (part src 4 12)
  let qs := part src 16 128
  writeAll dst ((List.range 8).flatMap fun j =>
    let s := d*(pairAt pairs j).1.toNat
    let m := dmin*(pairAt pairs j).2.toNat
    (List.range 32).map fun i =>
      let byte := byteAt qs (j*16+i/2)
      let q4 : UInt8 := if i % 2 = 0 then byte &&& 0x0F else byte >>> 4
      (j*32+i,s*q4.toNat-m))

/-- The loop over 64 elements at a time. -/
structure Q5kLoop where
  is : ℕ
  hiLowMask : UInt8
  hiHighMask : UInt8
  out : ℕ
  dst : List ℚ

/-- Thirty-two elements, each a nibble and a fifth bit. -/
def q5kValues (d m : ℚ) (nibble : UInt8 → UInt8) (mask : UInt8) (q qh : List UInt8) : List ℚ :=
  (q.zip qh).map fun bytes =>
    let hi : ℚ := if bytes.2 &&& mask ≠ 0 then 16 else 0
    d*((nibble bytes.1).toNat+hi)-m

def q5kStep (d dmin : ℚ) (pairs : List (UInt8 × UInt8)) (qh qs : List UInt8) (self : Q5kLoop)
    (j : ℕ) : Q5kLoop :=
  let q := part qs (j/2) 32
  let pair1 := pairAt pairs self.is
  let pair2 := pairAt pairs (self.is+1)
  let first := writeRun self.dst self.out
    (q5kValues (d*pair1.1.toNat) (dmin*pair1.2.toNat) (· &&& 0x0F) self.hiLowMask q qh)
  let second := writeRun first.2 first.1
    (q5kValues (d*pair2.1.toNat) (dmin*pair2.2.toNat) (· >>> 4) self.hiHighMask q qh)
  ⟨self.is+2,self.hiLowMask <<< 2,self.hiHighMask <<< 2,second.1,second.2⟩

def dequantizeQ5kBlock (src : List UInt8) (dst : List ℚ) : List ℚ :=
  let d := half (u16FromLeBytes (byteAt src 0) (byteAt src 1))
  let dmin := half (u16FromLeBytes (byteAt src 2) (byteAt src 3))
  let pairs := q4kUnpackScales (part src 4 12)
  let qh := part src 16 32
  let qs := part src 48 128
  (((List.range 4).map (64*·)).foldl (q5kStep d dmin pairs qh qs) ⟨0,1,2,0,dst⟩).dst

def dequantizeQ6kBlock (src : List UInt8) (dst : List ℚ) : List ℚ :=
  let ql := part src 0 128
  let qh := part src 128 64
  let scales := part src 192 16
  let d := half (u16FromLeBytes (byteAt src 208) (byteAt src 209))
  writeAll dst ((List.range 2).flatMap fun ip => (List.range 32).flatMap fun il =>
    let is := 8*ip+il/16
    let out := 128*ip+il
    let qlBase := 64*ip+il
    let qhByte := byteAt qh (32*ip+il)
    let sc : ℕ → ℚ := fun idx => (byteAt scales idx).toInt8.toInt
    let q : UInt8 → UInt8 → ℚ := fun low highBits => (((low ||| (highBits <<< 4)).toNat-32 : ℤ) : ℚ)
    [(out,d*sc is*q (byteAt ql qlBase &&& 0x0F) (qhByte &&& 0x03)),
      (out+32,d*sc (is+2)*q (byteAt ql (qlBase+32) &&& 0x0F) ((qhByte >>> 2) &&& 0x03)),
      (out+64,d*sc (is+4)*q (byteAt ql qlBase >>> 4) ((qhByte >>> 4) &&& 0x03)),
      (out+96,d*sc (is+6)*q (byteAt ql (qlBase+32) >>> 4) ((qhByte >>> 6) &&& 0x03))])

def dequantizeQ4_0Block (src : List UInt8) (dst : List ℚ) : List ℚ :=
  let d := half (u16FromLeBytes (byteAt src 0) (byteAt src 1))
  let qs := part src 2 16
  writeAll dst ((List.range 16).flatMap fun j =>
    let byte := byteAt qs j
    [(j,d*(((byte &&& 0x0F).toNat-8 : ℤ) : ℚ)),(j+16,d*(((byte >>> 4).toNat-8 : ℤ) : ℚ))])

def dequantizeQ8_0Block (src : List UInt8) (dst : List ℚ) : List ℚ :=
  let d := half (u16FromLeBytes (byteAt src 0) (byteAt src 1))
  let qs := part src 2 32
  writeAll dst ((List.range 32).map fun i => (i,d*((byteAt qs i).toInt8.toInt : ℚ)))

section Scales
variable {src : List UInt8} {j : ℕ}

lemma pairAt_unpackScales (hj : j<8) (scales : List UInt8) :
    pairAt (q4kUnpackScales scales) j = unpackPair scales j := by
  simp [pairAt, q4kUnpackScales, hj]

/-- The unpacked scale and minimum of a sub-block. -/
lemma pairAt_eq (hj : j<8) : (pairAt (q4kUnpackScales (part src 4 12)) j).1.toNat =
      Ggml.subScale src j ∧
    (pairAt (q4kUnpackScales (part src 4 12)) j).2.toNat = Ggml.subMin src j := by
  rw [pairAt_unpackScales hj]
  unfold unpackPair Ggml.subScale Ggml.subMin
  split_ifs with hlow
  · rw [toNat_and_63, toNat_and_63, byteAt_part (by omega), byteAt_part (by omega)]
    exact ⟨rfl,rfl⟩
  · rw [byteAt_part (by omega), byteAt_part (by omega), byteAt_part (by omega)]
    have ha := (byteAt src (4+(j+4))).toNat_lt
    have hb := (byteAt src (4+(j-4))).toNat_lt
    have hc := (byteAt src (4+j)).toNat_lt
    dsimp only
    rw [toNat_and_63, toNat_and_63, toNat_or_shiftLeft_4, toNat_or_shiftLeft_4, toNat_and_15,
      toNat_shiftRight_4, toNat_shiftRight_6, toNat_shiftRight_6]
    · omega
    · rw [toNat_shiftRight_4]
      omega
    · rw [toNat_shiftRight_6]
      omega
    · rw [toNat_and_15]
      omega
    · rw [toNat_shiftRight_6]
      omega

end Scales

section Elements
variable {half : UInt16 → ℚ} {src : List UInt8} {dst : List ℚ}

/-- An element of a Q4_K block as `dequantize_q4k_block` reads it: each sub-block has sixteen bytes of
its own, the low nibble of each before the high one. -/
def ownQ4k (half : UInt16 → ℚ) (src : List UInt8) (n : ℕ) : ℚ :=
  let byte := byteAt src (16+n/2)
  let q : ℕ := if n % 2 = 0 then Ggml.low byte else Ggml.high byte
  Ggml.floatAt half src 0*Ggml.subScale src (n/32)*q-
    Ggml.floatAt half src 2*Ggml.subMin src (n/32)

lemma dequantizeQ4kBlock_eq (hdst : dst.length = 256) :
    dequantizeQ4kBlock half src dst = (List.range 256).map (ownQ4k half src) := by
  rw [← hdst]
  unfold dequantizeQ4kBlock
  refine Writes.writeAll_eq_map ?_ ?_
  · intro write hwrite
    simp only [List.mem_flatMap, List.mem_map, List.mem_range] at hwrite
    obtain ⟨j,hj,i,hi,rfl⟩ := hwrite
    obtain ⟨hscale,hmin⟩ := @pairAt_eq src j hj
    have hsub : (j*32+i)/32 = j := by omega
    have hbyte : 16+(j*32+i)/2 = 16+(j*16+i/2) := by omega
    have hparity : (j*32+i) % 2 = i % 2 := by omega
    unfold ownQ4k
    rw [hscale, hmin, byteAt_part (by omega), hsub, hbyte, hparity]
    dsimp only
    split_ifs
    · rw [toNat_and_15]
      rfl
    · rw [toNat_shiftRight_4]
      rfl
  · intro n hn
    simp only [List.map_flatMap, List.map_map, List.mem_flatMap, List.mem_map, List.mem_range,
      Function.comp_apply]
    exact ⟨n/32,by omega,n % 32,by omega,by omega⟩

lemma dequantizeQ8_0Block_eq (hdst : dst.length = 32) :
    dequantizeQ8_0Block half src dst = (List.range 32).map (Ggml.q8_0 half src) := by
  rw [← hdst]
  unfold dequantizeQ8_0Block
  refine Writes.writeAll_eq_map ?_ ?_
  · intro write hwrite
    simp only [List.mem_map, List.mem_range] at hwrite
    obtain ⟨i,hi,rfl⟩ := hwrite
    rw [byteAt_part (by omega), toInt_toInt8]
    rfl
  · intro n hn
    simp only [List.map_map, List.mem_map, List.mem_range, Function.comp_apply]
    exact ⟨n,by omega,rfl⟩

lemma dequantizeQ4_0Block_eq (hdst : dst.length = 32) :
    dequantizeQ4_0Block half src dst = (List.range 32).map (Ggml.q4_0 half src) := by
  rw [← hdst]
  unfold dequantizeQ4_0Block
  refine Writes.writeAll_eq_map ?_ ?_
  · intro write hwrite
    simp only [List.mem_flatMap, List.mem_cons, List.mem_range, List.not_mem_nil, or_false] at hwrite
    obtain ⟨j,hj,rfl | rfl⟩ := hwrite
    · unfold Ggml.q4_0 Ggml.low
      dsimp only
      rw [if_pos (by omega), byteAt_part (by omega), toNat_and_15]
      push_cast
      rfl
    · unfold Ggml.q4_0 Ggml.high
      dsimp only
      rw [if_neg (by omega), byteAt_part (by omega), toNat_shiftRight_4, Nat.add_sub_cancel]
      push_cast
      rfl
  · intro n hn
    simp only [List.map_flatMap, List.mem_flatMap, List.mem_range, List.map_cons, List.map_nil,
      List.mem_cons, List.not_mem_nil, or_false]
    refine ⟨n % 16,by omega,?_⟩
    omega

lemma low_lt (b : UInt8) : Ggml.low b<16 := Nat.mod_lt _ (by decide)

lemma high_lt (b : UInt8) : Ggml.high b<16 := by
  have hb := b.toNat_lt
  unfold Ggml.high
  omega

/-- What is written for an element of a Q6_K block. -/
lemma q6k_write {ip il quarter : ℕ} {nibble upper : UInt8} (hil : il<32) (hquarter : quarter<4)
    (hnibble : nibble.toNat = if quarter<2 then
      Ggml.low (byteAt src (64*ip+(32*(quarter % 2)+il))) else
      Ggml.high (byteAt src (64*ip+(32*(quarter % 2)+il))))
    (hupper : upper.toNat = (byteAt src (128+(32*ip+il))).toNat/4^quarter % 4) :
    Ggml.floatAt half src 208*((byteAt src (192+(8*ip+il/16+2*quarter))).toInt8.toInt : ℚ)*
        (((nibble ||| (upper <<< 4)).toNat-32 : ℤ) : ℚ) =
      Ggml.q6k half src (128*ip+il+32*quarter) := by
  have hhalf : (128*ip+il+32*quarter)/128 = ip := by omega
  have hpart : (128*ip+il+32*quarter) % 128/32 = quarter := by omega
  have hplace : (128*ip+il+32*quarter) % 32 = il := by omega
  have hfour : nibble.toNat<16 := by
    rw [hnibble]
    split_ifs
    · exact low_lt _
    · exact high_lt _
  unfold Ggml.q6k
  rw [hhalf, hpart, hplace, toInt_toInt8, toNat_or_shiftLeft_4 hfour (by omega)]
  dsimp only
  rw [← hnibble, ← hupper]
  push_cast
  rfl

lemma dequantizeQ6kBlock_eq (hdst : dst.length = 256) :
    dequantizeQ6kBlock half src dst = (List.range 256).map (Ggml.q6k half src) := by
  rw [← hdst]
  unfold dequantizeQ6kBlock
  refine Writes.writeAll_eq_map ?_ ?_
  · intro write hwrite
    simp only [List.mem_flatMap, List.mem_cons, List.mem_range, List.not_mem_nil, or_false] at hwrite
    obtain ⟨ip,hip,il,hil,hwrite⟩ := hwrite
    have hql : 64*ip+il<128 := by omega
    have hql32 : 64*ip+il+32<128 := by omega
    obtain rfl | rfl | rfl | rfl := hwrite
    · dsimp only
      rw [byteAt_part hql, byteAt_part (by omega), byteAt_part (by omega)]
      refine @q6k_write half src ip il 0 _ _ hil (by omega) ?_ ?_
      · rw [if_pos (by omega), toNat_and_15, Nat.zero_add]
        simp [Ggml.low]
      · rw [toNat_and_3, pow_zero, Nat.div_one]
    · dsimp only
      rw [byteAt_part hql32, byteAt_part (by omega), byteAt_part (by omega)]
      refine @q6k_write half src ip il 1 _ _ hil (by omega) ?_ ?_
      · rw [if_pos (by omega), toNat_and_15]
        simp [Ggml.low, Nat.add_assoc, Nat.add_comm il]
      · rw [toNat_and_3, toNat_shiftRight_2, pow_one]
    · dsimp only
      rw [byteAt_part hql, byteAt_part (by omega), byteAt_part (by omega)]
      refine @q6k_write half src ip il 2 _ _ hil (by omega) ?_ ?_
      · rw [if_neg (by omega), toNat_shiftRight_4]
        simp [Ggml.high]
      · rw [toNat_and_3, toNat_shiftRight_4]
        rfl
    · dsimp only
      rw [byteAt_part hql32, byteAt_part (by omega), byteAt_part (by omega)]
      refine @q6k_write half src ip il 3 _ _ hil (by omega) ?_ ?_
      · rw [if_neg (by omega), toNat_shiftRight_4]
        simp [Ggml.high, Nat.add_assoc, Nat.add_comm il]
      · rw [toNat_and_3, toNat_shiftRight_6]
        rfl
  · intro n hn
    simp only [List.map_flatMap, List.mem_flatMap, List.mem_range, List.map_cons, List.map_nil,
      List.mem_cons, List.not_mem_nil, or_false]
    refine ⟨n/128,by omega,n % 32,by omega,?_⟩
    omega

/-- A fifth bit is looked up with a mask. -/
lemma mask_iff (b : UInt8) {k : ℕ} (hk : k<8) :
    b &&& UInt8.ofNat (2^k) ≠ 0 ↔ b.toNat/2^k % 2 = 1 := by
  have hpow : 2^k<2^8 := Nat.pow_lt_pow_right (by decide) hk
  have hmask : (UInt8.ofNat (2^k)).toNat = 2^k := UInt8.toNat_ofNat_of_lt' hpow
  have hbit : (b &&& UInt8.ofNat (2^k)).toNat = (b.toNat.testBit k).toNat*2^k := by
    rw [UInt8.toNat_and, hmask, Nat.and_two_pow]
  rw [ne_eq, ← UInt8.toNat_inj, hbit, Nat.testBit_eq_decide_div_mod_eq]
  by_cases hset : b.toNat/2^k % 2 = 1
  · simp [hset]
  · simp [hset]

/-- Thirty-two elements of a Q5_K block. -/
lemma q5kValues_eq {g : ℕ} {k : ℕ} {nibble : UInt8 → UInt8} (hsrc : src.length = 176) (hg : g<4)
    (hk : k<2) (hnibble : ∀ b, (nibble b).toNat = if k = 0 then Ggml.low b else Ggml.high b) :
    q5kValues (Ggml.floatAt half src 0*Ggml.subScale src (2*g+k))
        (Ggml.floatAt half src 2*Ggml.subMin src (2*g+k)) nibble (UInt8.ofNat (2^(2*g+k)))
        (part (part src 48 128) (32*g) 32) (part src 16 32) =
      (List.range 32).map fun l => Ggml.q5k half src (64*g+32*k+l) := by
  have hnibbles : part (part src 48 128) (32*g) 32 =
      (List.range 32).map fun l => byteAt (part src 48 128) (32*g+l) :=
    part_eq_map (by rw [length_part]; omega)
  have hfifths : part src 16 32 = (List.range 32).map fun l => byteAt src (16+l) :=
    part_eq_map (by omega)
  unfold q5kValues
  rw [hnibbles, hfifths, List.zip_map', List.map_map]
  refine List.map_congr_left fun l hl => ?_
  have hlt := List.mem_range.mp hl
  have hsub : (64*g+32*k+l)/32 = 2*g+k := by omega
  have hplace : (64*g+32*k+l) % 32 = l := by omega
  have hgroup : (64*g+32*k+l)/64 = g := by omega
  have hfirst : (64*g+32*k+l) % 64<32 ↔ k = 0 := by omega
  have hbit : ∀ b : UInt8, (if b &&& UInt8.ofNat (2^(2*g+k)) ≠ 0 then (16 : ℚ) else 0) =
      16*((b.toNat/2^(2*g+k) % 2 : ℕ) : ℚ) := by
    intro b
    simp only [mask_iff b (show 2*g+k<8 by omega)]
    obtain hzero | hone := Nat.mod_two_eq_zero_or_one (b.toNat/2^(2*g+k))
    · simp [hzero]
    · simp [hone]
  unfold Ggml.q5k Ggml.nibble
  simp only [Function.comp_apply, hbit, hnibble, hsub, hplace, hgroup, hfirst]
  rw [byteAt_part (by omega)]

/-- The state of the loop after `g` passes: the elements written so far are those of the format. -/
def q5kAfter (half : UInt16 → ℚ) (src : List UInt8) (dst : List ℚ) (g : ℕ) : Q5kLoop :=
  ⟨2*g,UInt8.ofNat (2^(2*g)),UInt8.ofNat (2^(2*g+1)),64*g,
    writeAll dst ((List.range (64*g)).map fun n => (n,Ggml.q5k half src n))⟩

lemma writes_after (f : ℕ → ℚ) (dst : List ℚ) (start : ℕ) :
    writeAll dst ((List.range (start+32)).map fun n => (n,f n)) =
      writeAll (writeAll dst ((List.range start).map fun n => (n,f n)))
        ((List.range 32).map fun l => (start+l,f (start+l))) := by
  rw [List.range_add, List.map_append, Writes.writeAll_append, List.map_map]
  rfl

lemma q5kAfter_dst (half : UInt16 → ℚ) (src : List UInt8) (dst : List ℚ) (g : ℕ) :
    (q5kAfter half src dst g).dst =
      writeAll dst ((List.range (64*g)).map fun n => (n,Ggml.q5k half src n)) := rfl

/-- One pass of the loop. -/
lemma q5kStep_after {g : ℕ} (hsrc : src.length = 176) (hg : g<4) :
    q5kStep (Ggml.floatAt half src 0) (Ggml.floatAt half src 2) (q4kUnpackScales (part src 4 12))
        (part src 16 32) (part src 48 128) (q5kAfter half src dst g) (64*g) =
      q5kAfter half src dst (g+1) := by
  obtain ⟨hscale,hmin⟩ := @pairAt_eq src (2*g) (by omega)
  obtain ⟨hscale',hmin'⟩ := @pairAt_eq src (2*g+1) (by omega)
  have hhalf : 64*g/2 = 32*g := by omega
  have hlow := @q5kValues_eq half src g 0 (· &&& 0x0F) hsrc hg (by decide) fun b => toNat_and_15 b
  have hhigh := @q5kValues_eq half src g 1 (· >>> 4) hsrc hg (by decide)
    fun b => toNat_shiftRight_4 b
  have hmask : UInt8.ofNat (2^(2*g)) <<< 2 = UInt8.ofNat (2^(2*(g+1))) := by
    interval_cases g <;> rfl
  have hmask' : UInt8.ofNat (2^(2*g+1)) <<< 2 = UInt8.ofNat (2^(2*(g+1)+1)) := by
    interval_cases g <;> rfl
  have hlast : 64*(g+1) = 64*g+32+32 := by omega
  simp only [Nat.mul_zero, Nat.mul_one, Nat.add_zero] at hlow hhigh
  unfold q5kStep q5kAfter
  simp only [hhalf, hscale, hmin, hscale', hmin', hlow, hhigh, hmask, hmask', Writes.writeRun_map]
  rw [hlast, writes_after _ _ (64*g+32), writes_after _ _ (64*g)]
  rfl

lemma q5k_loop (hsrc : src.length = 176) {g : ℕ} (hg : g ≤ 4) :
    ((List.range g).map (64*·)).foldl
        (q5kStep (Ggml.floatAt half src 0) (Ggml.floatAt half src 2)
          (q4kUnpackScales (part src 4 12)) (part src 16 32) (part src 48 128))
        ⟨0,1,2,0,dst⟩ = q5kAfter half src dst g := by
  induction g with
  | zero => rfl
  | succ g ih =>
    rw [List.range_succ, List.map_append, List.foldl_append, ih (by omega)]
    exact q5kStep_after hsrc (by omega)

lemma dequantizeQ5kBlock_eq (hsrc : src.length = 176) (hdst : dst.length = 256) :
    dequantizeQ5kBlock half src dst = (List.range 256).map (Ggml.q5k half src) := by
  have hloop : dequantizeQ5kBlock half src dst = (q5kAfter half src dst 4).dst :=
    congrArg Q5kLoop.dst (q5k_loop hsrc le_rfl)
  rw [hloop, q5kAfter_dst, ← hdst]
  refine Writes.writeAll_eq_map ?_ ?_
  · intro write hwrite
    obtain ⟨n,_,rfl⟩ := List.mem_map.mp hwrite
    rfl
  · intro n hn
    rw [List.map_map]
    exact List.mem_map.mpr ⟨n,List.mem_range.mpr (by omega),rfl⟩

end Elements

end MicroExpertRouter.Quant
