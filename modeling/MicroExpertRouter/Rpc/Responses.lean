import MicroExpertRouter.Rpc.Requests

/-! Responses: the same promises, up to the frames whose length, as the header gives it, passes
`2^64`. -/
namespace MicroExpertRouter.Rpc
open Metered Fields

section Response
variable {buf : Slice}

namespace RouteExpertsResponse

/-- The numbers of a response's header. -/
def dModelOf (buf : Slice) : ℕ := Fields.readLe buf.bytes 8 4
def kOf (buf : Slice) : ℕ := Fields.readLe buf.bytes 12 4

/-- The length of the frame, as its header gives it. -/
def frameLength (buf : Slice) : ℕ := 16+4*kOf buf+2*(dModelOf buf*kOf buf)

/-- The length passes `2^64`, and what is left of it fits the buffer. -/
def Overflows (buf : Slice) : Prop :=
  16 ≤ buf.bytes.length ∧ 2^64 ≤ frameLength buf ∧ frameLength buf % 2^64 ≤ buf.bytes.length

/-- What a response decodes to when it is complete. -/
def of (buf : Slice) : RouteExpertsResponse :=
  ⟨UInt64.ofNat (Fields.readLe buf.bytes 0 8),UInt32.ofNat (dModelOf buf),
    (readAll buf.bytes 4 16 (kOf buf)).map UInt32.ofNat,
    (readAll buf.bytes 2 (16+4*kOf buf) (dModelOf buf*kOf buf)).map UInt16.ofNat⟩

lemma count_lt (buf : Slice) : dModelOf buf*kOf buf<2^64 := by
  have hd : dModelOf buf<256^4 := readLe_lt _ _ _
  have hk : kOf buf<256^4 := readLe_lt _ _ _
  exact (Nat.mul_lt_mul'' hd hk).trans_le (by decide)

lemma word_count (buf : Slice) : word (dModelOf buf*kOf buf) = dModelOf buf*kOf buf :=
  word_of_lt (count_lt buf)

/-- The end that the decoder computes. -/
lemma word_frameLength (buf : Slice) :
    word (word (16+word (4*kOf buf))+word (word (2*dModelOf buf)*kOf buf)) =
      frameLength buf % 2^64 := by
  have hd : dModelOf buf<256^4 := readLe_lt _ _ _
  have hk : kOf buf<256^4 := readLe_lt _ _ _
  rw [word_of_lt (n := 2*dModelOf buf) (by omega), word_of_lt (n := 4*kOf buf) (by omega),
    word_of_lt (n := 16+4*kOf buf) (by omega), Nat.mul_assoc]
  exact Nat.add_mod_mod _ _ _

lemma decode_short (h : buf.bytes.length<16) :
    ∃ message, decode.run buf = ([],.error (.io .unexpectedEof message)) := by
  have hdecode : ∃ message, decode buf.bytes 0 = ([],.error (.io .unexpectedEof message)) := by
    rw [decode, Metered.bind_ok (Decoder.length_eq _ _), if_pos h]
    exact ⟨_,rfl⟩
  obtain ⟨message,hdecode⟩ := hdecode
  rw [Decoder.run, hdecode]
  exact ⟨message,rfl⟩

/-- The header of a response is read as it stands. -/
lemma decode_header (h : 16 ≤ buf.bytes.length) : decode buf.bytes 0 =
    (Decoder.readBody tooShort 16 (kOf buf) (word (word (2*dModelOf buf)*kOf buf))
      (word (dModelOf buf*kOf buf)) >>= fun body =>
      (pure ⟨UInt64.ofNat (Fields.readLe buf.bytes 0 8),UInt32.ofNat (dModelOf buf),
        body.1.map UInt32.ofNat,body.2.map UInt16.ofNat⟩ :
        Decoder RouteExpertsResponse)) buf.bytes 0 := by
  have hbuf := buf.length_le
  rw [decode, Metered.bind_ok (Decoder.length_eq _ _), if_neg (Nat.not_lt.mpr h),
    Metered.bind_ok (Decoder.readLe_ok hbuf (by omega) 0),
    Metered.bind_ok (Decoder.readLe_ok hbuf (by omega) 0),
    Metered.bind_ok (Decoder.readLe_ok hbuf (by omega) 0)]
  rfl

lemma decode_complete (h : frameLength buf ≤ buf.bytes.length) :
    decode.run buf = ([⟨kOf buf,4⟩,⟨dModelOf buf*kOf buf,2⟩],.ok (.of buf)) := by
  have hlength := buf.length_le
  have hd : dModelOf buf<256^4 := readLe_lt _ _ _
  have hword : word (word (2*dModelOf buf)*kOf buf) = 2*(dModelOf buf*kOf buf) := by
    rw [word_of_lt (n := 2*dModelOf buf) (by omega), Nat.mul_assoc]
    apply word_of_lt
    unfold frameLength at h
    unfold isizeMax at hlength
    omega
  have hdecode := @decode_header buf (by unfold frameLength at h; omega)
  rw [word_count, Metered.bind_ok (Decoder.readBody_ok hlength hword h 0)] at hdecode
  rw [Decoder.run, hdecode]
  rfl

/-- A response that is complete is encoded in front of the buffer. -/
lemma encode_of (h : frameLength buf ≤ buf.bytes.length) :
    (RouteExpertsResponse.of buf).encode = some (buf.bytes.take (frameLength buf)) := by
  have hlength := buf.length_le
  have hk : (UInt32.ofNat (kOf buf)).toNat = kOf buf := toNat_readLe32 12
  have hd : (UInt32.ofNat (dModelOf buf)).toNat = dModelOf buf := toNat_readLe32 8
  have hids := map_toNat32 (@readAll_lt buf.bytes 4 (kOf buf) 16)
  have hpayload := map_toNat16
    (@readAll_lt buf.bytes 2 (dModelOf buf*kOf buf) (16+4*kOf buf))
  have hcount : word (kOf buf*dModelOf buf) = dModelOf buf*kOf buf := by
    rw [Nat.mul_comm, word_count]
  have hrows : 16+4*kOf buf+2*(dModelOf buf*kOf buf) ≤ buf.bytes.length := h
  have hheader : Le.encode 8 (Fields.readLe buf.bytes 0 8)++Le.encode 4 (dModelOf buf)++
      Le.encode 4 (kOf buf) = buf.bytes.take 16 := by
    rw [dModelOf, kOf, encode_readLe (by omega), encode_readLe (by omega), encode_readLe (by omega)]
    change buf.bytes.take 8++_++_ = _
    rw [take_append_read, take_append_read]
  unfold encode RouteExpertsResponse.of
  simp only [List.length_map, length_readAll, hd, hk, hcount, ne_eq, not_true_eq_false, if_false,
    toNat_readLe64, hids, hpayload]
  rw [hheader, take_append_rows hrows]
  refine vec_eq_some.mpr ⟨?_,rfl⟩
  rw [List.length_take]
  omega

/-- The decoder keeps its promise on all frames but those whose length overflows. -/
lemma safe_iff (buf : Slice) : Safe decode encode buf ↔ ¬ Overflows buf := by
  have hlength := buf.length_le
  have hsmall : isizeMax<2^64 := by decide
  constructor
  · rintro hsafe ⟨hheader,hlarge,hfits⟩
    have hdecode := @decode_header buf hheader
    have hbody := @Decoder.readBody_any buf.bytes (kOf buf) (word (dModelOf buf*kOf buf))
      (word (word (2*dModelOf buf)*kOf buf)) 16 tooShort (by rw [word_frameLength]; exact hfits) 0
    cases hread : Decoder.readBody tooShort 16 (kOf buf) (word (word (2*dModelOf buf)*kOf buf))
      (word (dModelOf buf*kOf buf)) buf.bytes 0 with
    | mk asked result =>
      rw [hread] at hbody
      rcases hbody with hpanic | ⟨ids,payload,hok,hids,hpayload⟩
      · have hpanic : result = .error .panic := hpanic
        rw [hpanic] at hread
        rw [Metered.bind_error hread] at hdecode
        apply hsafe.noPanic
        rw [Decoder.run, hdecode]
        rfl
      · -- The encoding of such a result would be longer than the buffer.
        have hok : result = .ok ((ids,payload),0) := hok
        rw [hok] at hread
        rw [Metered.bind_ok hread] at hdecode
        obtain ⟨out,hencode,hout⟩ := hsafe.exact _ (by rw [Decoder.run, hdecode]; rfl)
        have hle := hout.length_le
        unfold encode at hencode
        dsimp only at hencode
        split_ifs at hencode
        obtain ⟨-,rfl⟩ := vec_eq_some.mp hencode
        simp only [List.length_append, Le.length_encode, Le.length_encodeAll, List.length_map,
          hids, hpayload, word_count] at hle
        unfold frameLength at hlarge
        omega
  · intro hsafe
    by_cases hheader : buf.bytes.length<16
    · obtain ⟨message,hdecode⟩ := decode_short hheader
      exact .of_error hdecode
    by_cases h : frameLength buf ≤ buf.bytes.length
    · have hdecode := decode_complete h
      have hframe : 16+4*kOf buf+2*(dModelOf buf*kOf buf) ≤ buf.bytes.length := h
      refine ⟨?_,?_,fun m hm => ?_⟩
      · rw [hdecode]
        exact fun heq => by cases heq
      · rw [hdecode]
        simp only [List.forall_mem_cons]
        exact ⟨by omega,by omega,List.forall_mem_nil _⟩
      · rw [hdecode] at hm
        cases hm
        exact ⟨_,encode_of h,List.take_prefix _ _⟩
    · have hend : buf.bytes.length<frameLength buf % 2^64 := by
        by_contra hle
        by_cases hlarge : 2^64 ≤ frameLength buf
        · exact hsafe ⟨Nat.not_lt.mp hheader,hlarge,Nat.not_lt.mp hle⟩
        · rw [Nat.mod_eq_of_lt (Nat.not_le.mp hlarge)] at hle
          exact h (Nat.not_lt.mp hle)
      obtain ⟨message,hbody⟩ := @Decoder.readBody_short buf.bytes (kOf buf)
        (word (dModelOf buf*kOf buf)) (word (word (2*dModelOf buf)*kOf buf)) 16 tooShort
        (by rw [word_frameLength]; exact hend) 0
      have hdecode := @decode_header buf (Nat.not_lt.mp hheader)
      rw [Metered.bind_error hbody] at hdecode
      refine .of_error (?_ : decode.run buf = ([],.error (.io .unexpectedEof message)))
      rw [Decoder.run, hdecode]
      rfl

lemma decode_encode {m : RouteExpertsResponse} {out : List UInt8} (hk : m.expertIds.length<2^32)
    (hencode : m.encode = some out) (hout : out <+: buf.bytes) : (decode.run buf).2 = .ok m := by
  obtain ⟨rest,hbuf⟩ := hout
  unfold encode at hencode
  dsimp only at hencode
  split_ifs at hencode with hcount
  obtain ⟨-,rfl⟩ := vec_eq_some.mp hencode
  have hd32 := m.dModel.toNat_lt
  have hcount : m.ffnOutF16.length = m.dModel.toNat*m.expertIds.length := by
    rw [not_not.mp hcount, Nat.mul_comm]
    exact word_of_lt ((Nat.mul_lt_mul'' hd32 hk).trans_le (by decide))
  have hkNat : (UInt32.ofNat m.expertIds.length).toNat = m.expertIds.length := by
    rw [UInt32.toNat_ofNat']
    exact Nat.mod_eq_of_lt hk
  rw [hkNat] at hbuf
  have hids : ∀ x ∈ m.expertIds.map UInt32.toNat, x<256^4 :=
    List.forall_mem_map.mpr fun x _ => x.toNat_lt
  have hhalves : ∀ x ∈ m.ffnOutF16.map UInt16.toNat, x<256^2 :=
    List.forall_mem_map.mpr fun x _ => x.toNat_lt
  have hlength := congrArg List.length hbuf
  simp only [List.length_append, Le.length_encode, Le.length_encodeAll, List.length_map, hcount]
    at hlength
  simp only [List.append_assoc] at hbuf
  obtain ⟨hid,hbuf⟩ := @readLe_next buf.bytes _ 0 _ _ m.requestId.toNat_lt hbuf.symm
  obtain ⟨hdModel,hbuf⟩ := readLe_next hd32 hbuf
  obtain ⟨hkOf,hbuf⟩ := readLe_next hk hbuf
  obtain ⟨hidsRead,hbuf⟩ := readAll_next hids hbuf
  obtain ⟨hhalvesRead,-⟩ := readAll_next hhalves hbuf
  rw [List.length_map] at hidsRead hhalvesRead
  rw [List.length_map, hcount] at hhalvesRead
  have hdModel : dModelOf buf = m.dModel.toNat := hdModel
  have hkOf : kOf buf = m.expertIds.length := hkOf
  rw [decode_complete (by rw [frameLength, hkOf, hdModel]; omega), RouteExpertsResponse.of, hkOf,
    hdModel, hid, hidsRead, hhalvesRead, map_ofNat32, map_ofNat16, UInt64.ofNat_toNat,
    UInt32.ofNat_toNat]

end RouteExpertsResponse

end Response

section Guarantees

/-- Encoded frames of fewer than `2^32` ids are read back from any buffer they begin. On any buffer
the request decoder is safe; the response decoder is safe unless the length in its header passes
`2^64` and what is left of it fits the buffer. -/
theorem frames_exact_iff (buf : Slice) :
    (∀ (m : RouteExpertsRequest) (out : List UInt8), m.expertIds.length<2^32 →
      m.encode = some out → out <+: buf.bytes → (RouteExpertsRequest.decode.run buf).2 = .ok m) ∧
    (∀ (m : RouteExpertsResponse) (out : List UInt8), m.expertIds.length<2^32 →
      m.encode = some out → out <+: buf.bytes → (RouteExpertsResponse.decode.run buf).2 = .ok m) ∧
    Safe RouteExpertsRequest.decode RouteExpertsRequest.encode buf ∧
    (Safe RouteExpertsResponse.decode RouteExpertsResponse.encode buf ↔
      ¬ RouteExpertsResponse.Overflows buf) :=
  ⟨fun _ _ => RouteExpertsRequest.decode_encode,fun _ _ => RouteExpertsResponse.decode_encode,
    RouteExpertsRequest.safe buf,RouteExpertsResponse.safe_iff buf⟩

def smallRequest : RouteExpertsRequest := ⟨1,2,1,[3],[515]⟩

/-- The request, and a byte that follows it. -/
def smallFrame : Slice where
  bytes := [1,0,0,0,0,0,0,0,2,0,0,0,1,0,0,0,1,0,0,0,3,0,0,0,3,2,7]
  length_le := Nat.le_of_ble_eq_true rfl

theorem frames_exact_small : (RouteExpertsRequest.decode.run smallFrame).2 = .ok smallRequest :=
  (frames_exact_iff smallFrame).1 smallRequest (smallFrame.bytes.take 26) (by decide)
    (by decide +kernel) (List.take_prefix 26 _)

/-- A header alone, with `d_model = 2^32-2` and `k = 2^31`, whose length is `2^64+16`. -/
def hugeFrame : Slice where
  bytes := [0,0,0,0,0,0,0,0,254,255,255,255,0,0,0,128]
  length_le := Nat.le_of_ble_eq_true rfl

/-- The decoder reserves `2^31` ids for the 16 bytes, and reads outside. -/
theorem huge_frame_panics :
    RouteExpertsResponse.decode.run hugeFrame = ([⟨2147483648,4⟩],.error .panic) ∧
      ¬ Safe RouteExpertsResponse.decode RouteExpertsResponse.encode hugeFrame := by
  have hrun : RouteExpertsResponse.decode.run hugeFrame =
      ([⟨2147483648,4⟩],.error .panic) := by decide +kernel
  refine ⟨hrun,fun hsafe => hsafe.noPanic ?_⟩
  rw [hrun]

end Guarantees

end MicroExpertRouter.Rpc
