import MicroExpertRouter.Rpc.Decoding

/-! What is promised of a decoder, and requests, for which it holds: accepted frames are encoded in
front of the buffer, and encoded frames are read back, whatever follows them. -/
namespace MicroExpertRouter.Rpc
open Metered Fields

/-- What is promised of a decoder on a buffer: it stays inside and does not panic, reserves no more
elements than the buffer can hold, and accepts only what begins with the encoding of its result. -/
structure Safe {α : Type} (decode : Decoder α) (encode : α → Option (List UInt8)) (buf : Slice) :
    Prop where
  noPanic : (decode.run buf).2 ≠ .error .panic
  reserves : ∀ reservation ∈ (decode.run buf).1,
    reservation.elements*reservation.size ≤ buf.bytes.length
  exact : ∀ m, (decode.run buf).2 = .ok m → ∃ out, encode m = some out ∧ out <+: buf.bytes

lemma Safe.of_error {α : Type} {decode : Decoder α} {encode : α → Option (List UInt8)} {buf : Slice}
    {kind : ErrorKind} {message : String} (h : decode.run buf = ([],.error (.io kind message))) :
    Safe decode encode buf := by
  refine ⟨?_,?_,fun m hm => ?_⟩
  · rw [h]
    exact fun heq => by cases heq
  · rw [h]
    exact List.forall_mem_nil _
  · rw [h] at hm
    cases hm

section Values
variable {buf : List UInt8}

lemma toNat_readLe64 (off : ℕ) :
    (UInt64.ofNat (Fields.readLe buf off 8)).toNat = Fields.readLe buf off 8 := by
  rw [UInt64.toNat_ofNat']
  exact Nat.mod_eq_of_lt (readLe_lt buf off 8)

lemma toNat_readLe32 (off : ℕ) :
    (UInt32.ofNat (Fields.readLe buf off 4)).toNat = Fields.readLe buf off 4 := by
  rw [UInt32.toNat_ofNat']
  exact Nat.mod_eq_of_lt (readLe_lt buf off 4)

lemma map_toNat32 {xs : List ℕ} (h : ∀ x ∈ xs, x<256^4) :
    (xs.map UInt32.ofNat).map UInt32.toNat = xs := by
  rw [List.map_map]
  refine (List.map_congr_left (g := id) fun x hx => ?_).trans (List.map_id _)
  rw [Function.comp_apply, UInt32.toNat_ofNat']
  exact Nat.mod_eq_of_lt (h x hx)

lemma map_toNat16 {xs : List ℕ} (h : ∀ x ∈ xs, x<256^2) :
    (xs.map UInt16.ofNat).map UInt16.toNat = xs := by
  rw [List.map_map]
  refine (List.map_congr_left (g := id) fun x hx => ?_).trans (List.map_id _)
  rw [Function.comp_apply, UInt16.toNat_ofNat']
  exact Nat.mod_eq_of_lt (h x hx)

lemma map_ofNat32 (xs : List UInt32) : (xs.map UInt32.toNat).map UInt32.ofNat = xs := by
  rw [List.map_map]
  refine (List.map_congr_left (g := id) fun x _ => ?_).trans (List.map_id _)
  exact UInt32.ofNat_toNat

lemma map_ofNat16 (xs : List UInt16) : (xs.map UInt16.toNat).map UInt16.ofNat = xs := by
  rw [List.map_map]
  refine (List.map_congr_left (g := id) fun x _ => ?_).trans (List.map_id _)
  exact UInt16.ofNat_toNat

/-- The two rows after a header are the stretch of the buffer they take. -/
lemma take_append_rows {off k count : ℕ} (h : off+4*k+2*count ≤ buf.length) :
    buf.take off++Le.encodeAll 4 (readAll buf 4 off k)++
      Le.encodeAll 2 (readAll buf 2 (off+4*k) count) = buf.take (off+4*k+2*count) := by
  rw [encodeAll_readAll k (by omega), encodeAll_readAll count h, take_append_read,
    take_append_read]

lemma vec_eq_some {bytes out : List UInt8} :
    vec bytes = some out ↔ bytes.length ≤ isizeMax ∧ bytes = out := by
  unfold vec
  split_ifs with h
  · exact iff_of_false (fun heq => by cases heq) fun hle => absurd hle.1 (Nat.not_le.mpr h)
  · rw [Option.some.injEq, and_iff_right (Nat.not_lt.mp h)]

end Values

section Request
variable {buf : Slice}

/-- The numbers of a request's header. -/
def RouteExpertsRequest.dModelOf (buf : Slice) : ℕ := Fields.readLe buf.bytes 12 4
def RouteExpertsRequest.kOf (buf : Slice) : ℕ := Fields.readLe buf.bytes 16 4

/-- What a request decodes to when it is complete. -/
def RouteExpertsRequest.of (buf : Slice) : RouteExpertsRequest :=
  ⟨UInt64.ofNat (Fields.readLe buf.bytes 0 8),UInt32.ofNat (Fields.readLe buf.bytes 8 4),
    UInt32.ofNat (RouteExpertsRequest.dModelOf buf),
    (readAll buf.bytes 4 20 (RouteExpertsRequest.kOf buf)).map UInt32.ofNat,
    (readAll buf.bytes 2 (20+4*RouteExpertsRequest.kOf buf)
      (RouteExpertsRequest.dModelOf buf)).map UInt16.ofNat⟩

namespace RouteExpertsRequest

lemma decode_short (h : buf.bytes.length<20) :
    ∃ message, decode.run buf = ([],.error (.io .unexpectedEof message)) := by
  have hdecode : ∃ message, decode buf.bytes 0 = ([],.error (.io .unexpectedEof message)) := by
    rw [decode, Metered.bind_ok (Decoder.length_eq _ _), if_pos h]
    exact ⟨_,rfl⟩
  obtain ⟨message,hdecode⟩ := hdecode
  rw [Decoder.run, hdecode]
  exact ⟨message,rfl⟩

/-- The header of a request is read as it stands. -/
lemma decode_header (h : 20 ≤ buf.bytes.length) : decode buf.bytes 0 =
    (Decoder.readBody tooShort 20 (kOf buf) (word (2*dModelOf buf)) (dModelOf buf) >>= fun body =>
      (pure ⟨UInt64.ofNat (Fields.readLe buf.bytes 0 8),UInt32.ofNat (Fields.readLe buf.bytes 8 4),
        UInt32.ofNat (dModelOf buf),body.1.map UInt32.ofNat,body.2.map UInt16.ofNat⟩ :
        Decoder RouteExpertsRequest)) buf.bytes 0 := by
  have hbuf := buf.length_le
  rw [decode, Metered.bind_ok (Decoder.length_eq _ _), if_neg (Nat.not_lt.mpr h),
    Metered.bind_ok (Decoder.readLe_ok hbuf (by omega) 0),
    Metered.bind_ok (Decoder.readLe_ok hbuf (by omega) 0),
    Metered.bind_ok (Decoder.readLe_ok hbuf (by omega) 0),
    Metered.bind_ok (Decoder.readLe_ok hbuf (by omega) 0)]
  rfl

lemma decode_complete (h : 20+4*kOf buf+2*dModelOf buf ≤ buf.bytes.length) :
    decode.run buf = ([⟨kOf buf,4⟩,⟨dModelOf buf,2⟩],.ok (.of buf)) := by
  have hword : word (2*dModelOf buf) = 2*dModelOf buf := by
    apply word_of_lt
    have hd : dModelOf buf<256^4 := readLe_lt _ _ _
    omega
  have hdecode := @decode_header buf (by omega)
  rw [Metered.bind_ok (Decoder.readBody_ok buf.length_le hword h 0)] at hdecode
  rw [Decoder.run, hdecode]
  rfl

/-- A request that is complete is encoded in front of the buffer. -/
lemma encode_of (h : 20+4*kOf buf+2*dModelOf buf ≤ buf.bytes.length) :
    (RouteExpertsRequest.of buf).encode =
      some (buf.bytes.take (20+4*kOf buf+2*dModelOf buf)) := by
  have hlength := buf.length_le
  have hk : (UInt32.ofNat (kOf buf)).toNat = kOf buf := toNat_readLe32 16
  have hd : (UInt32.ofNat (dModelOf buf)).toNat = dModelOf buf := toNat_readLe32 12
  have hids := map_toNat32 (@readAll_lt buf.bytes 4 (kOf buf) 20)
  have hpayload := map_toNat16 (@readAll_lt buf.bytes 2 (dModelOf buf) (20+4*kOf buf))
  have hheader : Le.encode 8 (Fields.readLe buf.bytes 0 8)++
      Le.encode 4 (Fields.readLe buf.bytes 8 4)++Le.encode 4 (dModelOf buf)++
      Le.encode 4 (kOf buf) = buf.bytes.take 20 := by
    rw [dModelOf, kOf, encode_readLe (by omega), encode_readLe (by omega), encode_readLe (by omega),
      encode_readLe (by omega)]
    change buf.bytes.take 8++_++_++_ = _
    rw [take_append_read, take_append_read, take_append_read]
  unfold encode RouteExpertsRequest.of
  simp only [List.length_map, length_readAll, hd, hk, ne_eq, not_true_eq_false, if_false,
    toNat_readLe64, toNat_readLe32, hids, hpayload]
  rw [hheader, take_append_rows h]
  refine vec_eq_some.mpr ⟨?_,rfl⟩
  rw [List.length_take]
  omega

lemma safe (buf : Slice) : Safe decode encode buf := by
  have hlength := buf.length_le
  have hd : dModelOf buf<256^4 := readLe_lt _ _ _
  have hk : kOf buf<256^4 := readLe_lt _ _ _
  have hdword : word (2*dModelOf buf) = 2*dModelOf buf := word_of_lt (by omega)
  have hkword : word (20+word (4*kOf buf)) = 20+4*kOf buf := by
    rw [word_of_lt (n := 4*kOf buf) (by omega), word_of_lt (by omega)]
  have hend : word (word (20+word (4*kOf buf))+word (2*dModelOf buf)) =
      20+4*kOf buf+2*dModelOf buf := by
    rw [hkword, hdword, word_of_lt (by omega)]
  by_cases hheader : buf.bytes.length<20
  · obtain ⟨message,hdecode⟩ := decode_short hheader
    exact .of_error hdecode
  by_cases h : 20+4*kOf buf+2*dModelOf buf ≤ buf.bytes.length
  · have hdecode := decode_complete h
    refine ⟨?_,?_,fun m hm => ?_⟩
    · rw [hdecode]
      exact fun heq => by cases heq
    · rw [hdecode]
      simp only [List.forall_mem_cons]
      exact ⟨by omega,by omega,List.forall_mem_nil _⟩
    · rw [hdecode] at hm
      cases hm
      exact ⟨_,encode_of h,List.take_prefix _ _⟩
  · obtain ⟨message,hbody⟩ := @Decoder.readBody_short buf.bytes (kOf buf) (dModelOf buf)
      (word (2*dModelOf buf)) 20 tooShort (by rw [hend]; omega) 0
    have hdecode := @decode_header buf (Nat.not_lt.mp hheader)
    rw [Metered.bind_error hbody] at hdecode
    refine .of_error (?_ : decode.run buf = ([],.error (.io .unexpectedEof message)))
    rw [Decoder.run, hdecode]
    rfl

/-- What an encoder accepts is read back, whatever follows it. -/
lemma decode_encode {m : RouteExpertsRequest} {out : List UInt8} (hk : m.expertIds.length<2^32)
    (hencode : m.encode = some out) (hout : out <+: buf.bytes) : (decode.run buf).2 = .ok m := by
  obtain ⟨rest,hbuf⟩ := hout
  unfold encode at hencode
  dsimp only at hencode
  split_ifs at hencode with hd
  obtain ⟨-,rfl⟩ := vec_eq_some.mp hencode
  have hd : m.hiddenStateF16.length = m.dModel.toNat := not_not.mp hd
  have hkNat : (UInt32.ofNat m.expertIds.length).toNat = m.expertIds.length := by
    rw [UInt32.toNat_ofNat']
    exact Nat.mod_eq_of_lt hk
  rw [hkNat] at hbuf
  have hids : ∀ x ∈ m.expertIds.map UInt32.toNat, x<256^4 :=
    List.forall_mem_map.mpr fun x _ => x.toNat_lt
  have hhalves : ∀ x ∈ m.hiddenStateF16.map UInt16.toNat, x<256^2 :=
    List.forall_mem_map.mpr fun x _ => x.toNat_lt
  have hlength := congrArg List.length hbuf
  simp only [List.length_append, Le.length_encode, Le.length_encodeAll, List.length_map, hd]
    at hlength
  simp only [List.append_assoc] at hbuf
  obtain ⟨hid,hbuf⟩ := @readLe_next buf.bytes _ 0 _ _ m.requestId.toNat_lt hbuf.symm
  obtain ⟨hlayer,hbuf⟩ := readLe_next m.layerIdx.toNat_lt hbuf
  obtain ⟨hdModel,hbuf⟩ := readLe_next m.dModel.toNat_lt hbuf
  obtain ⟨hkOf,hbuf⟩ := readLe_next hk hbuf
  obtain ⟨hidsRead,hbuf⟩ := readAll_next hids hbuf
  obtain ⟨hhalvesRead,-⟩ := readAll_next hhalves hbuf
  rw [List.length_map] at hidsRead hhalvesRead
  rw [List.length_map, hd] at hhalvesRead
  have hdModel : dModelOf buf = m.dModel.toNat := hdModel
  have hkOf : kOf buf = m.expertIds.length := hkOf
  rw [decode_complete (by rw [hkOf, hdModel]; omega), RouteExpertsRequest.of, hkOf, hdModel, hid,
    hlayer, hidsRead, hhalvesRead, map_ofNat32, map_ofNat16, UInt64.ofNat_toNat,
    UInt32.ofNat_toNat, UInt32.ofNat_toNat]

end RouteExpertsRequest

end Request

end MicroExpertRouter.Rpc
