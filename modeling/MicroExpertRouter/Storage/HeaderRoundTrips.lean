import MicroExpertRouter.Storage.TensorHeader

/-! Round trips of the headers of expert files: what is stored is probed, what is probed is stored
again up to the reserved bytes, and the payload is found behind the padding. -/
namespace MicroExpertRouter.Storage
open MicroExpertRouter.Fields (readLe store Within Before Covers)

section Stored
variable {buf : List UInt8} {fields : List (ℕ × List UInt8)} {off k n : ℕ}

/-- A number stored in a field is read back, whatever follows the buffer. -/
lemma readLe_stored (hwithin : ∀ field ∈ fields, Within buf.length field)
    (horder : fields.Pairwise Before) (hmem : (off,Le.encode k n) ∈ fields) (hn : n<256^k)
    (rest : List UInt8) : readLe (fields.foldl store buf++rest) off k = n := by
  have hin : off+k ≤ (fields.foldl store buf).length := by
    rw [Fields.length_stored fields hwithin]
    simpa [Within] using hwithin _ hmem
  have hfield := Fields.read_stored fields hwithin horder _ hmem
  rw [Le.length_encode] at hfield
  rw [readLe, Slab.read_append _ hin, hfield, Le.decode_encode k hn]

lemma toNat_ofNat8 (buf : List UInt8) (off : ℕ) :
    (UInt8.ofNat (readLe buf off 1)).toNat = readLe buf off 1 := by
  have hlt : readLe buf off 1<2^8 := Fields.readLe_lt buf off 1
  rw [UInt8.toNat_ofNat', Nat.mod_eq_of_lt hlt]

lemma toNat_ofNat16 (buf : List UInt8) (off : ℕ) :
    (UInt16.ofNat (readLe buf off 2)).toNat = readLe buf off 2 := by
  have hlt : readLe buf off 2<2^16 := Fields.readLe_lt buf off 2
  rw [UInt16.toNat_ofNat', Nat.mod_eq_of_lt hlt]

lemma toNat_ofNat32 (buf : List UInt8) (off : ℕ) :
    (UInt32.ofNat (readLe buf off 4)).toNat = readLe buf off 4 := by
  have hlt : readLe buf off 4<2^32 := Fields.readLe_lt buf off 4
  rw [UInt32.toNat_ofNat', Nat.mod_eq_of_lt hlt]

lemma toNat_ofNat64 (buf : List UInt8) (off : ℕ) :
    (UInt64.ofNat (readLe buf off 8)).toNat = readLe buf off 8 := by
  have hlt : readLe buf off 8<2^64 := Fields.readLe_lt buf off 8
  rw [UInt64.toNat_ofNat', Nat.mod_eq_of_lt hlt]

end Stored

namespace TensorHeader

/-- What the tests of `probe` ask for. -/
structure Supported (h : TensorHeader) : Prop where
  version : 1 ≤ h.version.toNat ∧ h.version.toNat ≤ uthVersion
  rank : 1 ≤ h.shapeRank.toNat ∧ h.shapeRank.toNat ≤ uthMaxRank

lemma fields_within (h : TensorHeader) :
    ∀ field ∈ h.fields, Within (List.replicate uthBytes (0 : UInt8)).length field := by
  simp [fields, Within, uthMagic, uthBytes]

lemma fields_order (h : TensorHeader) : h.fields.Pairwise Before :=
  @Fields.pairwise_before _ _ [(0,4),(4,2),(6,1),(7,1),(8,4),(12,4),(16,4),(20,4),(24,4),(28,4),
    (32,4),(36,4),(40,4),(44,4)] rfl (by decide)

lemma length_toBytes (h : TensorHeader) : h.toBytes.length = uthBytes := by
  rw [toBytes, Fields.length_stored _ h.fields_within, List.length_replicate]

lemma readLe_toBytes (h : TensorHeader) {off k n : ℕ} (hmem : (off,Le.encode k n) ∈ h.fields)
    (hn : n<256^k) (rest : List UInt8) : readLe (h.toBytes++rest) off k = n :=
  readLe_stored h.fields_within h.fields_order hmem hn rest

/-- A stored header is probed. -/
lemma probe_toBytes {h : TensorHeader} (hsupported : h.Supported) (rest : List UInt8) :
    probe (h.toBytes++rest) = some h := by
  have hmagic : Slab.read (h.toBytes++rest) 0 4 = uthMagic := by
    rw [Slab.read_append _ (by rw [length_toBytes]; decide)]
    exact Fields.read_stored _ h.fields_within h.fields_order (0,uthMagic) (by simp [fields])
  have hversion : readLe (h.toBytes++rest) 4 2 = h.version.toNat :=
    h.readLe_toBytes (by simp [fields]) h.version.toNat_lt rest
  have hdtype : readLe (h.toBytes++rest) 6 1 = h.dtype.code :=
    h.readLe_toBytes (by simp [fields]) h.dtype.code_lt rest
  have hrank : readLe (h.toBytes++rest) 7 1 = h.shapeRank.toNat :=
    h.readLe_toBytes (by simp [fields]) h.shapeRank.toNat_lt rest
  have hword : ∀ off (v : UInt32), (off,Le.encode 4 v.toNat) ∈ h.fields →
      UInt32.ofNat (readLe (h.toBytes++rest) off 4) = v := by
    intro off v hmem
    rw [h.readLe_toBytes hmem v.toNat_lt rest, UInt32.ofNat_toNat]
  have hshape : (Vector.ofFn fun i : Fin 4 => UInt32.ofNat (readLe (h.toBytes++rest) (8+i*4) 4)) =
      h.shape := by
    apply Vector.ext
    intro i hi
    rw [Vector.getElem_ofFn]
    apply hword
    interval_cases i <;> simp [fields]
  unfold probe
  rw [if_neg (by rw [List.length_append, length_toBytes]; omega), if_neg (not_not.mpr hmagic)]
  dsimp only
  rw [hversion, hdtype, hrank, if_neg (by have hv := hsupported.version; omega),
    UthDtypeId.fromU8_code]
  change (if _ then _ else _) = _
  rw [if_neg (by have hr := hsupported.rank; omega), hshape,
    hword 24 h.quantScaleOffset (by simp [fields]), hword 28 h.quantScaleCount (by simp [fields]),
    hword 32 h.amxTileM (by simp [fields]), hword 36 h.amxTileN (by simp [fields]),
    hword 40 h.amxTileK (by simp [fields]), hword 44 h.flags (by simp [fields]),
    UInt16.ofNat_toNat, UInt8.ofNat_toNat]
  rfl

/-- The bytes at the end that no field uses. -/
def Reserved (i : ℕ) : Prop := 48 ≤ i ∧ i<uthBytes

lemma covered_of_not_reserved (h : TensorHeader) {i : ℕ} (hi : i<uthBytes) (hreserved : ¬ Reserved i) :
    ∃ field ∈ h.fields, Covers field i := by
  simp only [Reserved, uthBytes] at hi hreserved
  simp [fields, Covers, uthMagic]
  omega

/-- The fields of a probed header are the bytes it was probed from. -/
lemma fields_of_probe {bytes : List UInt8} {h : TensorHeader} (hprobe : probe bytes = some h) :
    ∀ field ∈ h.fields, field.2 = Slab.read bytes field.1 field.2.length := by
  unfold probe at hprobe
  obtain ⟨hlength,hprobe⟩ := Option.ite_none_left_eq_some.mp hprobe
  obtain ⟨hmagic,hprobe⟩ := Option.ite_none_left_eq_some.mp hprobe
  obtain ⟨-,hprobe⟩ := Option.ite_none_left_eq_some.mp hprobe
  obtain ⟨dtype,hdtype,hprobe⟩ := Option.bind_eq_some_iff.mp hprobe
  obtain ⟨-,hprobe⟩ := Option.ite_none_left_eq_some.mp hprobe
  cases hprobe
  have hlong : uthBytes ≤ bytes.length := Nat.not_lt.mp hlength
  have hnumber : ∀ off k, off+k ≤ uthBytes →
      Le.encode k (readLe bytes off k) = Slab.read bytes off k :=
    fun off k hoff => Fields.encode_readLe (hoff.trans hlong)
  simp only [fields, toNat_ofNat16, toNat_ofNat32, toNat_ofNat8, UthDtypeId.code_of_fromU8 hdtype,
    Vector.getElem_ofFn, List.forall_mem_cons, Le.length_encode]
  refine ⟨(not_not.mp hmagic).symm,hnumber 4 2 ?_,hnumber 6 1 ?_,hnumber 7 1 ?_,hnumber 8 4 ?_,
    hnumber 12 4 ?_,hnumber 16 4 ?_,hnumber 20 4 ?_,hnumber 24 4 ?_,hnumber 28 4 ?_,hnumber 32 4 ?_,
    hnumber 36 4 ?_,hnumber 40 4 ?_,hnumber 44 4 ?_,List.forall_mem_nil _⟩ <;> decide

/-- A probed header is stored as it was, up to the reserved bytes. -/
lemma toBytes_of_probe {bytes : List UInt8} {h : TensorHeader} (hprobe : probe bytes = some h)
    {i : ℕ} (hi : i<uthBytes) (hreserved : ¬ Reserved i) : h.toBytes[i]? = bytes[i]? :=
  Fields.getElem?_stored_of_agree h.fields h.fields_within (fields_of_probe hprobe)
    (.inr (h.covered_of_not_reserved hi hreserved))

/-- The padding that the writer adds is the padding that the reader skips. -/
lemma length_writePadded {h : TensorHeader} (hflag : h.flags &&& uthFlagPageAlignedPayload ≠ 0)
    (blockAlign : ℕ) : (h.writePadded blockAlign []).length = h.headerBytes blockAlign := by
  unfold writePadded headerBytes
  simp only [List.nil_append, List.length_nil, Nat.sub_zero, List.length_append,
    List.length_replicate, length_toBytes]
  by_cases halign : 0<blockAlign
  · rw [if_pos halign, if_pos ⟨hflag,halign⟩]
  · rw [if_neg halign, if_neg fun hboth => halign hboth.2, Nat.add_zero]

/-- The payload is found behind the padding, for every alignment. -/
lemma strip_writePadded {h : TensorHeader} (hsupported : h.Supported)
    (hflag : h.flags &&& uthFlagPageAlignedPayload ≠ 0) (blockAlign : ℕ) (payload : List UInt8) :
    strip (h.writePadded blockAlign []++payload) blockAlign = (some h,payload) := by
  have hlength := length_writePadded hflag blockAlign
  have hprobe : probe (h.writePadded blockAlign []++payload) = some h := by
    unfold writePadded
    rw [List.nil_append, List.append_assoc]
    exact probe_toBytes hsupported _
  unfold strip
  rw [hprobe]
  dsimp only
  rw [if_neg (by rw [List.length_append, hlength]; omega), List.drop_left' hlength]

end TensorHeader

namespace MixedExpertHeader

lemma fields_within (h : MixedExpertHeader) :
    ∀ field ∈ h.fields, Within (List.replicate uth2Bytes (0 : UInt8)).length field := by
  simp [fields, projectionFields, Within, uth2Magic, uth2Bytes]

lemma fields_order (h : MixedExpertHeader) : h.fields.Pairwise Before :=
  @Fields.pairwise_before _ _ [(0,4),(4,2),(6,2),(8,4),(12,4),(16,4),(24,1),(25,1),(28,8),(36,8),
    (44,4),(48,1),(49,1),(52,8),(60,8),(68,4),(72,1),(73,1),(76,8),(84,8),(92,4)] rfl (by decide)

lemma length_toBytes (h : MixedExpertHeader) : h.toBytes.length = uth2Bytes := by
  rw [toBytes, Fields.length_stored _ h.fields_within, List.length_replicate]

lemma readLe_toBytes (h : MixedExpertHeader) {off k n : ℕ} (hmem : (off,Le.encode k n) ∈ h.fields)
    (hn : n<256^k) (rest : List UInt8) : readLe (h.toBytes++rest) off k = n :=
  readLe_stored h.fields_within h.fields_order hmem hn rest

lemma readProjection_toBytes (h : MixedExpertHeader) {idx : ℕ} (hidx : idx<3) {p : ProjectionRange}
    (hmem : ∀ field ∈ projectionFields idx idx p, field ∈ h.fields) (rest : List UInt8) :
    readProjection (h.toBytes++rest) idx idx = some p := by
  have hrole : readLe (h.toBytes++rest) (24+idx*24+1) 1 = idx :=
    h.readLe_toBytes (hmem _ (by simp [projectionFields])) (by omega) rest
  have hdtype : readLe (h.toBytes++rest) (24+idx*24) 1 = p.dtype.code :=
    h.readLe_toBytes (hmem _ (by simp [projectionFields])) p.dtype.code_lt rest
  have hoffset : readLe (h.toBytes++rest) (24+idx*24+4) 8 = p.offset.toNat :=
    h.readLe_toBytes (hmem _ (by simp [projectionFields])) p.offset.toNat_lt rest
  have hlen : readLe (h.toBytes++rest) (24+idx*24+12) 8 = p.len.toNat :=
    h.readLe_toBytes (hmem _ (by simp [projectionFields])) p.len.toNat_lt rest
  have hweights : readLe (h.toBytes++rest) (24+idx*24+20) 4 = p.weights.toNat :=
    h.readLe_toBytes (hmem _ (by simp [projectionFields])) p.weights.toNat_lt rest
  unfold readProjection
  dsimp only
  rw [hrole, if_neg (not_not.mpr rfl), hdtype, UthDtypeId.fromU8_code, hoffset, hlen, hweights,
    UInt64.ofNat_toNat, UInt64.ofNat_toNat, UInt32.ofNat_toNat]
  rfl

/-- A stored header is probed. -/
lemma probe_toBytes {h : MixedExpertHeader} (hversion : h.version = uth2Version)
    (rest : List UInt8) : probe (h.toBytes++rest) = some h := by
  have hmagic : Slab.read (h.toBytes++rest) 0 4 = uth2Magic := by
    rw [Slab.read_append _ (by rw [length_toBytes]; decide)]
    exact Fields.read_stored _ h.fields_within h.fields_order (0,uth2Magic) (by simp [fields])
  have hread : readLe (h.toBytes++rest) 4 2 = h.version.toNat :=
    h.readLe_toBytes (by simp [fields]) h.version.toNat_lt rest
  have hcount : readLe (h.toBytes++rest) 6 2 = 3 :=
    h.readLe_toBytes (by simp [fields]) (by decide) rest
  have hword : ∀ off (v : UInt32), (off,Le.encode 4 v.toNat) ∈ h.fields →
      UInt32.ofNat (readLe (h.toBytes++rest) off 4) = v := by
    intro off v hmem
    rw [h.readLe_toBytes hmem v.toNat_lt rest, UInt32.ofNat_toNat]
  have hgate : readProjection (h.toBytes++rest) 0 0 = some h.gate :=
    h.readProjection_toBytes (by decide) (by simp +contextual [fields]) rest
  have hup : readProjection (h.toBytes++rest) 1 1 = some h.up :=
    h.readProjection_toBytes (by decide) (by simp +contextual [fields]) rest
  have hdown : readProjection (h.toBytes++rest) 2 2 = some h.down :=
    h.readProjection_toBytes (by decide) (by simp +contextual [fields]) rest
  have hlong : ¬ ((h.toBytes++rest).length<uth2Bytes ∨ Slab.read (h.toBytes++rest) 0 4 ≠ uth2Magic) := by
    rw [List.length_append, length_toBytes, hmagic]
    simp
  unfold probe
  rw [if_neg hlong]
  dsimp only
  rw [hread, hcount, UInt16.ofNat_toNat, if_neg (not_not.mpr hversion), if_neg (not_not.mpr rfl), hgate,
    hup, hdown, hword 8 h.dModel (by simp [fields]), hword 12 h.dFf (by simp [fields]),
    hword 16 h.flags (by simp [fields])]
  rfl

/-- The bytes between and after the fields. -/
def Reserved (i : ℕ) : Prop :=
  (20 ≤ i ∧ i<24) ∨ (∃ idx<3, 24+idx*24+2 ≤ i ∧ i<24+idx*24+4) ∨ 96 ≤ i ∧ i<uth2Bytes

lemma covered_of_not_reserved (h : MixedExpertHeader) {i : ℕ} (hi : i<uth2Bytes)
    (hreserved : ¬ Reserved i) : ∃ field ∈ h.fields, Covers field i := by
  have hgaps : ∀ idx<3, ¬ (24+idx*24+2 ≤ i ∧ i<24+idx*24+4) :=
    fun idx hidx hgap => hreserved (.inr (.inl ⟨idx,hidx,hgap⟩))
  have hgate := hgaps 0 (by decide)
  have hup := hgaps 1 (by decide)
  have hdown := hgaps 2 (by decide)
  simp only [Reserved, uth2Bytes] at hi hreserved
  simp [fields, projectionFields, Covers, uth2Magic]
  omega

lemma fields_of_readProjection {bytes : List UInt8} {idx : ℕ} {p : ProjectionRange}
    (hlong : uth2Bytes ≤ bytes.length) (hidx : idx<3) (h : readProjection bytes idx idx = some p) :
    ∀ field ∈ projectionFields idx idx p, field.2 = Slab.read bytes field.1 field.2.length := by
  unfold readProjection at h
  dsimp only at h
  split_ifs at h with hrole
  obtain ⟨dtype,hdtype,h⟩ := Option.bind_eq_some_iff.mp h
  cases h
  have hnumber : ∀ off k, off+k ≤ uth2Bytes →
      Le.encode k (readLe bytes off k) = Slab.read bytes off k :=
    fun off k hoff => Fields.encode_readLe (hoff.trans hlong)
  have hroleByte := hnumber (24+idx*24+1) 1 (by unfold uth2Bytes; omega)
  rw [not_not.mp hrole] at hroleByte
  simp only [projectionFields, toNat_ofNat64, toNat_ofNat32, UthDtypeId.code_of_fromU8 hdtype,
    List.forall_mem_cons, Le.length_encode]
  refine ⟨hnumber _ 1 ?_,hroleByte,hnumber _ 8 ?_,hnumber _ 8 ?_,hnumber _ 4 ?_,
    List.forall_mem_nil _⟩ <;> (unfold uth2Bytes; omega)

/-- The fields of a probed header are the bytes it was probed from. -/
lemma fields_of_probe {bytes : List UInt8} {h : MixedExpertHeader} (hprobe : probe bytes = some h) :
    h.version = uth2Version ∧
      ∀ field ∈ h.fields, field.2 = Slab.read bytes field.1 field.2.length := by
  unfold probe at hprobe
  obtain ⟨hstart,hprobe⟩ := Option.ite_none_left_eq_some.mp hprobe
  obtain ⟨hlength,hmagic⟩ := not_or.mp hstart
  obtain ⟨hversion,hprobe⟩ := Option.ite_none_left_eq_some.mp hprobe
  obtain ⟨hcount,hprobe⟩ := Option.ite_none_left_eq_some.mp hprobe
  obtain ⟨gate,hgate,hprobe⟩ := Option.bind_eq_some_iff.mp hprobe
  obtain ⟨up,hup,hprobe⟩ := Option.bind_eq_some_iff.mp hprobe
  obtain ⟨down,hdown,hprobe⟩ := Option.bind_eq_some_iff.mp hprobe
  cases hprobe
  have hlong : uth2Bytes ≤ bytes.length := Nat.not_lt.mp hlength
  have hnumber : ∀ off k, off+k ≤ uth2Bytes →
      Le.encode k (readLe bytes off k) = Slab.read bytes off k :=
    fun off k hoff => Fields.encode_readLe (hoff.trans hlong)
  have hthree := hnumber 6 2 (by decide)
  rw [not_not.mp hcount] at hthree
  refine ⟨not_not.mp hversion,?_⟩
  simp only [fields, toNat_ofNat16, toNat_ofNat32, List.forall_mem_append, List.forall_mem_cons,
    Le.length_encode]
  refine ⟨⟨⟨⟨(not_not.mp hmagic).symm,hnumber 4 2 ?_,hthree,hnumber 8 4 ?_,hnumber 12 4 ?_,
    hnumber 16 4 ?_,List.forall_mem_nil _⟩,fields_of_readProjection hlong ?_ hgate⟩,
    fields_of_readProjection hlong ?_ hup⟩,fields_of_readProjection hlong ?_ hdown⟩ <;> decide

/-- A probed header is stored as it was, up to the reserved bytes. -/
lemma toBytes_of_probe {bytes : List UInt8} {h : MixedExpertHeader} (hprobe : probe bytes = some h)
    {i : ℕ} (hi : i<uth2Bytes) (hreserved : ¬ Reserved i) : h.toBytes[i]? = bytes[i]? :=
  Fields.getElem?_stored_of_agree h.fields h.fields_within (fields_of_probe hprobe).2
    (.inr (h.covered_of_not_reserved hi hreserved))

lemma length_writePadded {h : MixedExpertHeader} (hflag : h.flags = uthFlagPageAlignedPayload)
    (blockAlign : ℕ) : (h.writePadded blockAlign []).length = h.headerBytes blockAlign := by
  have hset : h.flags &&& uthFlagPageAlignedPayload ≠ 0 := by
    rw [hflag]
    decide
  unfold writePadded headerBytes
  simp only [List.nil_append, List.length_nil, Nat.sub_zero, List.length_append,
    List.length_replicate, length_toBytes]
  by_cases halign : 0<blockAlign
  · rw [if_pos halign, if_pos ⟨hset,halign⟩]
  · rw [if_neg halign, if_neg fun hboth => halign hboth.2, Nat.add_zero]

/-- The payload is found behind the padding when its ranges are valid. -/
lemma strip_writePadded {h : MixedExpertHeader} (hversion : h.version = uth2Version)
    (hflag : h.flags = uthFlagPageAlignedPayload) (blockAlign : ℕ) (payload : List UInt8) :
    (h.validate payload.length = .ok () →
      strip (h.writePadded blockAlign []++payload) blockAlign = some (h,payload)) ∧
    (h.validate payload.length ≠ .ok () →
      strip (h.writePadded blockAlign []++payload) blockAlign = none) := by
  have hlength := length_writePadded hflag blockAlign
  have hprobe : probe (h.writePadded blockAlign []++payload) = some h := by
    unfold writePadded
    rw [List.nil_append, List.append_assoc]
    exact probe_toBytes hversion _
  have hlong : ¬ (h.writePadded blockAlign []++payload).length<h.headerBytes blockAlign := by
    rw [List.length_append, hlength]
    omega
  unfold strip
  rw [hprobe, Option.bind_eq_bind, Option.bind_some, if_neg hlong, List.drop_left' hlength]
  dsimp only
  cases hvalid : h.validate payload.length with
  | error message =>
    refine ⟨fun hok => ?_,fun _ => rfl⟩
    cases hok
  | ok valid => exact ⟨fun _ => rfl,fun hnot => absurd rfl hnot⟩

end MixedExpertHeader

section Ranges

/-- The ranges share no byte. -/
def ProjectionRange.Apart (r s : ProjectionRange) : Prop :=
  r.offset.toNat+r.len.toNat ≤ s.offset.toNat ∨ s.offset.toNat+s.len.toNat ≤ r.offset.toNat

lemma validateRange_ok {payloadLen : ℕ} {name : String} {r : ProjectionRange}
    (h : validateRange payloadLen name r = .ok ()) : 0<r.len.toNat ∧
      r.past = some (r.offset.toNat+r.len.toNat) ∧ r.offset.toNat+r.len.toNat ≤ payloadLen := by
  unfold validateRange at h
  split_ifs at h with hmixed hlen
  cases hpast : r.past with
  | none =>
    rw [hpast] at h
    cases h
  | some past =>
    obtain ⟨-,rfl⟩ := checkedAdd_eq_some.mp hpast
    rw [hpast] at h
    dsimp only at h
    split_ifs at h with hroom
    refine ⟨Nat.pos_of_ne_zero fun hzero => hlen ?_,rfl,Nat.not_lt.mp hroom⟩
    exact UInt64.toNat_inj.mp hzero

/-- Spans in order, each of which ends before the next one starts, end before all later ones. -/
lemma pairwise_of_windows : ∀ {spans : List Span}, (∀ span ∈ spans, span.start ≤ span.past) →
    validateWindows spans = .ok () → spans.Pairwise fun left right => left.past ≤ right.start := by
  intro spans
  induction spans with
  | nil => exact fun _ _ => List.Pairwise.nil
  | cons left spans ih =>
    intro hspans h
    cases spans with
    | nil => exact List.pairwise_singleton _ left
    | cons right rest =>
      unfold validateWindows at h
      dsimp only at h
      split_ifs at h with hoverlap
      have hrest := ih (fun span hmem => hspans span (List.mem_cons_of_mem left hmem)) h
      refine List.pairwise_cons.mpr ⟨fun span hmem => ?_,hrest⟩
      have hnext : left.past ≤ right.start := Nat.not_lt.mp hoverlap
      obtain rfl | hlater := List.mem_cons.mp hmem
      · exact hnext
      · have hright := hspans right (List.mem_cons_of_mem left List.mem_cons_self)
        exact (hnext.trans hright).trans ((List.pairwise_cons.mp hrest).1 span hlater)

namespace MixedExpertHeader

/-- Ranges that pass are not empty, inside the payload and apart from each other. -/
lemma ranges_of_validate {h : MixedExpertHeader} {payloadLen : ℕ}
    (hvalid : h.validate payloadLen = .ok ()) :
    (∀ range ∈ h.ranges, 0<range.2.len.toNat ∧
      range.2.offset.toNat+range.2.len.toNat ≤ payloadLen) ∧
    h.ranges.Pairwise fun r s => r.2.Apart s.2 := by
  unfold validate at hvalid
  dsimp only at hvalid
  split_ifs at hvalid with hversion hdims
  obtain ⟨⟨⟩,hranges,hwindows⟩ := bind_eq_ok.mp hvalid
  have hok := forM_eq_ok.mp hranges
  have hpast : ∀ range ∈ h.ranges,
      range.2.past.getD u64Max = range.2.offset.toNat+range.2.len.toNat := by
    intro range hmem
    rw [(validateRange_ok (hok range hmem)).2.1, Option.getD_some]
  refine ⟨fun range hmem => ⟨(validateRange_ok (hok range hmem)).1,
    (validateRange_ok (hok range hmem)).2.2⟩,?_⟩
  have hsorted := List.perm_insertionSort (fun left right : Span => left.start ≤ right.start) h.spans
  have hspans : ∀ span ∈ h.spans, span.start ≤ span.past := by
    intro span hmem
    obtain ⟨range,hrange,rfl⟩ := List.mem_map.mp hmem
    change range.2.offset.toNat ≤ range.2.past.getD u64Max
    rw [hpast range hrange]
    exact Nat.le_add_right _ _
  have hordered := pairwise_of_windows
    (fun span hmem => hspans span (hsorted.mem_iff.mp hmem)) hwindows
  have hapart : h.spans.Pairwise fun left right =>
      left.past ≤ right.start ∨ right.past ≤ left.start :=
    (hsorted.pairwise_iff fun hor => Or.symm hor).mp (hordered.imp fun hle => .inl hle)
  refine (List.pairwise_map.mp hapart).imp_of_mem fun {r s} hr hs hor => ?_
  rw [hpast r hr, hpast s hs] at hor
  exact hor

lemma validate_of_strip {bytes payload : List UInt8} {blockAlign : ℕ} {h : MixedExpertHeader}
    (hstrip : strip bytes blockAlign = some (h,payload)) : h.validate payload.length = .ok () := by
  obtain ⟨h',-,hstrip⟩ := Option.bind_eq_some_iff.mp hstrip
  obtain ⟨-,hstrip⟩ := Option.ite_none_left_eq_some.mp hstrip
  dsimp only at hstrip
  cases hvalid : h'.validate (bytes.drop (h'.headerBytes blockAlign)).length with
  | error message =>
    rw [hvalid] at hstrip
    cases hstrip
  | ok valid =>
    rw [hvalid] at hstrip
    cases hstrip
    exact hvalid

end MixedExpertHeader

end Ranges

/-- No sum of `strip` overflows. -/
lemma headerBytes_le {n blockAlign : ℕ} (hn : n ≤ uth2Bytes) (halign : blockAlign ≤ usizeMax) :
    n+(blockAlign-n % blockAlign) % blockAlign ≤ usizeMax := by
  unfold usizeMax uth2Bytes at *
  obtain rfl | hpositive := Nat.eq_zero_or_pos blockAlign
  · simp
    omega
  · obtain hlt | hle := Nat.lt_or_ge n blockAlign
    · rw [Nat.mod_eq_of_lt hlt]
      have hmod := Nat.mod_le (blockAlign-n) blockAlign
      omega
    · have hmod := Nat.mod_lt (blockAlign-n % blockAlign) hpositive
      omega

/-- Both headers are read back as they were written, for every alignment and payload, and what they
are probed from is what they write. -/
theorem headers_round_trip :
    (∀ h : TensorHeader, h.Supported → h.flags &&& uthFlagPageAlignedPayload ≠ 0 →
      TensorHeader.probe h.toBytes = some h ∧ ∀ blockAlign payload,
        TensorHeader.strip (h.writePadded blockAlign []++payload) blockAlign = (some h,payload)) ∧
    (∀ bytes h, TensorHeader.probe bytes = some h → ∀ i<uthBytes, ¬ TensorHeader.Reserved i →
      h.toBytes[i]? = bytes[i]?) ∧
    (∀ dModel dFf gate up down, ∀ h, h = MixedExpertHeader.new dModel dFf gate up down →
      MixedExpertHeader.probe h.toBytes = some h ∧ ∀ blockAlign payload,
        (h.validate payload.length = .ok () →
          MixedExpertHeader.strip (h.writePadded blockAlign []++payload) blockAlign =
            some (h,payload)) ∧
        (h.validate payload.length ≠ .ok () →
          MixedExpertHeader.strip (h.writePadded blockAlign []++payload) blockAlign = none)) ∧
    (∀ bytes h, MixedExpertHeader.probe bytes = some h → ∀ i<uth2Bytes,
      ¬ MixedExpertHeader.Reserved i → h.toBytes[i]? = bytes[i]?) ∧
    (∀ bytes blockAlign h payload, MixedExpertHeader.strip bytes blockAlign = some (h,payload) →
      (∀ range ∈ h.ranges, 0<range.2.len.toNat ∧
        range.2.offset.toNat+range.2.len.toNat ≤ payload.length) ∧
      h.ranges.Pairwise fun r s => r.2.Apart s.2) ∧
    ∀ n ≤ uth2Bytes, ∀ blockAlign ≤ usizeMax,
      n+(blockAlign-n % blockAlign) % blockAlign ≤ usizeMax := by
  refine ⟨fun h hsupported hflag => ⟨?_,TensorHeader.strip_writePadded hsupported hflag⟩,
    fun bytes h hprobe i hi hreserved => TensorHeader.toBytes_of_probe hprobe hi hreserved,?_,
    fun bytes h hprobe i hi hreserved => MixedExpertHeader.toBytes_of_probe hprobe hi hreserved,
    fun bytes blockAlign h payload hstrip =>
      MixedExpertHeader.ranges_of_validate (MixedExpertHeader.validate_of_strip hstrip),
    fun n hn blockAlign halign => headerBytes_le hn halign⟩
  · have hprobe := TensorHeader.probe_toBytes hsupported []
    rwa [List.append_nil] at hprobe
  · rintro dModel dFf gate up down h rfl
    refine ⟨?_,MixedExpertHeader.strip_writePadded rfl rfl⟩
    have hprobe := MixedExpertHeader.probe_toBytes
      (h := MixedExpertHeader.new dModel dFf gate up down) rfl []
    rwa [List.append_nil] at hprobe

/-- Three ranges of different dtypes, two of them listed out of order. -/
def mixedHeader : MixedExpertHeader :=
  .new 8 16 ⟨.q4K,4,4,8⟩ ⟨.q6K,0,4,8⟩ ⟨.bf16,8,2,1⟩

def int8Header : TensorHeader where
  version := 1
  dtype := .int8
  shape := #v[16,8,3,0]
  shapeRank := 3
  quantScaleOffset := 0
  quantScaleCount := 3
  amxTileM := 16
  amxTileN := 16
  amxTileK := 64
  flags := 1

/-- An expert of each kind is read back with a payload of ten bytes and an alignment of 100. -/
theorem headers_round_trip_small :
    TensorHeader.strip (int8Header.writePadded 100 []++[1,2,3,4,5,6,7,8,9,10]) 100 =
      (some int8Header,[1,2,3,4,5,6,7,8,9,10]) ∧
    MixedExpertHeader.strip (mixedHeader.writePadded 100 []++[1,2,3,4,5,6,7,8,9,10]) 100 =
      some (mixedHeader,[1,2,3,4,5,6,7,8,9,10]) := by
  obtain ⟨huth,-,hmixed,-⟩ := headers_round_trip
  refine ⟨(huth int8Header ⟨by decide,by decide⟩ (by decide)).2 100 _,
    ((hmixed 8 16 _ _ _ mixedHeader rfl).2 100 _).1 (by decide +kernel)⟩

end MicroExpertRouter.Storage
