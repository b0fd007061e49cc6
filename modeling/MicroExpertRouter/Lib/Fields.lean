import MicroExpertRouter.Lib.Slab

/-! Little-endian numbers, and buffers that are filled field by field at fixed offsets. -/
namespace MicroExpertRouter

namespace Le

/-- The lowest `k` bytes, the lowest first. -/
def encode : ℕ → ℕ → List UInt8
  | 0, _ => []
  | k+1, n => UInt8.ofNat n::encode k (n/256)

def decode (bytes : List UInt8) : ℕ := bytes.foldr (fun b rest => b.toNat+256*rest) 0

/-- Numbers of one width in a row. -/
def encodeAll (k : ℕ) (xs : List ℕ) : List UInt8 := xs.flatMap (encode k)

@[simp] lemma length_encode (k : ℕ) : ∀ n, (encode k n).length = k := by
  induction k with
  | zero => exact fun _ => rfl
  | succ k ih => exact fun n => congrArg Nat.succ (ih (n/256))

lemma decode_cons (b : UInt8) (bytes : List UInt8) :
    decode (b::bytes) = b.toNat+256*decode bytes := rfl

lemma decode_lt (bytes : List UInt8) : decode bytes<256^bytes.length := by
  induction bytes with
  | nil => exact Nat.one_pos
  | cons b bytes ih =>
    have hb : b.toNat<256 := b.toNat_lt
    rw [decode_cons, List.length_cons, Nat.pow_succ]
    omega

lemma decode_encode (k : ℕ) : ∀ {n : ℕ}, n<256^k → decode (encode k n) = n := by
  induction k with
  | zero =>
    intro n h
    exact (Nat.lt_one_iff.mp h).symm
  | succ k ih =>
    intro n h
    have hrest : n/256<256^k := by
      rw [Nat.pow_succ] at h
      omega
    have hfirst : (UInt8.ofNat n).toNat = n % 256 := UInt8.toNat_ofNat'
    rw [encode, decode_cons, ih hrest, hfirst]
    omega

lemma encode_decode (bytes : List UInt8) : encode bytes.length (decode bytes) = bytes := by
  induction bytes with
  | nil => rfl
  | cons b bytes ih =>
    have hb : b.toNat<256 := b.toNat_lt
    have hrest : (b.toNat+256*decode bytes)/256 = decode bytes := by omega
    have hfirst : UInt8.ofNat (b.toNat+256*decode bytes) = b := by
      apply UInt8.toNat_inj.mp
      rw [UInt8.toNat_ofNat']
      omega
    rw [List.length_cons, encode, decode_cons, hfirst, hrest, ih]

lemma encodeAll_cons (k x : ℕ) (xs : List ℕ) :
    encodeAll k (x::xs) = encode k x++encodeAll k xs := List.flatMap_cons

lemma length_encodeAll (k : ℕ) (xs : List ℕ) : (encodeAll k xs).length = k*xs.length := by
  induction xs with
  | nil => rfl
  | cons x xs ih =>
    rw [encodeAll_cons, List.length_append, length_encode, ih, List.length_cons, Nat.mul_succ,
      Nat.add_comm]

end Le

namespace Fields
variable {β : Type}

/-- A number in a buffer. -/
def readLe (buf : List UInt8) (off k : ℕ) : ℕ := Le.decode (Slab.read buf off k)

/-- A field and where it goes. -/
def store (buf : List β) (field : ℕ × List β) : List β := Slab.write buf field.1 field.2

/-- The field lies inside a buffer of this length. -/
def Within (length : ℕ) (field : ℕ × List β) : Prop := field.1+field.2.length ≤ length

/-- The first field ends before the second begins. -/
def Before (first second : ℕ × List β) : Prop := first.1+first.2.length ≤ second.1

/-- Fields stand in order when their offsets and lengths do. -/
lemma pairwise_before {fields : List (ℕ × List β)} {spans : List (ℕ × ℕ)}
    (hspans : (fields.map fun field => (field.1,field.2.length)) = spans)
    (h : spans.Pairwise fun first second => first.1+first.2 ≤ second.1) : fields.Pairwise Before := by
  rw [← hspans, List.pairwise_map] at h
  exact h

/-- The place belongs to the field. -/
def Covers (field : ℕ × List β) (i : ℕ) : Prop := field.1 ≤ i ∧ i<field.1+field.2.length

variable {buf : List β} {field : ℕ × List β} {off n i : ℕ}

lemma getElem?_read (h : i<n) : (Slab.read buf off n)[i]? = buf[off+i]? := by
  rw [Slab.read, List.getElem?_take_of_lt h, List.getElem?_drop]

lemma length_store (h : Within buf.length field) : (store buf field).length = buf.length :=
  Slab.length_write h

lemma getElem?_store (h : Within buf.length field) (i : ℕ) : (store buf field)[i]? =
    if i<field.1 then buf[i]?
    else if i<field.1+field.2.length then field.2[i-field.1]?
    else buf[i]? := by
  unfold Within at h
  have htake : (buf.take field.1).length = field.1 := List.length_take_of_le (by omega)
  unfold store Slab.write
  rw [List.append_assoc]
  split_ifs with hbefore hinside
  · rw [List.getElem?_append_left (by omega), List.getElem?_take_of_lt hbefore]
  · rw [List.getElem?_append_right (by omega), htake, List.getElem?_append_left (by omega)]
  · rw [List.getElem?_append_right (by omega), htake, List.getElem?_append_right (by omega),
      List.getElem?_drop]
    congr 1
    omega

lemma getElem?_store_of_covers (h : Within buf.length field) (hi : Covers field i) :
    (store buf field)[i]? = field.2[i-field.1]? := by
  rw [getElem?_store h, if_neg (Nat.not_lt.mpr hi.1), if_pos hi.2]

lemma getElem?_store_of_not (h : Within buf.length field) (hi : ¬ Covers field i) :
    (store buf field)[i]? = buf[i]? := by
  rw [getElem?_store h]
  unfold Covers at hi
  split_ifs with hbefore hinside
  · rfl
  · omega
  · rfl

section Stored
variable {fields : List (ℕ × List β)}

lemma length_stored (fields : List (ℕ × List β)) :
    ∀ {buf : List β}, (∀ field ∈ fields, Within buf.length field) →
      (fields.foldl store buf).length = buf.length := by
  induction fields with
  | nil => exact fun _ => rfl
  | cons field fields ih =>
    intro buf hwithin
    have hlength := length_store (hwithin field List.mem_cons_self)
    rw [List.foldl_cons, ih fun other hother => ?_, hlength]
    rw [hlength]
    exact hwithin other (List.mem_cons_of_mem field hother)

/-- A stretch before all fields is left alone. -/
lemma read_stored_of_before (fields : List (ℕ × List β)) :
    ∀ {buf : List β}, (∀ field ∈ fields, Within buf.length field) →
      (∀ field ∈ fields, off+n ≤ field.1) →
      Slab.read (fields.foldl store buf) off n = Slab.read buf off n := by
  induction fields with
  | nil => exact fun _ _ => rfl
  | cons field fields ih =>
    intro buf hwithin hbefore
    have hfirst := hwithin field List.mem_cons_self
    rw [List.foldl_cons, ih (fun other hother => ?_) fun other hother =>
      hbefore other (List.mem_cons_of_mem field hother)]
    · exact Slab.read_write_disjoint hfirst (.inl (hbefore field List.mem_cons_self))
    · rw [length_store hfirst]
      exact hwithin other (List.mem_cons_of_mem field hother)

/-- Fields in order do not overwrite each other. -/
lemma read_stored (fields : List (ℕ × List β)) :
    ∀ {buf : List β}, (∀ field ∈ fields, Within buf.length field) → fields.Pairwise Before →
      ∀ field ∈ fields, Slab.read (fields.foldl store buf) field.1 field.2.length = field.2 := by
  induction fields with
  | nil => exact fun _ _ _ hmem => absurd hmem List.not_mem_nil
  | cons first fields ih =>
    intro buf hwithin horder field hmem
    obtain ⟨hfirst,horder⟩ := List.pairwise_cons.mp horder
    have hhead := hwithin first List.mem_cons_self
    have hrest : ∀ other ∈ fields, Within (store buf first).length other := by
      intro other hother
      rw [length_store hhead]
      exact hwithin other (List.mem_cons_of_mem first hother)
    rw [List.foldl_cons]
    obtain rfl | htail := List.mem_cons.mp hmem
    · rw [read_stored_of_before fields hrest hfirst]
      exact Slab.read_write hhead
    · exact ih hrest horder field htail

/-- Fields that agree with another buffer make their places agree with it. -/
lemma getElem?_stored_of_agree {other : List β} (fields : List (ℕ × List β)) :
    ∀ {buf : List β}, (∀ field ∈ fields, Within buf.length field) →
      (∀ field ∈ fields, field.2 = Slab.read other field.1 field.2.length) →
      (buf[i]? = other[i]? ∨ ∃ field ∈ fields, Covers field i) →
      (fields.foldl store buf)[i]? = other[i]? := by
  induction fields with
  | nil =>
    rintro buf - - (h | ⟨field,hmem,-⟩)
    · exact h
    · exact absurd hmem List.not_mem_nil
  | cons first fields ih =>
    intro buf hwithin hagree h
    have hhead := hwithin first List.mem_cons_self
    rw [List.foldl_cons]
    refine ih (fun field hmem => ?_) (fun field hmem => hagree field (List.mem_cons_of_mem first hmem))
      ?_
    · rw [length_store hhead]
      exact hwithin field (List.mem_cons_of_mem first hmem)
    · by_cases hcovers : Covers first i
      · refine .inl ?_
        have hi : i-first.1<first.2.length := Nat.sub_lt_left_of_lt_add hcovers.1 hcovers.2
        rw [getElem?_store_of_covers hhead hcovers, hagree first List.mem_cons_self,
          getElem?_read hi, Nat.add_sub_cancel' hcovers.1]
      · obtain hbuf | ⟨field,hmem,hcovered⟩ := h
        · rw [getElem?_store_of_not hhead hcovers]
          exact .inl hbuf
        · obtain rfl | htail := List.mem_cons.mp hmem
          · exact absurd hcovered hcovers
          · exact .inr ⟨field,htail,hcovered⟩

end Stored

lemma readLe_lt (buf : List UInt8) (off k : ℕ) : readLe buf off k<256^k :=
  (Le.decode_lt _).trans_le (Nat.pow_le_pow_right (by decide) (List.length_take_le _ _))

/-- Stretches one after the other. -/
lemma take_append_read (buf : List β) (m n : ℕ) :
    buf.take m++Slab.read buf m n = buf.take (m+n) := (List.take_add).symm

/-- A number that is stored again. -/
lemma encode_readLe {buf : List UInt8} {off k : ℕ} (h : off+k ≤ buf.length) :
    Le.encode k (readLe buf off k) = Slab.read buf off k := by
  have hlength := Slab.length_read h
  rw [readLe]
  nth_rewrite 1 [← hlength]
  exact Le.encode_decode _

/-- A number that comes next in a buffer, and what follows it. -/
lemma readLe_next {buf after : List UInt8} {off k x : ℕ} (hx : x<256^k)
    (h : buf.drop off = Le.encode k x++after) :
    readLe buf off k = x ∧ buf.drop (off+k) = after := by
  constructor
  · rw [readLe, Slab.read, h, List.take_append_of_le_length (Le.length_encode k x).ge,
      List.take_of_length_le (Le.length_encode k x).le, Le.decode_encode k hx]
  · rw [← List.drop_drop, h, List.drop_left' (Le.length_encode k x)]

section Rows
variable {buf : List UInt8} {off k n : ℕ}

/-- Numbers of one width in a row. -/
def readAll (buf : List UInt8) (k : ℕ) : ℕ → ℕ → List ℕ
  | _, 0 => []
  | off, n+1 => readLe buf off k::readAll buf k (off+k) n

lemma length_readAll (n : ℕ) : ∀ off, (readAll buf k off n).length = n := by
  induction n with
  | zero => exact fun _ => rfl
  | succ n ih => exact fun off => congrArg Nat.succ (ih (off+k))

lemma readAll_lt (n : ℕ) : ∀ off, ∀ x ∈ readAll buf k off n, x<256^k := by
  induction n with
  | zero => exact fun _ => List.forall_mem_nil _
  | succ n ih => exact fun off => List.forall_mem_cons.mpr ⟨readLe_lt buf off k,ih (off+k)⟩

/-- A row that is stored again. -/
lemma encodeAll_readAll (n : ℕ) : ∀ {off}, off+k*n ≤ buf.length →
    Le.encodeAll k (readAll buf k off n) = Slab.read buf off (k*n) := by
  induction n with
  | zero =>
    intro off _
    rw [Nat.mul_zero, Slab.read, List.take_zero]
    rfl
  | succ n ih =>
    intro off h
    rw [Nat.mul_succ] at h
    rw [readAll, Le.encodeAll_cons, encode_readLe (by omega), ih (by omega), Nat.mul_succ,
      Nat.add_comm (k*n), Slab.read, Slab.read, Slab.read, List.take_add, List.drop_drop]

/-- A row that comes next in a buffer, and what follows it. -/
lemma readAll_next {xs : List ℕ} {after : List UInt8} (hxs : ∀ x ∈ xs, x<256^k) :
    ∀ {off}, buf.drop off = Le.encodeAll k xs++after →
      readAll buf k off xs.length = xs ∧ buf.drop (off+k*xs.length) = after := by
  induction xs with
  | nil => exact fun h => ⟨rfl,h⟩
  | cons x xs ih =>
    intro off h
    obtain ⟨hx,hxs⟩ := List.forall_mem_cons.mp hxs
    rw [Le.encodeAll_cons, List.append_assoc] at h
    obtain ⟨hhead,hrest⟩ := readLe_next hx h
    obtain ⟨htail,hafter⟩ := ih hxs hrest
    refine ⟨?_,?_⟩
    · rw [List.length_cons, readAll, hhead, htail]
    · rw [List.length_cons, Nat.mul_succ, Nat.add_comm (k*xs.length), ← Nat.add_assoc]
      exact hafter

end Rows

end Fields

end MicroExpertRouter
