import Mathlib.Data.List.Nodup
import Mathlib.Tactic

/-! Extents of a sequence of bytes, given by where they start and how long they are, and reads of
several extents into buffers at once. -/
namespace MicroExpertRouter.Extents
variable {α β ι : Type}

/-- The bytes of an extent. -/
def read (bytes : List α) (off len : ℕ) : List α := (bytes.drop off).take len

lemma length_read {bytes : List α} {off len : ℕ} (h : off+len ≤ bytes.length) :
    (read bytes off len).length = len := by
  rw [read, List.length_take, List.length_drop]
  omega

/-- What is beyond the extent does not matter. -/
lemma read_take {bytes : List α} {off len k : ℕ} (h : off+len ≤ k) :
    read (bytes.take k) off len = read bytes off len := by
  rw [read, List.drop_take, List.take_take, min_eq_left (by omega), read]

/-- A read is as long as what it reads. -/
lemma read_length_read (bytes : List α) (off n : ℕ) :
    read bytes off (read bytes off n).length = read bytes off n := by
  unfold read
  rw [List.take_eq_take_iff, List.length_take, Nat.min_assoc, Nat.min_self]

lemma read_add (bytes : List α) (off n m : ℕ) :
    read bytes off (n+m) = read bytes off n++read bytes (off+n) m := by
  rw [read, List.take_add, List.drop_drop]
  rfl

/-- Extents that follow each other without a gap. -/
def Contiguous : ℕ → List (ℕ × ℕ) → Prop
  | _, [] => True
  | start, (off,len) :: rest => off = start ∧ Contiguous (start+len) rest

def total (extents : List (ℕ × ℕ)) : ℕ := (extents.map (·.2)).sum

lemma contiguous_concat {start off len : ℕ} {extents : List (ℕ × ℕ)} :
    Contiguous start (extents++[(off,len)]) ↔
      Contiguous start extents ∧ off = start+total extents := by
  induction extents generalizing start with
  | nil => exact ⟨fun h => ⟨trivial,h.1⟩,fun h => ⟨h.2,trivial⟩⟩
  | cons extent rest ih =>
    have htotal : start+extent.2+total rest = start+total (extent :: rest) := by
      rw [total, total, List.map_cons, List.sum_cons, Nat.add_assoc]
    rw [List.cons_append, Contiguous, Contiguous, ih, htotal, and_assoc]

/-- Extents without gaps are read in one piece. -/
lemma Contiguous.read_total {start : ℕ} {extents : List (ℕ × ℕ)} (bytes : List α)
    (h : Contiguous start extents) :
    read bytes start (total extents) = extents.flatMap fun extent => read bytes extent.1 extent.2 := by
  induction extents generalizing start with
  | nil => exact List.take_zero
  | cons extent rest ih =>
    obtain ⟨rfl,hrest⟩ := h
    rw [total, List.map_cons, List.sum_cons, read_add, List.flatMap_cons, ← ih hrest]
    rfl

/-- A buffer with its front replaced. -/
def fill (buffer data : List α) : List α := data.take buffer.length++buffer.drop data.length

lemma length_fill (buffer data : List α) : (fill buffer data).length = buffer.length := by
  rw [fill, List.length_append, List.length_take, List.length_drop]
  omega

lemma fill_of_length_eq {buffer data : List α} (h : data.length = buffer.length) :
    fill buffer data = data := by
  rw [fill, h, List.drop_length, List.append_nil, ← h, List.take_length]

variable [DecidableEq ι]

/-- Data are distributed to buffers, each filled before the next. -/
def scatter : List ι → List α → (ι → List α) → ι → List α
  | [], _, buffers => buffers
  | i :: rest, data, buffers => scatter rest (data.drop (buffers i).length)
      (Function.update buffers i (fill (buffers i) (data.take (buffers i).length)))

lemma length_scatter (targets : List ι) (data : List α) (buffers : ι → List α) (i : ι) :
    (scatter targets data buffers i).length = (buffers i).length := by
  induction targets generalizing data buffers with
  | nil => rfl
  | cons target rest ih =>
    rw [scatter, ih, Function.update_apply]
    split_ifs with h
    · rw [length_fill, h]
    · rfl

lemma scatter_of_notMem {targets : List ι} {i : ι} (h : i ∉ targets) (data : List α)
    (buffers : ι → List α) : scatter targets data buffers i = buffers i := by
  induction targets generalizing data buffers with
  | nil => rfl
  | cons target rest ih =>
    obtain ⟨hne,hrest⟩ := List.ne_and_not_mem_of_not_mem_cons h
    rw [scatter, ih hrest, Function.update_of_ne hne]

/-- Data made of one piece for each buffer reach their buffers. -/
lemma scatter_flatMap {content : β → List α} {members : List (β × ι)} {buffers : ι → List α}
    (hnodup : (members.map (·.2)).Nodup)
    (hlength : ∀ m ∈ members, (content m.1).length = (buffers m.2).length) :
    ∀ m ∈ members, scatter (members.map (·.2)) (members.flatMap fun m => content m.1) buffers m.2 =
      content m.1 := by
  induction members generalizing buffers with
  | nil => exact List.forall_mem_nil _
  | cons head rest ih =>
    obtain ⟨hhead,hrest⟩ := List.forall_mem_cons.mp hlength
    obtain ⟨hnotin,hnodupRest⟩ := List.nodup_cons.mp hnodup
    have hfill : fill (buffers head.2) (content head.1) = content head.1 :=
      fill_of_length_eq hhead
    rw [List.map_cons, List.flatMap_cons, scatter, ← hhead, List.take_left, List.drop_left, hfill]
    refine List.forall_mem_cons.mpr ⟨?_,ih hnodupRest fun m hm => ?_⟩
    · rw [scatter_of_notMem hnotin, Function.update_self]
    · have hne : m.2 ≠ head.2 := fun heq => hnotin (List.mem_map.mpr ⟨m,hm,heq⟩)
      rw [Function.update_of_ne hne]
      exact hrest m hm

end MicroExpertRouter.Extents
