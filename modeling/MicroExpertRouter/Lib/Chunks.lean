import Mathlib.Tactic

/-! Lists of chunks of one length, and the chunks of a list. -/
namespace Chunks
variable {α : Type*}

/-- The chunk of a place. -/
def share (all : List α) (size index : ℕ) : List α := (all.drop (index*size)).take size

lemma length_share {all : List α} {size index count : ℕ} (hindex : index<count)
    (hall : count*size ≤ all.length) : (share all size index).length = size := by
  have hlast : (index+1)*size ≤ count*size := Nat.mul_le_mul_right size hindex
  have hnext : (index+1)*size = index*size+size := Nat.succ_mul index size
  rw [share, List.length_take, List.length_drop]
  omega

section Flatten
variable {chunks : List (List α)} {n : ℕ}

lemma length_flatten (h : ∀ chunk ∈ chunks, chunk.length = n) :
    chunks.flatten.length = chunks.length*n := by
  induction chunks with
  | nil => simp
  | cons chunk chunks ih =>
    obtain ⟨hchunk,hrest⟩ := List.forall_mem_cons.mp h
    rw [List.flatten_cons, List.length_append, hchunk, ih hrest, List.length_cons, Nat.succ_mul,
      Nat.add_comm]

/-- A place in the flattened list is a place in a chunk. -/
lemma getElem?_flatten (h : ∀ chunk ∈ chunks, chunk.length = n) {chunk : List α} {k i : ℕ}
    (hchunk : chunks[k]? = some chunk) (hi : i<n) : chunks.flatten[k*n+i]? = chunk[i]? := by
  induction chunks generalizing k with
  | nil => cases hchunk
  | cons first rest ih =>
    obtain ⟨hfirst,hrest⟩ := List.forall_mem_cons.mp h
    rw [List.flatten_cons]
    cases k with
    | zero =>
      obtain rfl : first = chunk := by simpa using hchunk
      rw [Nat.zero_mul, Nat.zero_add, List.getElem?_append_left (by omega)]
    | succ k =>
      have hplace : (k+1)*n+i-first.length = k*n+i := by
        rw [hfirst, Nat.succ_mul]
        omega
      rw [List.getElem?_append_right (by rw [hfirst, Nat.succ_mul]; omega), hplace]
      exact ih hrest (by simpa using hchunk)

/-- The chunks of a flattened list, whatever follows it. -/
lemma share_flatten (h : ∀ chunk ∈ chunks, chunk.length = n) {chunk : List α} {k : ℕ}
    (hchunk : chunks[k]? = some chunk) (rest : List α) :
    share (chunks.flatten++rest) n k = chunk := by
  induction chunks generalizing k with
  | nil => cases hchunk
  | cons first chunks ih =>
    obtain ⟨hfirst,hrest⟩ := List.forall_mem_cons.mp h
    rw [List.flatten_cons, List.append_assoc]
    cases k with
    | zero =>
      obtain rfl : first = chunk := by simpa using hchunk
      rw [share, Nat.zero_mul, List.drop_zero, List.take_left' hfirst]
    | succ k =>
      rw [share, Nat.succ_mul, Nat.add_comm, ← List.drop_drop, List.drop_left' hfirst]
      exact ih hrest (by simpa using hchunk)

end Flatten

lemma getElem?_map_range {n i : ℕ} (f : ℕ → α) (h : i<n) :
    ((List.range n).map f)[i]? = some (f i) := by
  rw [List.getElem?_map, List.getElem?_range h, Option.map_some]

/-- Nothing is left out, so every place stays. -/
lemma getElem?_filterMap {β : Type*} {f : α → Option β} {xs : List α} (h : ∀ x ∈ xs, (f x).isSome)
    (i : ℕ) : (xs.filterMap f)[i]? = xs[i]?.bind f := by
  induction xs generalizing i with
  | nil => rfl
  | cons x xs ih =>
    obtain ⟨hx,hrest⟩ := List.forall_mem_cons.mp h
    obtain ⟨y,hy⟩ := Option.isSome_iff_exists.mp hx
    rw [List.filterMap_cons_some hy]
    cases i with
    | zero => exact hy.symm
    | succ i => simpa using ih hrest i

/-- The places of all chunks in order. -/
lemma flatMap_range (count n : ℕ) :
    ((List.range count).flatMap fun k => (List.range n).map (k*n+·)) = List.range (count*n) := by
  induction count with
  | zero => simp
  | succ count ih =>
    rw [List.range_succ, List.flatMap_append, ih, List.flatMap_singleton, Nat.succ_mul,
      List.range_add]

/-- Every place is in a chunk. -/
lemma exists_place {count n i : ℕ} (h : i<count*n) : ∃ k, k<count ∧ ∃ j, j<n ∧ i = k*n+j := by
  have hn : 0<n := Nat.pos_of_lt_mul_left h
  exact ⟨i/n,Nat.div_lt_of_lt_mul (by rwa [Nat.mul_comm]),i % n,Nat.mod_lt i hn,
    (Nat.div_add_mod' i n).symm⟩

end Chunks
