import Mathlib.Tactic

/-! A loop over a range, cut into blocks of one size: the first and the last block are clipped to
the range. -/
namespace MicroExpertRouter.Clipped

/-- The part of a range that lies in a block. -/
def part (start stop size block : ℕ) : List ℕ :=
  List.range' (max start (block*size)) (min stop (block*size+size)-max start (block*size))

lemma mem_part {start stop size block n : ℕ} (h : n ∈ part start stop size block) :
    start ≤ n ∧ n<stop ∧ block*size ≤ n ∧ n<block*size+size := by
  obtain ⟨hlow,hhigh⟩ := List.mem_range'_1.mp h
  omega

/-- Two ranges in a row. -/
lemma range'_append_part {start stop size block : ℕ} (hstart : start ≤ block*size) :
    List.range' start (min stop (block*size)-start)++part start stop size block
      = List.range' start (min stop (block*size+size)-start) := by
  have hmax : max start (block*size) = block*size := max_eq_right hstart
  rw [part, hmax]
  by_cases hstop : stop ≤ block*size
  · have hempty : min stop (block*size+size)-block*size = 0 := by omega
    have hall : min stop (block*size+size) = min stop (block*size) := by omega
    rw [hempty, hall, List.range'_zero, List.append_nil]
  · have hfull : min stop (block*size) = block*size := by omega
    have hnext : start+1*(block*size-start) = block*size := by omega
    have hsum : block*size-start+(min stop (block*size+size)-block*size)
        = min stop (block*size+size)-start := by omega
    rw [hfull, ← hsum, ← List.range'_append, hnext]

/-- The blocks from the one of the start on. -/
lemma flatMap_part {start stop size : ℕ} (hsize : 0<size) (count : ℕ) :
    (List.range' (start/size) (count+1)).flatMap (part start stop size)
      = List.range' start (min stop ((start/size+count)*size+size)-start) := by
  have hlow : start/size*size ≤ start := Nat.div_mul_le_self start size
  have hhigh : start<start/size*size+size := by
    have := Nat.lt_div_mul_add hsize (a := start)
    omega
  induction count with
  | zero =>
    rw [Nat.zero_add, List.range'_one, List.flatMap_singleton, part, max_eq_left hlow, Nat.add_zero]
  | succ count ih =>
    have hblock : start ≤ (start/size+(count+1))*size := by
      rw [Nat.add_mul]
      have : size ≤ (count+1)*size := Nat.le_mul_of_pos_left size (Nat.succ_pos count)
      omega
    have hjoin : (start/size+count)*size+size = (start/size+(count+1))*size := by
      rw [← Nat.add_assoc, Nat.succ_mul]
    rw [List.range'_concat, List.flatMap_append, ih, List.flatMap_singleton, Nat.one_mul, hjoin]
    exact range'_append_part hblock

/-- The blocks that a nonempty range meets. -/
theorem flatMap_parts {start len size : ℕ} (hsize : 0<size) (hlen : 0<len) :
    (List.range' (start/size) ((start+len-1)/size+1-start/size)).flatMap
      (part start (start+len) size) = List.range' start len := by
  have hle : start/size ≤ (start+len-1)/size := Nat.div_le_div_right (by omega)
  have hlast : start+len-1<(start+len-1)/size*size+size := Nat.lt_div_mul_add hsize
  have hcount : (start+len-1)/size+1-start/size = (start+len-1)/size-start/size+1 := by omega
  rw [hcount, flatMap_part hsize, Nat.add_sub_cancel' hle]
  congr 1
  omega

end MicroExpertRouter.Clipped
