import Mathlib.Tactic

/-! A slab of cells that is read and overwritten in ranges. -/
namespace MicroExpertRouter.Slab
variable {φ : Type*} {slab source : List φ} {offset start length : ℕ}

/-- A range of cells. -/
def read (slab : List φ) (offset length : ℕ) : List φ := (slab.drop offset).take length

/-- Overwrite the cells from an offset on. -/
def write (slab : List φ) (offset : ℕ) (source : List φ) : List φ :=
  slab.take offset++source++slab.drop (offset+source.length)

@[simp] lemma length_write (h : offset+source.length ≤ slab.length) :
    (write slab offset source).length = slab.length := by
  simp only [write, List.length_append, List.length_take, List.length_drop]
  omega

lemma length_read (h : offset+length ≤ slab.length) : (read slab offset length).length = length := by
  simp only [read, List.length_take, List.length_drop]
  omega

lemma read_write (h : offset+source.length ≤ slab.length) :
    read (write slab offset source) offset source.length = source := by
  have htake : (slab.take offset).length = offset := by
    rw [List.length_take]
    omega
  rw [read, write, List.append_assoc, List.drop_left' htake, List.take_left' rfl]

/-- A disjoint range keeps its cells. -/
lemma read_write_disjoint (h : offset+source.length ≤ slab.length)
    (hdisjoint : start+length ≤ offset ∨ offset+source.length ≤ start) :
    read (write slab offset source) start length = read slab start length := by
  apply List.ext_getElem?
  intro i
  simp only [read, write, List.getElem?_take, List.getElem?_drop]
  split_ifs with hi
  · rcases hdisjoint with hbefore | hafter
    · rw [List.append_assoc, List.getElem?_append_left (by rw [List.length_take]; omega),
        List.getElem?_take_of_lt (by omega)]
    · rw [List.getElem?_append_right (by simp only [List.length_append, List.length_take]; omega),
        List.getElem?_drop]
      congr 1
      simp only [List.length_append, List.length_take]
      omega
  · rfl

/-- Growth at the end keeps the cells. -/
lemma read_append (more : List φ) (h : start+length ≤ slab.length) :
    read (slab++more) start length = read slab start length := by
  rw [read, read, List.drop_append_of_le_length (by omega), List.take_append_of_le_length]
  rw [List.length_drop]
  omega

end MicroExpertRouter.Slab
