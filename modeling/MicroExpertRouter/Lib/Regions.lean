import MicroExpertRouter.Lib.Slab
import MicroExpertRouter.Lib.Tiling
import MicroExpertRouter.Lib.Writes

/-! A buffer that tasks fill, each the region it owns. A region is a start and a length. -/
namespace MicroExpertRouter.Regions
variable {α : Type} {write : ℕ → List α → List α} {f : ℕ → α}

/-- A task gets its region, and what it leaves there takes the place of the region. -/
def update (write : ℕ → List α → List α) (buffer : List α) (region : ℕ × ℕ) : List α :=
  Slab.write buffer region.1 (write region.1 (Slab.read buffer region.1 region.2))

/-- The tasks one after the other. -/
def fill (write : ℕ → List α → List α) (regions : List (ℕ × ℕ)) (buffer : List α) : List α :=
  regions.foldl (update write) buffer

/-- The task writes each slot from its place in the buffer alone. -/
def Slotwise (write : ℕ → List α → List α) (f : ℕ → α) : Prop :=
  ∀ start slice, write start slice = (List.range slice.length).map fun i => f (start+i)

/-- The writes of a task that writes slot by slot. -/
def slots (f : ℕ → α) (region : ℕ × ℕ) : List (ℕ × α) :=
  (List.range region.2).map fun i => (region.1+i,f (region.1+i))

/-- Values written in a row. -/
lemma write_eq_writeAll {buffer : List α} {start n : ℕ} (hfits : start+n ≤ buffer.length) :
    Slab.write buffer start ((List.range n).map fun i => f (start+i)) =
      Writes.writeAll buffer ((List.range n).map fun i => (start+i,f (start+i))) := by
  induction n with
  | zero => simp [Slab.write]
  | succ n ih =>
    have hfront : (buffer.take start++(List.range n).map fun i => f (start+i)).length = start+n := by
      rw [List.length_append, List.length_take, List.length_map, List.length_range]
      omega
    have hnext : buffer.drop (start+n) = buffer[start+n]::buffer.drop (start+n+1) :=
      List.drop_eq_getElem_cons (by omega)
    have hset : Writes.writeAll (Slab.write buffer start ((List.range n).map fun i => f (start+i)))
        [(start+n,f (start+n))] = buffer.take start++((List.range n).map fun i => f (start+i))++
          f (start+n)::buffer.drop (start+n+1) := by
      simp only [Writes.writeAll, List.foldl_cons, List.foldl_nil, Slab.write, List.length_map,
        List.length_range]
      rw [hnext, List.set_append_right _ _ hfront.le, hfront, Nat.sub_self, List.set_cons_zero]
    rw [List.range_succ, List.map_append, List.map_append, Writes.writeAll_append, ← ih (by omega),
      List.map_singleton, List.map_singleton, hset, Slab.write]
    simp [Nat.add_assoc]

lemma update_eq (hwrite : Slotwise write f) {buffer : List α} {region : ℕ × ℕ}
    (hfits : region.1+region.2 ≤ buffer.length) :
    update write buffer region = Writes.writeAll buffer (slots f region) := by
  unfold update
  rw [hwrite, Slab.length_read hfits]
  exact write_eq_writeAll hfits

lemma fill_eq (hwrite : Slotwise write f) {regions : List (ℕ × ℕ)} : ∀ {buffer : List α},
    (∀ region ∈ regions, region.1+region.2 ≤ buffer.length) →
      fill write regions buffer = Writes.writeAll buffer (regions.flatMap (slots f)) := by
  induction regions with
  | nil => exact fun _ => rfl
  | cons region regions ih =>
    intro buffer hfits
    obtain ⟨hfirst,hrest⟩ := List.forall_mem_cons.mp hfits
    have hlength : (Writes.writeAll buffer (slots f region)).length = buffer.length :=
      Writes.length_writeAll _ _
    change fill write regions (update write buffer region) = _
    rw [update_eq hwrite hfirst, ih (hlength.symm ▸ hrest), List.flatMap_cons,
      Writes.writeAll_append]

/-- Tasks that write slot by slot fill a buffer alike in any order, when their regions cover it. -/
theorem fill_eq_map (hwrite : Slotwise write f) {regions : List (ℕ × ℕ)} {buffer : List α}
    (hfits : ∀ region ∈ regions, region.1+region.2 ≤ buffer.length)
    (hcover : ∀ n<buffer.length, ∃ region ∈ regions, region.1 ≤ n ∧ n<region.1+region.2) :
    fill write regions buffer = (List.range buffer.length).map f := by
  rw [fill_eq hwrite hfits]
  refine Writes.writeAll_eq_map ?_ fun n hn => ?_
  · intro slot hslot
    obtain ⟨region,-,hslot⟩ := List.mem_flatMap.mp hslot
    obtain ⟨i,-,rfl⟩ := List.mem_map.mp hslot
    rfl
  · obtain ⟨region,hregion,hlow,hhigh⟩ := hcover n hn
    refine List.mem_map.mpr ⟨(n,f n),List.mem_flatMap.mpr ⟨region,hregion,?_⟩,rfl⟩
    refine List.mem_map.mpr ⟨n-region.1,List.mem_range.mpr (by omega),?_⟩
    rw [Nat.add_sub_cancel' hlow]

/-- Regions in a row from the front of the buffer to its end. -/
def Tiled (regions : List (ℕ × ℕ)) (length : ℕ) : Prop :=
  Tiling.Tiles Prod.fst Prod.snd 0 regions length

lemma tiles_le {regions : List (ℕ × ℕ)} {low high : ℕ}
    (h : Tiling.Tiles Prod.fst Prod.snd low regions high) : low ≤ high := by
  induction regions generalizing low with
  | nil => exact Nat.le_of_eq h
  | cons region regions ih => exact (Nat.le_add_right _ _).trans (ih h.2.2)

lemma fits_of_tiles {regions : List (ℕ × ℕ)} {low high : ℕ}
    (h : Tiling.Tiles Prod.fst Prod.snd low regions high) :
    ∀ region ∈ regions, region.1+region.2 ≤ high := by
  induction regions generalizing low with
  | nil => exact List.forall_mem_nil _
  | cons region regions ih =>
    obtain ⟨rfl,-,hrest⟩ := h
    exact List.forall_mem_cons.mpr ⟨tiles_le hrest,ih hrest⟩

/-- The order in which the regions of a tiling are filled does not matter. -/
theorem Tiled.fill_perm (hwrite : Slotwise write f) {regions ran : List (ℕ × ℕ)} {buffer : List α}
    (h : Tiled regions buffer.length) (hran : ran.Perm regions) :
    fill write ran buffer = (List.range buffer.length).map f := by
  refine fill_eq_map hwrite (fun region hregion => ?_) fun n hn => ?_
  · exact fits_of_tiles h region (hran.mem_iff.mp hregion)
  · have hcount := h.countP_covers (Nat.zero_le n) hn
    obtain ⟨region,hregion,hcovers⟩ := List.countP_pos_iff.mp (hcount ▸ Nat.one_pos)
    exact ⟨region,hran.mem_iff.mpr hregion,of_decide_eq_true hcovers⟩

end MicroExpertRouter.Regions
