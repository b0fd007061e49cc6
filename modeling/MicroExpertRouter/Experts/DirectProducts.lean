import MicroExpertRouter.Experts.DirectQ8
import MicroExpertRouter.Lib.Clipped

/-! The products of the direct execution: a row of whole blocks and a run of blocks over several rows
both give the product of the matrix that is decoded, and read nothing outside of it. -/
namespace MicroExpertRouter.Experts
open scoped BigOperators
open Quant (Ggml.floatAt Ggml.signed part byteAt divCeil slice ownWeight)
open RowMajor (entry product)

section Loops
variable {ε σ : Type}

/-- A loop that keeps an invariant under which its turns succeed. -/
lemma foldlM_ok_of {α : Type} {f : σ → α → Except ε σ} {g : σ → α → σ} {P : σ → Prop} {l : List α}
    (h : ∀ x ∈ l, ∀ s, P s → f s x = .ok (g s x) ∧ P (g s x)) {s : σ} (hs : P s) :
    l.foldlM f s = .ok (l.foldl g s) ∧ P (l.foldl g s) := by
  induction l generalizing s with
  | nil => exact ⟨rfl,hs⟩
  | cons x l ih =>
    obtain ⟨hx,hrest⟩ := List.forall_mem_cons.mp h
    obtain ⟨hok,hnext⟩ := hx s hs
    rw [List.foldlM_cons, hok]
    exact ih hrest hnext

/-- A loop over blocks of 32 is one over their elements. -/
lemma foldlM_blocks {turn : σ → ℕ → Except ε σ} {f : σ → ℕ → σ} {count : ℕ}
    (hturn : ∀ k ∈ List.range count, ∀ s,
      turn s k = .ok ((List.range 32).foldl (fun s i => f s (k*32+i)) s)) (s : σ) :
    (List.range count).foldlM turn s = .ok ((List.range (count*32)).foldl f s) := by
  rw [foldlM_ok hturn, ← Chunks.flatMap_range, List.foldl_flatMap]
  simp only [List.foldl_map]

lemma foldl_add_range (f : ℕ → ℚ) (n : ℕ) (s : ℚ) :
    (List.range n).foldl (fun s i => s+f i) s = s+∑ i ∈ Finset.range n, f i := by
  induction n with
  | zero => simp
  | succ n ih =>
    rw [List.range_succ, List.foldl_append, ih, Finset.sum_range_succ, ← add_assoc]
    rfl

lemma foldl_pair_range (f g : ℕ → ℚ) (n : ℕ) : ∀ s : ℚ × ℚ,
    (List.range n).foldl (fun s i => (s.1+f i,s.2+g i)) s =
      ((List.range n).foldl (fun s i => s+f i) s.1,(List.range n).foldl (fun s i => s+g i) s.2) := by
  induction n with
  | zero => exact fun s => rfl
  | succ n ih =>
    intro s
    simp only [List.range_succ, List.foldl_append, ih]
    rfl

end Loops

section Blocks
variable {half : UInt16 → ℚ} {block : List UInt8}

lemma readAt_byte {i : ℕ} (h : i<block.length) : readAt block i = .ok (byteAt block i) := by
  simp [readAt, okOr, byteAt, h]

lemma readAt_entry {x : List ℚ} {i : ℕ} (h : i<x.length) : readAt x i = .ok (entry x i) := by
  simp [readAt, okOr, entry, h]

lemma blockScale_ok (h : block.length = 34) :
    blockScale half block = .ok (Ggml.floatAt half block 0) := by
  unfold blockScale
  rw [readAt_byte (by omega), readAt_byte (by omega)]
  rfl

lemma signedAt_ok (h : block.length = 34) {i : ℕ} (hi : i<32) :
    signedAt block i = .ok (Ggml.signed (byteAt block (2+i)) : ℚ) := by
  unfold signedAt
  rw [readAt_byte (by omega), ← Quant.toInt_toInt8]
  rfl

end Blocks

section Rows
variable {half : UInt16 → ℚ} {src : List UInt8} {x : List ℚ} {count : ℕ}

lemma chunksExact_eq {α : Type} {n : ℕ} {xs : List α} (hn : 0<n) (h : xs.length = count*n) :
    chunksExact n xs = (List.range count).map fun k => (xs.drop (k*n)).take n := by
  rw [chunksExact, h, Nat.mul_div_cancel _ hn]

lemma length_block {k : ℕ} (h : src.length = count*34) (hk : k<count) :
    (part src (k*34) 34).length = 34 := by
  rw [Quant.length_part]
  omega

/-- A weight by its block and its place in it. -/
lemma ownWeight_block {k i : ℕ} (hi : i<32) : ownWeight half .q8_0 src (k*32+i) =
    Ggml.floatAt half (part src (k*34) 34) 0*Ggml.signed (byteAt (part src (k*34) 34) (2+i)) := by
  have hdiv : (k*32+i)/32 = k := by omega
  have hmod : (k*32+i) % 32 = i := by omega
  unfold ownWeight Quant.blockWeight Quant.GgmlDType.blockSize Quant.GgmlDType.typeSize
  dsimp only
  rw [hdiv, hmod]
  rfl

lemma readAt_chunk {k i : ℕ} (h : x.length = count*32) (hk : k<count) (hi : i<32) :
    readAt ((x.drop (k*32)).take 32) i = .ok (entry x (k*32+i)) := by
  rw [readAt, List.getElem?_take_of_lt hi, List.getElem?_drop]
  exact readAt_entry (by omega)

/-- The term of an element of a row. -/
def rowTerm (half : UInt16 → ℚ) (src : List UInt8) (x : List ℚ) (n : ℕ) : ℚ :=
  ownWeight half .q8_0 src n*entry x n

theorem q8_0RowDotScalar_ok (hsrc : src.length = count*34) (hx : x.length = count*32) :
    q8_0RowDotScalar half src x = .ok (∑ n ∈ Finset.range (count*32), rowTerm half src x n) := by
  unfold q8_0RowDotScalar
  rw [chunksExact_eq (by decide) hsrc, chunksExact_eq (by decide) hx, List.zip_map', List.foldlM_map,
    foldlM_blocks (f := fun s n => s+rowTerm half src x n), foldl_add_range, zero_add]
  intro k hk s
  have hlt := List.mem_range.mp hk
  have hblock := length_block hsrc hlt
  change (blockScale half (part src (k*34) 34)).bind _ = _
  rw [blockScale_ok hblock]
  refine foldlM_ok (fun i hi s => ?_) s
  have hplace := List.mem_range.mp hi
  change (signedAt (part src (k*34) 34) i).bind _ = _
  rw [signedAt_ok hblock hplace]
  change (readAt ((x.drop (k*32)).take 32) i).bind _ = _
  rw [readAt_chunk hx hlt hplace, rowTerm, ownWeight_block hplace]
  rfl

theorem q8_0GateUpRowScalar_ok {gate up : List UInt8} (hgate : gate.length = count*34)
    (hup : up.length = count*34) (hx : x.length = count*32) :
    q8_0GateUpRowScalar half gate up x = .ok (∑ n ∈ Finset.range (count*32), rowTerm half gate x n,
      ∑ n ∈ Finset.range (count*32), rowTerm half up x n) := by
  unfold q8_0GateUpRowScalar
  rw [chunksExact_eq (by decide) hgate, chunksExact_eq (by decide) hup,
    chunksExact_eq (by decide) hx, List.zip_map', List.zip_map', List.foldlM_map,
    foldlM_blocks (f := fun s n => (s.1+rowTerm half gate x n,s.2+rowTerm half up x n)),
    foldl_pair_range, foldl_add_range, foldl_add_range, zero_add, zero_add]
  intro k hk s
  have hlt := List.mem_range.mp hk
  have hgateBlock := length_block hgate hlt
  have hupBlock := length_block hup hlt
  change (blockScale half (part gate (k*34) 34)).bind _ = _
  rw [blockScale_ok hgateBlock]
  change (blockScale half (part up (k*34) 34)).bind _ = _
  rw [blockScale_ok hupBlock]
  refine foldlM_ok (fun i hi s => ?_) s
  have hplace := List.mem_range.mp hi
  change (readAt ((x.drop (k*32)).take 32) i).bind _ = _
  rw [readAt_chunk hx hlt hplace]
  change (signedAt (part gate (k*34) 34) i).bind _ = _
  rw [signedAt_ok hgateBlock hplace]
  change (signedAt (part up (k*34) 34) i).bind _ = _
  rw [signedAt_ok hupBlock hplace, rowTerm, rowTerm, ownWeight_block hplace, ownWeight_block hplace]
  rfl

end Rows

section Flat
variable {half : UInt16 → ℚ} {src : List UInt8} {x y : List ℚ} {rows cols : ℕ}

/-- An element is added to the entry of its row. -/
def addTerm (half : UInt16 → ℚ) (src : List UInt8) (x : List ℚ) (cols : ℕ) (y : List ℚ) (n : ℕ) :
    List ℚ :=
  y.modify (n/cols) (·+ownWeight half .q8_0 src n*entry x (n % cols))

lemma length_foldl_addTerm (places : List ℕ) :
    (places.foldl (addTerm half src x cols) y).length = y.length := by
  induction places generalizing y with
  | nil => rfl
  | cons n places ih => exact ih.trans (List.length_modify _ _ _)

/-- The elements of a block that are weights. -/
lemma part_eq_map (weights k : ℕ) : Clipped.part 0 (0+weights) 32 k =
    (List.range (min (weights-k*32) 32)).map (k*32+·) := by
  rw [Clipped.part, List.range'_eq_map_range, Nat.zero_max, Nat.zero_add]
  congr 2
  omega

/-- The turn for a block: all its weights are in the matrix, also where its elements are more. -/
lemma flatTurn_ok {k : ℕ} (hsrc : src.length = divCeil (rows*cols) 32*34) (hx : x.length = cols)
    (hk : k<divCeil (rows*cols) 32) (hcols : 0<cols) (hy : y.length = rows) :
    (do
      let scale ← blockScale half (part src (k*34) 34)
      let rest ← okOr (checkedSub (rows*cols) (k*32)) .panic
      (List.range (min rest 32)).foldlM (fun y i => do
        let q ← signedAt (part src (k*34) 34) i
        let activation ← readAt x ((k*32+i) % cols)
        addAt y ((k*32+i)/cols) (scale*q*activation)) y) =
      Except.ok ((Clipped.part 0 (0+rows*cols) 32 k).foldl (addTerm half src x cols) y) := by
  have hblock := length_block hsrc hk
  have hbase : k*32 ≤ rows*cols := by
    unfold divCeil at hk
    omega
  rw [blockScale_ok hblock, checkedSub_of_le hbase, part_eq_map, List.foldl_map]
  refine (foldlM_ok_of (P := fun y => y.length = rows) (fun i hi y hy => ⟨?_,?_⟩) hy).1
  · have hplace := List.mem_range.mp hi
    have hrow : (k*32+i)/cols<y.length := by
      rw [hy]
      exact Nat.div_lt_of_lt_mul (by rw [Nat.mul_comm cols]; omega)
    change (signedAt (part src (k*34) 34) i).bind _ = _
    rw [signedAt_ok hblock (by omega)]
    change (readAt x ((k*32+i) % cols)).bind _ = _
    rw [readAt_entry (by rw [hx]; exact Nat.mod_lt _ hcols)]
    change addAt y ((k*32+i)/cols) _ = _
    rw [addAt, if_pos hrow, addTerm, ownWeight_block (by omega)]
  · exact (List.length_modify _ _ _).trans hy

theorem q8_0MatvecScalarFlat_ok (hsrc : src.length = divCeil (rows*cols) 32*34)
    (hx : x.length = cols) (hy : y.length = rows) (hrows : 0<rows) (hcols : 0<cols) :
    q8_0MatvecScalarFlat half src rows cols x y =
      .ok (product rows cols (ownWeight half .q8_0 src) x) := by
  have hindexed : ((List.range (divCeil (rows*cols) 32)).map
      fun k => (src.drop (k*34)).take 34).zipIdx =
        (List.range (divCeil (rows*cols) 32)).map fun k => ((src.drop (k*34)).take 34,k) := by
    have h := Quant.zipIdx_map_range (fun k => (src.drop (k*34)).take 34) id
      (divCeil (rows*cols) 32)
    rwa [List.map_id] at h
  have hblocks : (0+rows*cols-1)/32+1-0/32 = divCeil (rows*cols) 32 := by
    have hpos := Nat.mul_pos hrows hcols
    unfold divCeil
    omega
  have hplaces := @Clipped.flatMap_parts 0 (rows*cols) 32 (by decide) (Nat.mul_pos hrows hcols)
  rw [hblocks, Nat.zero_div, ← List.range_eq_range', ← List.range_eq_range'] at hplaces
  have hloop := foldlM_ok_of (P := fun y : List ℚ => y.length = rows)
    (g := fun y k => (Clipped.part 0 (0+rows*cols) 32 k).foldl (addTerm half src x cols) y)
    (l := List.range (divCeil (rows*cols) 32))
    (fun k hk y hy => ⟨flatTurn_ok hsrc hx (List.mem_range.mp hk) hcols hy,
      (length_foldl_addTerm _).trans hy⟩) (s := List.replicate rows 0) List.length_replicate
  unfold q8_0MatvecScalarFlat
  dsimp only
  rw [chunksExact_eq (by decide) hsrc, hindexed, List.foldlM_map, hy]
  refine hloop.1.trans ?_
  rw [← List.foldl_flatMap, hplaces, ← RowMajor.accumulate_product, Writes.accumulate, List.foldl_map]
  rfl

end Flat

end MicroExpertRouter.Experts
