import Mathlib.Algebra.Order.Floor.Div
import MicroExpertRouter.DenseTensor.Heads
import MicroExpertRouter.Lib.Regions

/-! `par_row_chunks` of `parallel.rs`: rows of an output handed out in chunks to the thread pool. -/
namespace MicroExpertRouter.Parallel
open DenseTensor (Pool minTotalForParallel minElemsPerTask)
open Regions (Slotwise Tiled fill)

/-- The length of a chunk, when the work is worth a fan-out. -/
def chunkLength (pool : Pool) (rows cols : ℕ) : Option ℕ :=
  let total := saturatingMul usizeMax rows (max cols 1)
  if rows ≤ 1 ∨ pool.numThreads ≤ 1 ∨ total < minTotalForParallel ∨ pool.inRayonWorker then none
  else
    let maxTasksByWork := max (total/minElemsPerTask) 1
    let ntasks := min (min pool.numThreads maxTasksByWork) rows
    if ntasks ≤ 1 then none else some (rows ⌈/⌉ ntasks)

/-- `out.chunks_mut(chunk).enumerate()`: the first row and the length of each chunk. -/
def chunksMut (chunk rows : ℕ) : List (ℕ × ℕ) :=
  (List.range (rows ⌈/⌉ chunk)).map fun chunkIdx => (chunkIdx*chunk,min chunk (rows-chunkIdx*chunk))

/-- The row ranges that the closure is called on. -/
def rowChunks (pool : Pool) (rows cols : ℕ) : List (ℕ × ℕ) :=
  match chunkLength pool rows cols with
  | none => [(0,rows)]
  | some chunk => chunksMut chunk rows

/-- `rayon::scope` runs its tasks in some order. -/
structure Scope where
  order : List (ℕ × ℕ) → List (ℕ × ℕ)
  perm : ∀ tasks, (order tasks).Perm tasks

/-- What the closure leaves in a slice, from its first row and its old slots. -/
structure RowWriter (T : Type) where
  write : ℕ → List T → List T
  length_write : ∀ rowStart slice, (write rowStart slice).length = slice.length

variable {T : Type}

def parRowChunks (pool : Pool) (scope : Scope) (out : List T) (cols : ℕ) (f : RowWriter T) : List T :=
  match chunkLength pool out.length cols with
  | none => f.write 0 out
  | some chunk => fill f.write (scope.order (chunksMut chunk out.length)) out

/-- A split of the rows of an output into tasks, in the order in which these run. -/
structure RowSplit where
  ran : ℕ → ℕ → List (ℕ × ℕ)
  tiled : ∀ rows cols, 0<rows → ∃ regions, Tiled regions rows ∧ (ran rows cols).Perm regions

def RowSplit.run (self : RowSplit) (out : List T) (cols : ℕ) (f : RowWriter T) : List T :=
  fill f.write (self.ran out.length cols) out

section Chunks
variable {chunk rows : ℕ}

/-- The first chunks end where the next one begins, or at the last row. -/
lemma tiles_chunks (hchunk : 0<chunk) : ∀ k, k ≤ rows ⌈/⌉ chunk →
    Tiling.Tiles Prod.fst Prod.snd 0
      ((List.range k).map fun chunkIdx => (chunkIdx*chunk,min chunk (rows-chunkIdx*chunk)))
      (min (k*chunk) rows) := by
  intro k
  induction k with
  | zero =>
    intro _
    rw [Nat.zero_mul, Nat.zero_min]
    rfl
  | succ k ih =>
    intro hk
    have hbegins : k*chunk<rows := by
      by_contra hend
      have hle : rows ⌈/⌉ chunk ≤ k := (ceilDiv_le_iff_le_mul hchunk).mpr (by
        rw [Nat.mul_comm]
        exact Nat.not_lt.mp hend)
      omega
    have hlow : min (k*chunk) rows = k*chunk := min_eq_left hbegins.le
    have hhigh : min ((k+1)*chunk) rows = k*chunk+min chunk (rows-k*chunk) := by
      rw [Nat.succ_mul]
      omega
    have hprevious := ih (by omega)
    rw [hlow] at hprevious
    rw [List.range_succ, List.map_append, hhigh]
    exact hprevious.snoc rfl (by
      dsimp only
      omega)

/-- The chunks are the output in order. -/
lemma tiled_chunksMut (hchunk : 0<chunk) : Tiled (chunksMut chunk rows) rows := by
  have h := @tiles_chunks chunk rows hchunk _ le_rfl
  have hend : rows ≤ (rows ⌈/⌉ chunk)*chunk := by
    rw [Nat.mul_comm]
    exact le_smul_ceilDiv hchunk
  rwa [min_eq_right hend] at h

lemma length_chunksMut_le {ntasks : ℕ} (hrows : 0<rows) (htasks : 0<ntasks) :
    (chunksMut (rows ⌈/⌉ ntasks) rows).length ≤ ntasks := by
  have hle : rows ≤ ntasks*(rows ⌈/⌉ ntasks) := le_smul_ceilDiv htasks
  have hchunk : 0<rows ⌈/⌉ ntasks := by
    by_contra hzero
    rw [Nat.eq_zero_of_not_pos hzero, Nat.mul_zero] at hle
    omega
  rw [chunksMut, List.length_map, List.length_range]
  refine (ceilDiv_le_iff_le_mul hchunk).mpr ?_
  rwa [Nat.mul_comm]

end Chunks

section Calls
variable {pool : Pool} {rows cols : ℕ}

/-- A fan-out has at least two tasks, and no more of them than threads. -/
lemma chunkLength_eq_some {chunk : ℕ} (h : chunkLength pool rows cols = some chunk) :
    ∃ ntasks, 0<ntasks ∧ ntasks ≤ pool.numThreads ∧ ntasks ≤ rows ∧ chunk = rows ⌈/⌉ ntasks := by
  unfold chunkLength at h
  dsimp only at h
  split_ifs at h with hinline hsingle
  refine ⟨_,by omega,?_,min_le_right _ _,(Option.some.inj h).symm⟩
  exact (min_le_left _ _).trans (min_le_left _ _)

/-- The closure is called on nonempty ranges in a row, from the first row to the last. -/
lemma tiled_rowChunks (hrows : 0<rows) : Tiled (rowChunks pool rows cols) rows := by
  unfold rowChunks
  cases hchunk : chunkLength pool rows cols with
  | none => exact ⟨rfl,hrows,Nat.zero_add rows⟩
  | some chunk =>
    obtain ⟨ntasks,htasks,-,-,rfl⟩ := chunkLength_eq_some hchunk
    refine tiled_chunksMut ?_
    have hle : rows ≤ ntasks*(rows ⌈/⌉ ntasks) := le_smul_ceilDiv htasks
    exact Nat.pos_of_mul_pos_left (hrows.trans_le hle)

lemma length_rowChunks_le (hrows : 0<rows) (hthreads : 0<pool.numThreads) :
    (rowChunks pool rows cols).length ≤ pool.numThreads := by
  unfold rowChunks
  cases hchunk : chunkLength pool rows cols with
  | none => exact hthreads
  | some chunk =>
    obtain ⟨ntasks,htasks,hle,-,rfl⟩ := chunkLength_eq_some hchunk
    exact (length_chunksMut_le hrows htasks).trans hle

end Calls

section Runs
variable {pool : Pool} {out : List T} {cols : ℕ} {f : RowWriter T}

/-- The one call of the inline path is a chunk too. -/
lemma parRowChunks_eq_fill (scope : Scope) : parRowChunks pool scope out cols f =
    fill f.write (scope.order (rowChunks pool out.length cols)) out := by
  unfold parRowChunks rowChunks
  cases chunkLength pool out.length cols with
  | none =>
    dsimp only
    rw [List.perm_singleton.mp (scope.perm [(0,out.length)])]
    simp [fill, Regions.update, Slab.write, Slab.read, f.length_write]
  | some chunk => rfl

/-- The split of `par_row_chunks`. -/
def RowSplit.ofPool (pool : Pool) (scope : Scope) : RowSplit where
  ran rows cols := scope.order (rowChunks pool rows cols)
  tiled _ _ hrows := ⟨_,tiled_rowChunks hrows,scope.perm _⟩

theorem parRowChunks_eq_run (scope : Scope) :
    parRowChunks pool scope out cols f = (RowSplit.ofPool pool scope).run out cols f :=
  parRowChunks_eq_fill scope

/-- A closure that goes by the row alone leaves the same in any split. -/
theorem RowSplit.run_eq_map {row : ℕ → T} (split : RowSplit) (hf : Slotwise f.write row)
    (hout : 0<out.length) : split.run out cols f = (List.range out.length).map row := by
  obtain ⟨regions,htiled,hperm⟩ := split.tiled out.length cols hout
  exact htiled.fill_perm hf hperm

/-- What a closure that writes each slot from its row leaves behind. -/
theorem parRowChunks_eq_map {row : ℕ → T} (hf : Slotwise f.write row) (scope : Scope) :
    parRowChunks pool scope out cols f = (List.range out.length).map row := by
  obtain rfl | hne := eq_or_ne out []
  · have hinline : chunkLength pool 0 cols = none := by
      unfold chunkLength
      exact if_pos (.inl (Nat.zero_le 1))
    rw [parRowChunks, List.length_nil, hinline]
    exact hf 0 []
  · rw [parRowChunks_eq_run]
    exact RowSplit.run_eq_map _ hf (List.length_pos_iff.mpr hne)

/-- The calls of `par_row_chunks` cut the output into nonempty slices in order, no more of them than
there are threads, and a closure that goes by the row alone leaves in any order what one call does. -/
theorem parRowChunks_covers (pool : Pool) (hthreads : 0<pool.numThreads) (out : List T)
    (hout : out ≠ []) (cols : ℕ) :
    Tiled (rowChunks pool out.length cols) out.length ∧
      (rowChunks pool out.length cols).length ≤ pool.numThreads ∧
      ∀ (scope : Scope) (f : RowWriter T),
        parRowChunks pool scope out cols f =
            fill f.write (scope.order (rowChunks pool out.length cols)) out ∧
          ∀ row, Slotwise f.write row → parRowChunks pool scope out cols f = f.write 0 out := by
  have hrows : 0<out.length := List.length_pos_iff.mpr hout
  refine ⟨tiled_rowChunks hrows,length_rowChunks_le hrows hthreads,fun scope f => ⟨?_,?_⟩⟩
  · exact parRowChunks_eq_fill scope
  · intro row hf
    rw [parRowChunks_eq_map hf, hf 0 out]
    simp only [Nat.zero_add]

theorem parRowChunks_covers_five :
    Tiled (rowChunks ⟨4,false⟩ 5 (2^17)) 5 ∧ rowChunks ⟨4,false⟩ 5 (2^17) = [(0,2),(2,2),(4,1)] :=
  ⟨(parRowChunks_covers ⟨4,false⟩ (by decide) (List.replicate 5 0) (by decide) (2^17)).1,
    by decide +kernel⟩

end Runs

end MicroExpertRouter.Parallel
