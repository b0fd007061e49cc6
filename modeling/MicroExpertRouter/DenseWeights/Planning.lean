import MicroExpertRouter.DenseWeights.Chunks

/-! Whole runs of the planner: the chunks tile the rows of the tensor. -/
namespace MicroExpertRouter.DenseWeights
open Arena (DeviceLimits)
open Tiling

/-- The chunks tile the rows, each row lies in one of them, and what they allocate is added up. -/
structure DenseWeightPlan.Exact (plan : DenseWeightPlan) (kind : DenseWeightKind)
    (rows cols payload maximum : ℕ) : Prop where
  tiles : Tiles DenseWeightChunkPlan.rowStart DenseWeightChunkPlan.rowCount 0 plan.chunks rows
  once : ∀ row<rows, plan.chunks.countP
    (covers DenseWeightChunkPlan.rowStart DenseWeightChunkPlan.rowCount row) = 1
  exact : ∀ chunk ∈ plan.chunks, chunk.Exact kind rows cols payload maximum
  physical : plan.physicalAllocationBytes
    = (plan.chunks.map DenseWeightChunkPlan.allocationBytes).sum

namespace DenseWeightPlan
variable {layout : DenseWeightLayout} {maximum turns : ℕ} {s : Progress}

/-- What the loop keeps: the chunks so far tile the rows so far. -/
structure Progress.Sound (s : Progress) (layout : DenseWeightLayout) (maximum : ℕ) : Prop where
  tiles : Tiles DenseWeightChunkPlan.rowStart DenseWeightChunkPlan.rowCount 0 s.chunks s.rowStart
  rows_le : s.rowStart ≤ layout.rows
  exact : ∀ chunk ∈ s.chunks, chunk.Exact layout.kind layout.rows layout.cols
    layout.payloadBytes maximum
  physical : s.physicalAllocationBytes
    = (s.chunks.map DenseWeightChunkPlan.allocationBytes).sum
  physical_le : s.physicalAllocationBytes ≤ 128*(s.rowStart*layout.cols)

lemma Progress.Sound.start (layout : DenseWeightLayout) (maximum : ℕ) :
    Progress.Sound ⟨[],0,0⟩ layout maximum :=
  ⟨rfl,Nat.zero_le _,by simp,rfl,Nat.zero_le _⟩

/-- A failure names a row that alone needs more than the device binds. -/
def RowExceeds (layout : DenseWeightLayout) (maximum : ℕ) (error : BootstrapError) : Prop :=
  ∃ row<layout.rows, maximum<allocationFor layout.kind layout.cols row 1 ∧
    error = .denseWeightRowExceedsDeviceLimit layout.kind layout.cols
      (allocationFor layout.kind layout.cols row 1) maximum

theorem turn_spec (hsound : s.Sound layout maximum) (hstart : s.rowStart<layout.rows) :
    (∃ error, turn layout maximum s = .error error ∧ RowExceeds layout maximum error) ∨
    ∃ next, turn layout maximum s = .ok next ∧ next.Sound layout maximum
      ∧ s.rowStart<next.rowStart := by
  rcases @nextChunk_spec layout maximum s.rowStart hstart with ⟨hexceeds,herror⟩ | ⟨count,hpicks,hchunk⟩
  · left
    refine ⟨_,?_,s.rowStart,hstart,hexceeds,rfl⟩
    simp only [turn, herror, bind, Except.bind]
  · right
    have ⟨⟨hpos,hrows,_⟩,_⟩ := hpicks
    have hexact := hpicks.exact hstart
    have hle : (s.rowStart+count)*layout.cols ≤ u32Max := rows_le (by omega)
    have hmul := rows_mul layout.cols s.rowStart count
    have hadds := allocationFor_le layout.kind s.rowStart layout.cols_pos (show 0<count by omega)
    have hold := hsound.physical_le
    have hsum : s.physicalAllocationBytes+allocationFor layout.kind layout.cols s.rowStart count
        ≤ 128*((s.rowStart+count)*layout.cols) := by omega
    refine ⟨⟨s.chunks++[chunkFor layout.kind layout.cols s.rowStart count],s.rowStart+count,
      s.physicalAllocationBytes+allocationFor layout.kind layout.cols s.rowStart count⟩,?_,
      ⟨?_,?_,?_,?_,hsum⟩,?_⟩
    · have hfits : s.physicalAllocationBytes+(chunkFor layout.kind layout.cols s.rowStart
          count).allocationBytes ≤ u64Max := by
        unfold u32Max at hle
        unfold u64Max
        exact hsum.trans (by omega)
      simp only [turn, hchunk, bind, Except.bind]
      rw [checkedAdd_of_le hfits]
      simp only [orOverflow_some, chunkFor_rowCount]
      rfl
    · have hsnoc := hsound.tiles.snoc (chunkFor_rowStart layout.kind layout.cols s.rowStart count)
        (by rw [chunkFor_rowCount]; omega)
      rwa [chunkFor_rowCount] at hsnoc
    · show s.rowStart+count ≤ layout.rows
      omega
    · intro chunk hmem
      rcases List.mem_append.mp hmem with hmem | hmem
      · exact hsound.exact chunk hmem
      · rw [List.mem_singleton.mp hmem]
        exact hexact
    · simp only [List.map_append, List.sum_append, List.map_cons, List.map_nil, List.sum_singleton,
        ← hsound.physical]
      rfl
    · show s.rowStart<s.rowStart+count
      omega

/-- As many turns as there are rows left end the loop. -/
theorem chunkLoop_spec (hsound : s.Sound layout maximum) (hturns : layout.rows-s.rowStart ≤ turns) :
    (∃ error, chunkLoop layout maximum turns s = some (.error error)
      ∧ RowExceeds layout maximum error) ∨
    ∃ last, chunkLoop layout maximum turns s = some (.ok last) ∧ last.Sound layout maximum
      ∧ last.rowStart = layout.rows := by
  induction turns generalizing s with
  | zero =>
    have := hsound.rows_le
    exact .inr ⟨s,by rw [chunkLoop, if_neg (by omega)],hsound,by omega⟩
  | succ turns ih =>
    unfold chunkLoop
    by_cases hstart : s.rowStart<layout.rows
    swap
    · have := hsound.rows_le
      exact .inr ⟨s,by rw [if_neg hstart],hsound,by omega⟩
    rw [if_pos hstart]
    rcases turn_spec hsound hstart with ⟨error,herror,hexceeds⟩ | ⟨next,hnext,hkeeps,hlt⟩
    · rw [herror]
      exact .inl ⟨error,rfl,hexceeds⟩
    · rw [hnext]
      exact ih hkeeps (by omega)

end DenseWeightPlan

/-- What `try_new` accepts has the given shape and bytes. -/
lemma DenseWeightLayout.of_tryNew {kind : DenseWeightKind} {rows cols actualBytes : ℕ}
    {layout : DenseWeightLayout} (h : DenseWeightLayout.tryNew kind rows cols actualBytes = .ok layout) :
    layout.kind = kind ∧ layout.rows = rows ∧ layout.cols = cols
      ∧ layout.payloadBytes = actualBytes := by
  unfold tryNew at h
  split at h
  · cases h
  obtain ⟨_,-,h⟩ := bind_eq_ok.mp h
  split at h
  · cases h
  split at h
  · cases h
  · split_ifs at h with hbytes hindex
    obtain ⟨allocation,-,h⟩ := bind_eq_ok.mp h
    obtain rfl := Except.ok.inj h
    exact ⟨rfl,rfl,rfl,(not_not.mp hbytes).symm⟩

/-- Planning ends within as many turns as the tensor has rows. Either a row alone needs more than
the device binds, or the plan is exact: its chunks are nonempty and consecutive and hold each row
once, each fits the device, could not take a row more and holds the bytes of its rows. -/
theorem dense_weight_plan {kind : DenseWeightKind} {rows cols actualBytes : ℕ}
    {layout : DenseWeightLayout}
    (h : DenseWeightLayout.tryNew kind rows cols actualBytes = .ok layout) (limits : DeviceLimits)
    {turns : ℕ} (hturns : rows ≤ turns) :
    (∃ row<rows, DenseWeightPlan.maximumBytes limits<allocationFor kind cols row 1 ∧
      DenseWeightPlan.tryNew layout limits turns = some (.error (.denseWeightRowExceedsDeviceLimit
        kind cols (allocationFor kind cols row 1) (DenseWeightPlan.maximumBytes limits)))) ∨
    ∃ plan, DenseWeightPlan.tryNew layout limits turns = some (.ok plan) ∧ plan.layout = layout ∧
      plan.Exact kind rows cols actualBytes (DenseWeightPlan.maximumBytes limits) := by
  obtain ⟨rfl,rfl,rfl,rfl⟩ := DenseWeightLayout.of_tryNew h
  unfold DenseWeightPlan.tryNew
  have hstart := DenseWeightPlan.Progress.Sound.start layout (DenseWeightPlan.maximumBytes limits)
  rcases DenseWeightPlan.chunkLoop_spec hstart (show layout.rows-0 ≤ turns by omega) with
    ⟨error,herror,row,hrow,hexceeds,rfl⟩ | ⟨last,hlast,hsound,hend⟩
  · exact .inl ⟨row,hrow,hexceeds,by rw [herror]; rfl⟩
  · have htiles := hend ▸ hsound.tiles
    exact .inr ⟨_,by rw [hlast]; rfl,rfl,htiles,
      fun row hrow => htiles.countP_covers (Nat.zero_le _) hrow,hsound.exact,hsound.physical⟩

/-- Two rows of forty Q8_0 elements: they share their middle block, and each has its own chunk
when the device binds no more than two blocks. -/
theorem dense_weight_plan_two :
    ∃ layout plan, DenseWeightLayout.tryNew .q8_0 2 40 102 = .ok layout ∧
      DenseWeightPlan.tryNew layout ⟨1000,72⟩ 2 = some (.ok plan) ∧
      plan.chunks = [⟨0,1,0,0,68,68⟩,⟨1,1,1,34,68,68⟩] ∧ plan.Exact .q8_0 2 40 102 72 := by
  obtain ⟨layout,hlayout⟩ : ∃ layout, DenseWeightLayout.tryNew .q8_0 2 40 102 = .ok layout :=
    ⟨_,rfl⟩
  refine ⟨layout,?_⟩
  rcases dense_weight_plan hlayout ⟨1000,72⟩ le_rfl with ⟨row,-,-,herror⟩ | ⟨plan,hplan,-,hexact⟩
  · cases hlayout
    cases herror
  · refine ⟨plan,hlayout,hplan,?_,hexact⟩
    cases hlayout
    cases hplan
    rfl

end MicroExpertRouter.DenseWeights
