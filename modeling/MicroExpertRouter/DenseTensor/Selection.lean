import MicroExpertRouter.DenseTensor.Heads

/-! The selection over the rows does not depend on the number of tasks or on how their results are
combined. -/
namespace MicroExpertRouter.DenseTensor
open Ranking (scoreKey scoreKey_injective scoreKey_lt scoreIsBetter_iff IsFirst)
variable {F : Type} [LinearOrder F]

lemma denseBestPair_isFirst (a b : ℕ × F) : IsFirst scoreKey (denseBestPair a b) [a,b] := by
  unfold denseBestPair
  by_cases h : denseScoreIsBetter a.2 a.1 b.2 b.1 = true
  · have hlt := (scoreIsBetter_iff a b).mp h
    rw [if_pos h]
    exact ⟨by simp,by simpa using hlt.le⟩
  · have hle : scoreKey b ≤ scoreKey a := not_lt.mp fun hlt => h ((scoreIsBetter_iff a b).mpr hlt)
    rw [if_neg h]
    exact ⟨by simp,by simpa using hle⟩

/-- One row of the scan. -/
lemma scanRow_isFirst (best candidate : ℕ × F) :
    IsFirst scoreKey (if cmp candidate.2 best.2 = .gt ∨
      cmp candidate.2 best.2 = .eq ∧ candidate.1<best.1 then candidate else best)
      [best,candidate] := by
  have hlt : (cmp candidate.2 best.2 = .gt ∨ cmp candidate.2 best.2 = .eq ∧ candidate.1<best.1) ↔
      scoreKey candidate<scoreKey best := by
    rw [scoreKey_lt, cmp_eq_gt_iff, cmp_eq_eq_iff]
  by_cases hbetter : scoreKey candidate<scoreKey best
  · rw [if_pos (hlt.mpr hbetter)]
    exact ⟨by simp,by simpa using hbetter.le⟩
  · have hle : scoreKey best ≤ scoreKey candidate := not_lt.mp hbetter
    rw [if_neg fun h => hbetter (hlt.mp h)]
    exact ⟨by simp,by simpa using hle⟩

namespace Logits

section Rows

/-- The rows with their logits. -/
def entries {F : Type} (self : Logits F) (rows : List ℕ) : List (ℕ × F) :=
  rows.map fun row => (row,self.rowDot row)

lemma entries_append {F : Type} (self : Logits F) (xs ys : List ℕ) :
    self.entries (xs++ys) = self.entries xs++self.entries ys := List.map_append

lemma parallelRowWork_spec {F : Type} {self : Logits F} {pool : Pool} {start stop tasks : ℕ}
    (h : self.parallelRowWork pool = some (start,stop,tasks)) :
    start = 0 ∧ stop = self.rows ∧ 0<tasks ∧ 0<self.rows := by
  unfold parallelRowWork at h
  split at h
  · cases h
  · dsimp only at h
    split_ifs at h with hsmall
    obtain ⟨rfl,rfl,rfl⟩ := by simpa using h
    exact ⟨rfl,rfl,by omega,by omega⟩

/-- The rows of a task. -/
def rowsOf (start stop tasks task : ℕ) : List ℕ :=
  List.range' (taskRows start stop tasks task).1
    ((taskRows start stop tasks task).2-(taskRows start stop tasks task).1)

/-- The tasks' rows are all rows, in order. -/
lemma flatMap_rowsOf {rows tasks : ℕ} (hrows : 0<rows) (htasks : 0<tasks) :
    (List.range tasks).flatMap (rowsOf 0 rows tasks) = List.range rows := by
  obtain ⟨count,rfl⟩ : ∃ count, tasks = count+1 := ⟨tasks-1,by omega⟩
  have hsize : 0<(rows+(count+1)-1)/(count+1) := Nat.div_pos (by omega) (by omega)
  have hpart : rowsOf 0 rows (count+1)
      = Clipped.part 0 rows ((rows+(count+1)-1)/(count+1)) := by
    funext task
    simp only [rowsOf, taskRows, Clipped.part, Nat.zero_add, Nat.sub_zero, Nat.zero_max,
      Nat.min_comm rows]
  have hall : rows ≤ count*((rows+(count+1)-1)/(count+1))+(rows+(count+1)-1)/(count+1) := by
    have h := Nat.lt_div_mul_add (Nat.succ_pos count) (a := rows+(count+1)-1)
    rw [← Nat.succ_mul, Nat.mul_comm]
    simp only [Nat.succ_eq_add_one] at h ⊢
    omega
  have hparts := @Clipped.flatMap_part 0 rows _ hsize count
  rw [Nat.zero_div, Nat.zero_add, Nat.sub_zero, Nat.min_eq_left hall] at hparts
  rw [hpart, List.range_eq_range', hparts, List.range_eq_range']

/-- Whatever the schedule, the tasks' rows are all rows. -/
lemma flatMap_schedule_perm {rows tasks : ℕ} (schedule : Schedule) (hrows : 0<rows)
    (htasks : 0<tasks) :
    ((schedule.reduction tasks).tasks.flatMap (rowsOf 0 rows tasks)).Perm (List.range rows) := by
  rw [← flatMap_rowsOf hrows htasks]
  exact (schedule.complete tasks).flatMap_right _

end Rows

variable {self : Logits F} {pool : Pool}

/-- The scan keeps the better of its candidate and each row. -/
lemma greedyArgmaxRange_isFirst (self : Logits F) (negInf : F) (start stop : ℕ) :
    IsFirst scoreKey (self.greedyArgmaxRange negInf start stop)
      ((usizeMax,negInf)::self.entries (List.range' start (stop-start))) := by
  have h := Ranking.isFirst_foldl scanRow_isFirst (usizeMax,negInf)
    (self.entries (List.range' start (stop-start)))
  rwa [entries, List.foldl_map] at h

/-- The reduction of the tasks' bests is the best of all rows. -/
lemma reduction_isFirst (self : Logits F) (negInf : F) (start stop tasks : ℕ)
    (reduction : Reduction) :
    IsFirst scoreKey (reduction.eval (usizeMax,negInf) denseBestPair fun task =>
        self.greedyArgmaxRange negInf (taskRows start stop tasks task).1
          (taskRows start stop tasks task).2)
      ((usizeMax,negInf)::self.entries (reduction.tasks.flatMap (rowsOf start stop tasks))) := by
  let Says (tasksOf : List ℕ) (best : ℕ × F) : Prop :=
    IsFirst scoreKey best
      ((usizeMax,negInf)::self.entries (tasksOf.flatMap (rowsOf start stop tasks)))
  have hunit : Says [] (usizeMax,negInf) := by simp [Says, IsFirst, entries]
  refine Reduction.eval_spec hunit (fun task => ?_) (fun xs ys a b ha hb => ?_) reduction
  · simp only [Says, List.flatMap_singleton]
    exact self.greedyArgmaxRange_isFirst negInf _ _
  · refine ((denseBestPair_isFirst _ _).join ha hb).congr fun c => ?_
    rw [List.flatMap_append, entries_append]
    simp only [List.mem_append, List.mem_cons]
    tauto

/-- The fan-out finds the row of the sequential scan. -/
theorem greedyArgmax_eq (self : Logits F) (negInf : F) (pool : Pool) (schedule : Schedule) :
    self.greedyArgmax negInf pool schedule
      = bestIdAsU32 (self.greedyArgmaxRange negInf 0 self.rows).1 := by
  unfold greedyArgmax
  cases hwork : self.parallelRowWork pool with
  | none => rfl
  | some work =>
    obtain ⟨start,stop,tasks⟩ := work
    obtain ⟨rfl,rfl,htasks,hrows⟩ := parallelRowWork_spec hwork
    have hall := flatMap_schedule_perm schedule hrows htasks
    have heq := (self.reduction_isFirst negInf 0 self.rows tasks (schedule.reduction tasks)).unique
      scoreKey_injective (self.greedyArgmaxRange_isFirst negInf 0 self.rows) fun c => by
        rw [List.mem_cons, List.mem_cons, Nat.sub_zero, ← List.range_eq_range']
        exact or_congr_right (hall.map _).mem_iff
    exact congrArg (fun best => bestIdAsU32 best.1) heq

/-- A task's buffer holds the first rows of the task. -/
lemma topKLogitsRange_eq (self : Logits F) (limit start stop : ℕ) :
    self.topKLogitsRange limit start stop
      = Ranking.best scoreKey limit (self.entries (List.range' start (stop-start))) := by
  rw [← Ranking.foldl_insertBounded_nil scoreKey_injective scoreIsBetter_iff, entries,
    List.foldl_map]
  rfl

/-- The reduction of the tasks' buffers holds the first of all rows. -/
lemma reduction_topK (self : Logits F) (limit start stop tasks : ℕ) (reduction : Reduction) :
    (reduction.eval [] (fun a b => b.foldl (insertTopCandidate limit) a) fun task =>
        self.topKLogitsRange limit (taskRows start stop tasks task).1 (taskRows start stop tasks task).2)
      = Ranking.best scoreKey limit
        (self.entries (reduction.tasks.flatMap (rowsOf start stop tasks))) := by
  let Says (tasksOf : List ℕ) (buffer : List (ℕ × F)) : Prop :=
    buffer = Ranking.best scoreKey limit
      (self.entries (tasksOf.flatMap (rowsOf start stop tasks)))
  have hunit : Says [] [] := List.take_nil.symm
  refine Reduction.eval_spec hunit (fun task => ?_) (fun xs ys a b ha hb => ?_) reduction
  · simp only [Says, List.flatMap_singleton]
    exact self.topKLogitsRange_eq limit _ _
  · simp only [Says, List.flatMap_append, entries_append] at ha hb ⊢
    rw [ha, hb]
    exact Ranking.foldl_insertBounded_best scoreKey_injective scoreIsBetter_iff limit _ _

/-- The first rows in the order of their logits. -/
theorem topKLogits_eq (self : Logits F) (pool : Pool) (schedule : Schedule) (k : ℕ) :
    self.topKLogits pool schedule k
      = Ranking.best scoreKey (min k self.rows) (self.entries (List.range self.rows)) := by
  unfold topKLogits
  split_ifs with hnone
  · have hzero : min k self.rows = 0 := by omega
    rw [hzero, Ranking.best, List.take_zero]
  · dsimp only
    cases hwork : self.parallelRowWork pool with
    | none => rw [topKLogitsRange_eq, Nat.sub_zero, List.range_eq_range']
    | some work =>
      obtain ⟨start,stop,tasks⟩ := work
      obtain ⟨rfl,rfl,htasks,hrows⟩ := parallelRowWork_spec hwork
      simp only
      rw [reduction_topK]
      exact Ranking.best_congr scoreKey_injective
        ((flatMap_schedule_perm schedule hrows htasks).map _) _

/-- A row of maximal logit, and the lowest of them. -/
structure IsTop (logits : Logits F) (row : ℕ) : Prop where
  lt : row<logits.rows
  le : ∀ other<logits.rows, logits.rowDot other ≤ logits.rowDot row
  lowest : ∀ other<logits.rows, logits.rowDot other = logits.rowDot row → row ≤ other

lemma IsTop.greedyArgmaxRange_eq {row : ℕ} (h : self.IsTop row) {negInf : F}
    (hscore : negInf ≤ self.rowDot row) :
    self.greedyArgmaxRange negInf 0 self.rows = (row,self.rowDot row) := by
  have hscan := self.greedyArgmaxRange_isFirst negInf 0 self.rows
  have hrow : IsFirst scoreKey (row,self.rowDot row)
      ((usizeMax,negInf)::self.entries (List.range' 0 (self.rows-0))) := by
    refine ⟨List.mem_cons_of_mem _ (List.mem_map.mpr ⟨row,?_,rfl⟩),fun c hc => ?_⟩
    · exact List.mem_range'_1.mpr ⟨Nat.zero_le _,by have := h.lt; omega⟩
    rcases List.mem_cons.mp hc with rfl | hc
    · refine (scoreKey_lt.mpr ?_).le
      rcases hscore.lt_or_eq with hlt | heq
      · exact .inl hlt
      · exact .inr ⟨heq.symm,h.lt.trans_le self.rows_le⟩
    · obtain ⟨other,hother,rfl⟩ := List.mem_map.mp hc
      have hlt : other<self.rows := by
        obtain ⟨-,hlt⟩ := List.mem_range'_1.mp hother
        omega
      refine not_lt.mp fun hbetter => ?_
      rcases scoreKey_lt.mp hbetter with hgt | ⟨heq,hid⟩
      · exact absurd hgt (h.le other hlt).not_gt
      · exact absurd (h.lowest other hlt heq) (Nat.not_le.mpr hid)
  exact hscan.unique scoreKey_injective hrow fun _ => Iff.rfl

lemma greedyArgmaxRange_sentinel {negInf : F} (h : ∀ row<self.rows, self.rowDot row<negInf) :
    self.greedyArgmaxRange negInf 0 self.rows = (usizeMax,negInf) := by
  have hscan := self.greedyArgmaxRange_isFirst negInf 0 self.rows
  refine hscan.unique scoreKey_injective ⟨List.mem_cons_self,fun c hc => ?_⟩ fun _ => Iff.rfl
  rcases List.mem_cons.mp hc with rfl | hc
  · exact le_rfl
  · obtain ⟨row,hrow,rfl⟩ := List.mem_map.mp hc
    obtain ⟨-,hlt⟩ := List.mem_range'_1.mp hrow
    exact (scoreKey_lt.mpr (.inl (h row (by omega)))).le

/-- For every pool and schedule argmax is that of the sequential scan: the lowest row of maximal
logit, as a `u32`, when that logit is not below `f32::NEG_INFINITY`, and the first row when all are.
Top-k is the sequential one: the first `min(k, rows)` rows by descending logit and ascending index. -/
theorem heads_schedule_independent (self : Logits F) (negInf : F) (pool : Pool)
    (schedule : Schedule) :
    self.greedyArgmax negInf pool schedule
        = bestIdAsU32 (self.greedyArgmaxRange negInf 0 self.rows).1 ∧
      (∀ row, self.IsTop row → negInf ≤ self.rowDot row →
        self.greedyArgmax negInf pool schedule = row % 2^32) ∧
      ((∀ row<self.rows, self.rowDot row<negInf) → self.greedyArgmax negInf pool schedule = 0) ∧
      ∀ k, self.topKLogits pool schedule k = Ranking.best scoreKey (min k self.rows)
          (self.entries (List.range self.rows)) ∧
        self.topKLogits pool schedule k = self.topKLogitsRange (min k self.rows) 0 self.rows := by
  refine ⟨self.greedyArgmax_eq negInf pool schedule,fun row htop hscore => ?_,fun hbelow => ?_,
    fun k => ⟨self.topKLogits_eq pool schedule k,?_⟩⟩
  · have hne : row ≠ usizeMax := (htop.lt.trans_le self.rows_le).ne
    rw [greedyArgmax_eq, htop.greedyArgmaxRange_eq hscore, bestIdAsU32, if_neg hne]
  · rw [greedyArgmax_eq, greedyArgmaxRange_sentinel hbelow, bestIdAsU32, if_pos rfl]
  · rw [topKLogits_eq, topKLogitsRange_eq, Nat.sub_zero, List.range_eq_range']

end Logits

/-- The order of `total_cmp`: the bits of an `f32` as a signed integer, negative ones reversed. -/
def totalCmpKey (bits : ℕ) : ℤ := if bits<2^31 then bits else 2^31-1-(bits : ℤ)

/-- Two negative NaNs, the second with the smaller payload, and both below negative infinity. -/
def nanLogits : Logits ℤ where
  rows := 2
  cols := 1
  rowDot row := totalCmpKey (if row = 0 then 0xffc00001 else 0xffc00000)
  rows_le := by decide

/-- The second row is the only one of maximal logit, and the first is returned. -/
theorem greedyArgmax_negative_nan :
    nanLogits.IsTop 1 ∧
      nanLogits.greedyArgmax (totalCmpKey 0xff800000) ⟨1,false⟩ Schedule.inOrder = 0 := by
  refine ⟨⟨by decide,?_,?_⟩,by decide⟩
  · intro other hlt
    change other<2 at hlt
    interval_cases other <;> decide
  · intro other hlt
    change other<2 at hlt
    interval_cases other <;> decide

end MicroExpertRouter.DenseTensor
