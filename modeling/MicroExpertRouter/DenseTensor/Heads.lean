import MicroExpertRouter.DenseTensor.Weight
import MicroExpertRouter.Lib.Clipped
import MicroExpertRouter.Lib.Ranking
import MicroExpertRouter.Lib.Reduction

/-! Argmax and top-k over the rows of a dense weight, split over a thread pool. The logit of a row
is a parameter; logits are ordered by `total_cmp`. -/
namespace MicroExpertRouter.DenseTensor

def minTotalForParallel : ℕ := 2^18
def minElemsPerTask : ℕ := 2^16

/-- The rows of a weight and their logits `row_dot(row, x)` for one input. -/
structure Logits (F : Type) where
  rows : ℕ
  cols : ℕ
  rowDot : ℕ → F
  rows_le : rows ≤ usizeMax

/-- The threads of the pool, and whether the caller is one of them. -/
structure Pool where
  numThreads : ℕ
  inRayonWorker : Bool

section Heads
variable {F : Type} [LinearOrder F]

def denseScoreIsBetter (candidateScore : F) (candidateId : ℕ) (score : F) (id : ℕ) : Bool :=
  Ranking.scoreIsBetter candidateScore candidateId score id

def denseBestPair (a b : ℕ × F) : ℕ × F := if denseScoreIsBetter a.2 a.1 b.2 b.1 then a else b

def insertTopCandidate (limit : ℕ) (top : List (ℕ × F)) (candidate : ℕ × F) : List (ℕ × F) :=
  Ranking.insertBounded (fun a b => denseScoreIsBetter a.2 a.1 b.2 b.1) limit top candidate

namespace Logits
variable (self : Logits F)

/-- The rows `start..end` and the number of tasks, when the work is worth a fan-out. -/
def parallelRowWork (pool : Pool) : Option (ℕ × ℕ × ℕ) :=
  match checkedMul usizeMax self.rows self.cols with
  | none => none
  | some total =>
    if self.rows ≤ 1 ∨ pool.numThreads ≤ 1 ∨ total < minTotalForParallel ∨ pool.inRayonWorker then none
    else
      let workLimited := max (total/minElemsPerTask) 1
      some (0,self.rows,max (min (min pool.numThreads workLimited) self.rows) 1)

/-- The rows of a task: the last tasks may have none. -/
def taskRows (start stop tasks task : ℕ) : ℕ × ℕ :=
  let chunkRows := (stop-start+tasks-1)/tasks
  let chunkStart := start+task*chunkRows
  (chunkStart,min (chunkStart+chunkRows) stop)

/-- Keeps the first row when no logit is above `negInf`, and its index is the sentinel when all
are below. -/
def greedyArgmaxRange (negInf : F) (start stop : ℕ) : ℕ × F :=
  (List.range' start (stop-start)).foldl (fun best row =>
    let score := self.rowDot row
    if cmp score best.2 = .gt ∨ cmp score best.2 = .eq ∧ row<best.1 then (row,score) else best)
    (usizeMax,negInf)

/-- `best_id as u32`, or the first row for the sentinel. -/
def bestIdAsU32 (bestId : ℕ) : ℕ := if bestId = usizeMax then 0 else bestId % 2^32

def greedyArgmax (negInf : F) (pool : Pool) (schedule : Schedule) : ℕ :=
  match self.parallelRowWork pool with
  | some (start,stop,tasks) =>
    bestIdAsU32 ((schedule.reduction tasks).eval (usizeMax,negInf) denseBestPair fun task =>
      self.greedyArgmaxRange negInf (taskRows start stop tasks task).1
        (taskRows start stop tasks task).2).1
  | none => bestIdAsU32 (self.greedyArgmaxRange negInf 0 self.rows).1

def topKLogitsRange (limit start stop : ℕ) : List (ℕ × F) :=
  (List.range' start (stop-start)).foldl (fun top row =>
    insertTopCandidate limit top (row,self.rowDot row)) []

def topKLogits (pool : Pool) (schedule : Schedule) (k : ℕ) : List (ℕ × F) :=
  if k = 0 ∨ self.rows = 0 then []
  else
    let limit := min k self.rows
    match self.parallelRowWork pool with
    | some (start,stop,tasks) =>
      (schedule.reduction tasks).eval [] (fun a b => b.foldl (insertTopCandidate limit) a) fun task =>
        self.topKLogitsRange limit (taskRows start stop tasks task).1 (taskRows start stop tasks task).2
    | none => self.topKLogitsRange limit 0 self.rows

end Logits
end Heads
end MicroExpertRouter.DenseTensor
