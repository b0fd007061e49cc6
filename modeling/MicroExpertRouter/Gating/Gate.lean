import MicroExpertRouter.DenseTensor.Readers
import MicroExpertRouter.Lib.Ranking

/-! The linear gate of `gating.rs`: scores, group-limited selection and mixing weights. The numbers
and their operations are parameters; `total_cmp` is the linear order. -/
namespace MicroExpertRouter.Gating
open DenseTensor (DenseWeight readSlice q8_0BlockElems)

/-- The operations on `f32` that the gate uses besides addition and multiplication. -/
structure Floats (F : Type) where
  one : F
  negInf : F
  ofLen : ℕ → F
  neg : F → F
  exp : F → F
  sub : F → F → F
  div : F → F → F
  sum : List F → F
  gt : F → F → Bool
  ne : F → F → Bool
  isNan : F → Bool
  isFinite : F → Bool

inductive ScoringFunc
  | softmax
  | sigmoid
  deriving DecidableEq, Repr

/-- A gate as its constructors build it. -/
structure LinearGate (F : Type) where
  weights : DenseWeight F
  numExperts : ℕ
  dModel : ℕ
  topK : ℕ
  normaliseTopk : Bool
  scoringFunc : ScoringFunc
  correctionBias : Option (List F)
  nGroup : ℕ
  topkGroup : ℕ
  routedScalingFactor : F
  topK_pos : 0<topK
  topK_le : topK ≤ numExperts
  rows_eq : weights.rows = numExperts
  cols_eq : weights.cols = dModel
  bias_len : ∀ bias, correctionBias = some bias → bias.length = numExperts

/-- Buffers reused from token to token. -/
structure RoutingScratch (F : Type) where
  logits : List F
  selection : List F
  topGroups : List (ℕ × F)
  topExperts : List (ℕ × F)
  decisionExperts : List ℕ
  decisionWeights : List F

structure RoutingDecision (F : Type) where
  experts : List ℕ
  weights : List F

/-- `xs.resize(n, value)`. -/
def resize {F : Type} (xs : List F) (n : ℕ) (value : F) : List F :=
  xs.take n++List.replicate (n-xs.length) value

@[simp] lemma length_resize {F : Type} (xs : List F) (n : ℕ) (value : F) :
    (resize xs n value).length = n := by
  simp only [resize, List.length_append, List.length_take, List.length_replicate]
  omega

def RoutingScratch.resizeFor {F : Type} [Zero F] (self : RoutingScratch F) (numExperts : ℕ) :
    RoutingScratch F :=
  { self with
    logits := resize self.logits numExperts 0
    selection := resize self.selection numExperts 0
    topGroups := []
    topExperts := [] }

def RoutingScratch.recycleDecision {F : Type} (self : RoutingScratch F) : RoutingScratch F :=
  { self with decisionExperts := [], decisionWeights := [] }

namespace LinearGate
variable {F : Type}

def fromDense (f : Floats F) (weights : DenseWeight F) (numExperts dModel topK : ℕ) :
    Option (LinearGate F) :=
  if h : (0<topK ∧ topK ≤ numExperts) ∧ weights.rows = numExperts ∧ weights.cols = dModel then
    some {
      weights, numExperts, dModel, topK
      normaliseTopk := true
      scoringFunc := .softmax
      correctionBias := none
      nGroup := 1
      topkGroup := 1
      routedScalingFactor := f.one
      topK_pos := h.1.1
      topK_le := h.1.2
      rows_eq := h.2.1
      cols_eq := h.2.2
      bias_len := fun _ hbias => nomatch hbias }
  else none

def new (f : Floats F) (weights : List F) (numExperts dModel topK : ℕ) : Option (LinearGate F) :=
  if weights.length ≠ numExperts*dModel then none
  else (DenseWeight.fromF32 weights numExperts dModel).bind fun weights =>
    fromDense f weights numExperts dModel topK

/-- The fields that the routing constructors set; the length of the bias is asserted. -/
def withSettings (self : LinearGate F) (scoringFunc : ScoringFunc) (normaliseTopk : Bool)
    (correctionBias : Option (List F)) (nGroup topkGroup : ℕ) (routedScalingFactor : F) :
    Option (LinearGate F) :=
  if h : ∀ bias, correctionBias = some bias → bias.length = self.numExperts then
    some { self with
      scoringFunc, normaliseTopk, correctionBias, topkGroup, routedScalingFactor
      nGroup := max nGroup 1
      bias_len := h }
  else none

def withRouting (f : Floats F) (weights : List F) (numExperts dModel topK : ℕ)
    (scoringFunc : ScoringFunc) (normaliseTopk : Bool) (correctionBias : Option (List F))
    (nGroup topkGroup : ℕ) (routedScalingFactor : F) : Option (LinearGate F) :=
  (new f weights numExperts dModel topK).bind fun gate =>
    gate.withSettings scoringFunc normaliseTopk correctionBias nGroup topkGroup routedScalingFactor

def withDenseRouting (f : Floats F) (weights : DenseWeight F) (numExperts dModel topK : ℕ)
    (scoringFunc : ScoringFunc) (normaliseTopk : Bool) (correctionBias : Option (List F))
    (nGroup topkGroup : ℕ) (routedScalingFactor : F) : Option (LinearGate F) :=
  (fromDense f weights numExperts dModel topK).bind fun gate =>
    gate.withSettings scoringFunc normaliseTopk correctionBias nGroup topkGroup routedScalingFactor

end LinearGate

section Scores
variable {F : Type} [Zero F] [Add F] (f : Floats F)

/-- `softmax_inplace`: a row with a NaN or without a finite maximum becomes uniform. -/
def softmaxInplace (v : List F) : List F :=
  if v.isEmpty then v
  else
    let max := v.foldl (fun max x => if f.isNan x then max else if f.gt x max then x else max) f.negInf
    if v.any f.isNan || !f.isFinite max then v.map fun _ => f.div f.one (f.ofLen v.length)
    else
      let v := v.map fun x => f.exp (f.sub x max)
      let sum := v.foldl (·+·) 0
      if f.gt sum 0 then v.map (f.div · sum) else v

/-- Scores from logits. -/
def LinearGate.score (gate : LinearGate F) (logits : List F) : List F :=
  match gate.scoringFunc with
  | .softmax => softmaxInplace f logits
  | .sigmoid => logits.map fun v => f.div f.one (f.one+f.exp (f.neg v))

end Scores

section Buffers
variable {F : Type} [LinearOrder F]

def scoreIdIsBetter (candidateScore : F) (candidateId : ℕ) (incumbentScore : F)
    (incumbentId : ℕ) : Bool :=
  Ranking.scoreIsBetter candidateScore candidateId incumbentScore incumbentId

def insertTopGroup (limit : ℕ) (groups : List (ℕ × F)) (group : ℕ) (score : F) : List (ℕ × F) :=
  if limit = 0 then groups
  else Ranking.insertBounded (fun a b => scoreIdIsBetter a.2 a.1 b.2 b.1) limit groups (group,score)

/-- The id is compared in full and stored as a `u32`. -/
def insertTopExpert (f : Floats F) (limit : ℕ) (experts : List (ℕ × F)) (expert : ℕ) (score : F) :
    List (ℕ × F) :=
  if limit = 0 ∨ f.isFinite score = false then experts
  else Ranking.insertBounded (fun _ entry => scoreIdIsBetter score expert entry.2 entry.1) limit
    experts (expert % 2^32,score)

end Buffers

/-- The sum of the two best scores of a group. -/
def groupScore {F : Type} [Zero F] [Add F] (f : Floats F) (slice : List F) : F :=
  let top := slice.foldl (fun (top : F × F) s =>
    if f.gt s top.1 then (s,top.1) else if f.gt s top.2 then (top.1,s) else top) (f.negInf,f.negInf)
  top.1+(if f.isFinite top.2 then top.2 else 0)

/-- The bias is added place by place, over the old selection scores. -/
def addBias {F : Type} [Add F] (selection logits bias : List F) : List F :=
  (selection.zip (logits.zip bias)).map (fun place => place.2.1+place.2.2)
    ++selection.drop (logits.zip bias).length

def expertGroupAllowed {F : Type} (expert groupSize : ℕ) (selectedGroups : List (ℕ × F)) : Bool :=
  selectedGroups.any fun entry => entry.1 == expert/groupSize

namespace LinearGate

/-- The number and the size of the groups, when the selection is limited to some of them. -/
def groupFilterShape {F : Type} (gate : LinearGate F) : Option (ℕ × ℕ) :=
  let nGroup := max gate.nGroup 1
  if nGroup ≤ 1 ∨ gate.topkGroup = 0 ∨ nGroup ≤ gate.topkGroup ∨ gate.numExperts % nGroup ≠ 0 then none
  else some (nGroup,gate.numExperts/nGroup)

/-- Selection scores; `copy_from_slice` panics on lists of different lengths. -/
def selectionScores {F : Type} [Add F] (gate : LinearGate F) (selection logits : List F) :
    Option (List F) :=
  match gate.correctionBias with
  | some bias => some (addBias selection logits bias)
  | none => if selection.length = logits.length then some logits else none

section Selection
variable {F : Type} [LinearOrder F] (f : Floats F) (gate : LinearGate F)

/-- The size of the groups, and the best of them in the buffer. -/
def selectTopGroups [Zero F] [Add F] (selection : List F) (groups : List (ℕ × F)) :
    Option (Option ℕ × List (ℕ × F)) :=
  match gate.groupFilterShape with
  | none => some (none,groups)
  | some (nGroup,groupSize) => do
    let groups ← (List.range nGroup).foldlM (fun groups g => do
      let slice ← readSlice selection (g*groupSize) groupSize
      return insertTopGroup gate.topkGroup groups g (groupScore f slice)) []
    return (some groupSize,groups)

/-- The loop over the experts. -/
def selectTopExperts (selection : List F) (selectedGroupSize : Option ℕ)
    (topGroups topExperts : List (ℕ × F)) : Option (List (ℕ × F)) :=
  (List.range gate.numExperts).foldlM (fun topExperts expert =>
    if selectedGroupSize.any fun groupSize => !expertGroupAllowed expert groupSize topGroups then
      some topExperts
    else do
      let score ← selection[expert]?
      return insertTopExpert f gate.topK topExperts expert score) topExperts

end Selection

/-- Normalised when their sum is finite and positive, and scaled. -/
def mixingWeights {F : Type} [Zero F] [Mul F] (f : Floats F) (gate : LinearGate F)
    (weights : List F) : List F :=
  let weights :=
    if gate.normaliseTopk && f.isFinite (f.sum weights) && f.gt (f.sum weights) 0 then
      weights.map (f.div · (f.sum weights))
    else weights
  if f.ne gate.routedScalingFactor f.one && f.isFinite gate.routedScalingFactor then
    weights.map (·*gate.routedScalingFactor)
  else weights

def routeWithScratch {F : Type} [LinearOrder F] [Zero F] [Add F] [Mul F] (f : Floats F)
    (gate : LinearGate F) (decode : List UInt8 → Vector F q8_0BlockElems)
    (matmul : List F → List F → ℕ → ℕ → ℕ → F) (x : List F) (scratch : RoutingScratch F) :
    Option (RoutingDecision F × RoutingScratch F) := do
  let scratch := scratch.resizeFor gate.numExperts
  let logits ← gate.weights.matvecInto decode matmul x scratch.logits
  let logits := gate.score f logits
  let selection ← gate.selectionScores scratch.selection logits
  let (selectedGroupSize,topGroups) ← gate.selectTopGroups f selection scratch.topGroups
  let topExperts ← gate.selectTopExperts f selection selectedGroupSize topGroups scratch.topExperts
  let experts := topExperts.map Prod.fst
  let weights ← experts.mapM fun expert => logits[expert]?
  return (⟨experts,gate.mixingWeights f weights⟩,⟨logits,selection,topGroups,topExperts,[],[]⟩)

end LinearGate
end MicroExpertRouter.Gating
