import MicroExpertRouter.TokenLoop.Recovery

/-! One token on the device: what a submitted segment does to hidden state, KV rows,
checkpoints, status and staging, and the host loop of `step_token_unified_inner` around it.
The numerical kernels are parameters; a kernel's flag is its numerical failure. Earlier KV
rows are constant during the step, so attention is a function of the current row. -/
namespace MicroExpertRouter.TokenLoop

def attentionNumericalFailure : BitVec 32 := 1
def routerNumericalFailure : BitVec 32 := 2
def expertResidencyMiss : BitVec 32 := 4
def expertNumericalFailure : BitVec 32 := 8
def lmHeadNumericalFailure : BitVec 32 := 16
def statusFatalMask : BitVec 32 := 27
def statusRetryableMask : BitVec 32 := expertResidencyMiss
def invalidToken : ℕ := u32Max

inductive StatusDisposition
  | clean
  | retryableResidencyMiss
  deriving DecidableEq, Repr

def classifyStatus (statusBits : BitVec 32) (layerIndex : Option ℕ) :
    Except TokenLoopError StatusDisposition :=
  let unknownBits := statusBits &&& ~~~(statusFatalMask ||| statusRetryableMask)
  if statusBits &&& statusFatalMask ≠ 0 then .error (.fatalNumericalFailure layerIndex statusBits)
  else if unknownBits ≠ 0 then .error (.unknownStatusBits layerIndex statusBits unknownBits)
  else if statusBits = statusRetryableMask then .ok .retryableResidencyMiss
  else .ok .clean

/-- The kernels of a model, over hidden vectors `H`, route weights `W` and KV rows `K`. -/
structure Kernels (H W K : Type) where
  embeddingLookup : ℕ → H
  rmsAttn : ℕ → H → H
  /-- The KV row that attention prepare appends at the current position. -/
  attentionPrepare : ℕ → H → K
  attentionComplete : ℕ → H → K → H × Bool
  rmsMoe : ℕ → H → H
  router : ℕ → H → (List ℕ × W) × Bool
  experts : ℕ → H → List ℕ → W → H × Bool
  residualAdd : H → H → H
  zero : H
  finalNorm : H → H
  /-- LM head and greedy argmax. -/
  greedyArgmax : H → ℕ × Bool

structure PreExpertCheckpoint (H W : Type) where
  hidden : H
  residual : H
  selectedIds : List ℕ
  selectedWeights : W

structure Device (H W K : Type) where
  hidden : H
  residual : H
  selectedIds : List ℕ
  selectedWeights : W
  status : BitVec 32
  /-- The KV row of each layer at the current position. -/
  kv : ℕ → K
  checkpoints : ℕ → PreExpertCheckpoint H W
  sampledToken : ℕ
  stagedStatus : ℕ → BitVec 32
  stagedIds : ℕ → List ℕ
  stagedFinalStatus : BitVec 32
  stagedToken : ℕ
  /-- Layers whose expert stage ran clean, in order: a history variable. -/
  expertRuns : List ℕ

structure BoundaryReport where
  layerStatuses : List (BitVec 32)
  selectedIds : List (List ℕ)
  finalStatus : BitVec 32
  sampledToken : ℕ
  deriving DecidableEq, Repr

def BoundaryReport.firstFailureLayerIn (self : BoundaryReport) (attempted : LayerRange) :
    Except TokenLoopError (Option ℕ) :=
  if attempted.stop ≤ attempted.start ∨ self.layerStatuses.length<attempted.stop then
    let range := attempted.debug
    let count := self.layerStatuses.length
    .error (.invalidBoundaryReport
      s!"attempted layer range {range} is invalid for {count} layer statuses")
  else
    let attemptedStatuses :=
      (self.layerStatuses.drop attempted.start).take (attempted.stop-attempted.start)
    .ok ((attemptedStatuses.findIdx? (· ≠ 0)).map (attempted.start+·))

section
variable {H W K : Type} (kernels : Kernels H W K)

def latch (failed : Bool) (bit status : BitVec 32) : BitVec 32 :=
  if failed then status ||| bit else status

namespace Device

/-- Attention, MoE norm, router and checkpoint capture of one ordinary layer. None of these
kernels reads the status. -/
def beforeExperts (layer : ℕ) (d : Device H W K) : Device H W K :=
  let normed := kernels.rmsAttn layer d.hidden
  let row := kernels.attentionPrepare layer normed
  let attended := kernels.attentionComplete layer normed row
  let attendedHidden := kernels.residualAdd d.hidden attended.1
  let routerInput := kernels.rmsMoe layer attendedHidden
  let routed := kernels.router layer routerInput
  { d with
    hidden := routerInput
    residual := attendedHidden
    selectedIds := routed.1.1
    selectedWeights := routed.1.2
    status := latch routed.2 routerNumericalFailure
      (latch attended.2 attentionNumericalFailure d.status)
    kv := Function.update d.kv layer row
    checkpoints := Function.update d.checkpoints layer
      ⟨routerInput,attendedHidden,routed.1.1,routed.1.2⟩ }

/-- Route resolution, expert execution, combination and residual completion. Any latched
status contains the whole stage; a missing expert latches the retryable bit. -/
def expertStage (resident : ℕ → Bool) (layer : ℕ) (d : Device H W K) : Device H W K :=
  let contained := kernels.residualAdd d.residual kernels.zero
  if d.status ≠ 0 then { d with hidden := contained }
  else if d.selectedIds.all resident then
    let combined := kernels.experts layer d.hidden d.selectedIds d.selectedWeights
    if combined.2 then
      { d with hidden := contained, status := d.status ||| expertNumericalFailure }
    else
      { d with
        hidden := kernels.residualAdd d.residual combined.1
        expertRuns := d.expertRuns++[layer] }
  else { d with hidden := contained, status := d.status ||| expertResidencyMiss }

/-- The expert stage and the copies of its status and ids into the staging buffer. -/
def encodeExpertLayer (resident : ℕ → Bool) (layer : ℕ) (d : Device H W K) : Device H W K :=
  let after := d.expertStage kernels resident layer
  { after with
    stagedStatus := Function.update after.stagedStatus layer after.status
    stagedIds := Function.update after.stagedIds layer after.selectedIds }

def ordinaryLayer (resident : ℕ → ℕ → Bool) (d : Device H W K) (layer : ℕ) : Device H W K :=
  (d.beforeExperts kernels layer).encodeExpertLayer kernels (resident layer) layer

def clearRetryableStatus (d : Device H W K) : Device H W K :=
  { d with status := d.status &&& ~~~statusRetryableMask }

def restorePreExpertCheckpoint (layer : ℕ) (d : Device H W K) : Device H W K :=
  { d with
    hidden := (d.checkpoints layer).hidden
    residual := (d.checkpoints layer).residual
    selectedIds := (d.checkpoints layer).selectedIds
    selectedWeights := (d.checkpoints layer).selectedWeights }

/-- The first commands of a segment, by the way it starts. -/
def startSegment (resident : ℕ → ℕ → Bool) (token : ℕ) (start : AttemptStart)
    (d : Device H W K) : Device H W K :=
  match start with
  | .fresh => { d with hidden := kernels.embeddingLookup token }
  | .resumeExpert layer =>
    (d.clearRetryableStatus.restorePreExpertCheckpoint layer).encodeExpertLayer kernels
      (resident layer) layer
  | .continueAt _ => d

/-- Final norm, LM head, argmax and the last staging copies of a completing segment. -/
def completeToken (sample : Bool) (d : Device H W K) : Device H W K :=
  if sample then
    let hidden := kernels.finalNorm d.hidden
    let best := kernels.greedyArgmax hidden
    let token := if d.status ≠ 0 ∨ best.2 = true then invalidToken else best.1
    let status := if d.status ≠ 0 then d.status else latch best.2 lmHeadNumericalFailure d.status
    { d with
      hidden := hidden
      status := status
      sampledToken := token
      stagedFinalStatus := status
      stagedToken := token }
  else { d with stagedFinalStatus := d.status }

/-- All commands of one submitted segment. -/
def runSegment (resident : ℕ → ℕ → Bool) (token : ℕ) (sample : Bool)
    (segment : ExecutionSegment) (d : Device H W K) : Device H W K :=
  let ran := segment.ordinaryLayers.layers.foldl (ordinaryLayer kernels resident)
    (d.startSegment kernels resident token segment.attemptStart)
  if segment.completesToken then ran.completeToken kernels sample else ran

/-- The parsed readback of the staging buffer. -/
def report (numLayers : ℕ) (d : Device H W K) : BoundaryReport :=
  ⟨(List.range numLayers).map d.stagedStatus,(List.range numLayers).map d.stagedIds,
    d.stagedFinalStatus,d.stagedToken⟩

end Device

/-- The fixed inputs of one token step. -/
structure TokenRequest where
  numLayers : ℕ
  topK : ℕ
  numExperts : ℕ
  tokenId : ℕ
  position : ℕ
  committedPosition : ℕ
  maxSeqLen : ℕ
  sample : Bool

/-- What the loop cannot decide: which experts each submission finds resident, and whether
the residency service of each attempt succeeds. -/
structure Residency where
  resident : ℕ → ℕ → ℕ → Bool
  serviced : ℕ → Bool

def executeTokenSegment (request : TokenRequest) (resident : ℕ → ℕ → Bool)
    (segment : ExecutionSegment) (d : Device H W K) : Except TokenLoopError (Device H W K) :=
  if request.position ≠ request.committedPosition then
    .error (.positionMismatch request.position request.committedPosition)
  else if request.maxSeqLen ≤ request.position then
    .error (.contextLimitExceeded request.position request.maxSeqLen)
  else if segment.attemptedLayers.stop ≤ segment.attemptedLayers.start
      ∨ request.numLayers<segment.attemptedLayers.stop
      ∨ segment.ordinaryLayers.stop<segment.ordinaryLayers.start
      ∨ request.numLayers<segment.ordinaryLayers.stop then
    .error (.invalidBoundaryReport ("invalid GPU-native execution segment: "++segment.debug))
  else
    let ran := d.runSegment kernels resident request.tokenId request.sample segment
    match segment.attemptStart with
    | .continueAt layer =>
      if segment.ordinaryLayers.start ≠ layer then
        .error (.invalidBoundaryReport s!"continuation does not start at layer {layer}")
      else .ok ran
    | _ => .ok ran

def checkSelectedIds (layer numExperts : ℕ) : List ℕ → Except TokenLoopError Unit
  | [] => .ok ()
  | id::ids =>
    if numExperts ≤ id then .error (.invalidSelectedExpertId layer id)
    else checkSelectedIds layer numExperts ids

def checkDistinctIds (layer : ℕ) : List ℕ → List ℕ → Except TokenLoopError Unit
  | _, [] => .ok ()
  | seen, id::ids =>
    if id ∈ seen then .error (.duplicateSelectedExpertId layer id)
    else checkDistinctIds layer (id::seen) ids

/-- Global ids of the selected experts, as the residency service takes them. -/
def globalIds (layerBase : ℕ) : List ℕ → Except TokenLoopError (List ℕ)
  | [] => .ok []
  | id::ids =>
    if layerBase+id ≤ u32Max then do return (layerBase+id)::(← globalIds layerBase ids)
    else .error (.invalidBoundaryReport "global selected expert id overflow")

/-- The host checks on a failed layer, up to and including the residency service. -/
def serviceMiss (request : TokenRequest) (serviced : Bool) (s : LoopState)
    (miss : MissSignature) : Except TokenLoopError Unit := do
  if miss.selectedIds.length ≠ request.topK then
    .error (.invalidTopKCount request.topK miss.selectedIds.length)
  else
    checkSelectedIds miss.layerIndex request.numExperts miss.selectedIds
    checkDistinctIds miss.layerIndex [] miss.selectedIds
    s.checkProgress miss
    match checkedMul usizeMax miss.layerIndex request.numExperts with
    | none => .error (.invalidBoundaryReport "global expert layer offset overflow")
    | some layerBase =>
      let _ ← globalIds layerBase miss.selectedIds
      if serviced then .ok () else .error .residencyServiceFailed

structure StepOutput (H W K : Type) where
  device : Device H W K
  report : BoundaryReport
  sampledToken : Option ℕ
  attempts : ℕ

/-- The retry loop: `remaining` is the attempt bound less the attempts made. -/
def tokenLoop (request : TokenRequest) (residency : Residency) (maxAttempts : ℕ) :
    ℕ → LoopState → Device H W K → Except TokenLoopError (StepOutput H W K)
  | 0, s, _ => .error (.attemptBoundExceeded s.attempts maxAttempts)
  | remaining+1, s, d => do
    let segment ← s.nextSegment request.numLayers maxAttempts
    let d ← executeTokenSegment kernels request (residency.resident s.attempts) segment d
    let report := d.report request.numLayers
    match ← report.firstFailureLayerIn segment.attemptedLayers with
    | some layer =>
      match ← classifyStatus (report.layerStatuses.getD layer 0) (some layer) with
      | .clean =>
        .error (.invalidBoundaryReport s!"failure layer {layer} classified as clean status")
      | .retryableResidencyMiss =>
        let miss : MissSignature := ⟨layer,report.selectedIds.getD layer []⟩
        serviceMiss request (residency.serviced s.attempts) s miss
        let next ← s.recordMiss request.numLayers segment miss
        tokenLoop request residency maxAttempts remaining next d
    | none =>
      let next ← s.recordClean request.numLayers segment
      if segment.completesToken then
        match ← classifyStatus report.finalStatus none with
        | .clean =>
          return ⟨d,report,if request.sample then some report.sampledToken else none,next.attempts⟩
        | .retryableResidencyMiss => .error (.fatalNumericalFailure none report.finalStatus)
      else tokenLoop request residency maxAttempts remaining next d

def stepToken (request : TokenRequest) (residency : Residency) (d : Device H W K) :
    Except TokenLoopError (StepOutput H W K) := do
  let maxAttempts ← attemptBound request.numLayers
  tokenLoop kernels request residency maxAttempts maxAttempts LoopState.start d

/-- The reference: one submission of the whole token from a clear status, every expert
resident. -/
def monolithicPass (request : TokenRequest) (d : Device H W K) : Device H W K :=
  Device.runSegment kernels (fun _ _ => true) request.tokenId request.sample
    ⟨.fresh,⟨0,request.numLayers⟩,⟨0,request.numLayers⟩,true⟩ { d with status := 0 }

end

end MicroExpertRouter.TokenLoop
