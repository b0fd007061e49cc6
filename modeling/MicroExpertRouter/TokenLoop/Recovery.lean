import MicroExpertRouter.Lib.Machine

/-! The recovery cursor of `gpu_native_token_loop.rs`: which layers the next submission
encodes after a residency miss, how clean segments and misses move the cursor, and the
bookkeeping of one turn of the token loop around a submission. -/
namespace MicroExpertRouter.TokenLoop

inductive TokenLoopError
  | contextLimitExceeded (requestedPosition maxSeqLen : ℕ)
  | positionMismatch (requestedPosition committedPosition : ℕ)
  | attemptBoundExceeded (attempts maxAttempts : ℕ)
  | noProgress (layerIndex : ℕ) (selectedIds : List ℕ)
  | fatalNumericalFailure (layerIndex : Option ℕ) (statusBits : BitVec 32)
  | unknownStatusBits (layerIndex : Option ℕ) (statusBits unknownBits : BitVec 32)
  | residencyServiceFailed
  | invalidBoundaryReport (detail : String)
  | invalidSelectedExpertId (layerIndex expertId : ℕ)
  | duplicateSelectedExpertId (layerIndex expertId : ℕ)
  | invalidTopKCount (expected actual : ℕ)
  deriving DecidableEq, Repr

/-- A half-open range of layers. -/
structure LayerRange where
  start : ℕ
  stop : ℕ
  deriving DecidableEq, Repr

namespace LayerRange

def layers (range : LayerRange) : List ℕ := List.range' range.start (range.stop-range.start)

def Contains (range : LayerRange) (layer : ℕ) : Prop := range.start ≤ layer ∧ layer<range.stop

instance (range : LayerRange) (layer : ℕ) : Decidable (range.Contains layer) :=
  inferInstanceAs (Decidable (_ ∧ _))

def debug (range : LayerRange) : String :=
  let start := range.start
  let stop := range.stop
  s!"{start}..{stop}"

end LayerRange

inductive AttemptStart
  | fresh
  | resumeExpert (layerIndex : ℕ)
  | continueAt (layerIndex : ℕ)
  deriving DecidableEq, Repr

structure MissSignature where
  layerIndex : ℕ
  selectedIds : List ℕ
  deriving DecidableEq, Repr

structure ExecutionSegment where
  attemptStart : AttemptStart
  ordinaryLayers : LayerRange
  attemptedLayers : LayerRange
  completesToken : Bool
  deriving DecidableEq, Repr

def AttemptStart.debug : AttemptStart → String
  | .fresh => "Fresh"
  | .resumeExpert layer => s!"ResumeExpert \x7b layer_index: {layer} \x7d"
  | .continueAt layer => s!"Continue \x7b layer_index: {layer} \x7d"

/-- The derived `Debug` text of a segment. -/
def ExecutionSegment.debug (self : ExecutionSegment) : String :=
  let start := self.attemptStart.debug
  let ordinary := self.ordinaryLayers.debug
  let attempted := self.attemptedLayers.debug
  let completes := self.completesToken
  s!"GpuNativeExecutionSegment \x7b attempt_start: {start}, ordinary_layers: {ordinary}, attempted_layers: {attempted}, completes_token: {completes} \x7d"

def ExecutionSegment.fresh (numLayers : ℕ) : Except TokenLoopError ExecutionSegment :=
  if numLayers = 0 then
    .error (.invalidBoundaryReport "cannot encode a token with zero layers")
  else .ok ⟨.fresh,⟨0,numLayers⟩,⟨0,numLayers⟩,true⟩

def recoveryInitialWindow : ℕ := 1
def recoveryMaxWindow : ℕ := 8

def attemptBound (numLayers : ℕ) : Except TokenLoopError ℕ :=
  match (checkedMul usizeMax numLayers 2).bind (checkedAdd usizeMax · 2) with
  | some bound => .ok bound
  | none => .error (.invalidBoundaryReport "GPU-native recovery attempt bound overflow")

structure RecoveryCursor where
  nextLayer : ℕ
  windowLayers : ℕ
  lastMiss : Option MissSignature
  residencyServices : ℕ
  cleanSegments : ℕ
  pendingResumeLayer : Option ℕ
  deriving DecidableEq, Repr

namespace RecoveryCursor

/-- The derived `Debug` text of a cursor. -/
def debug (self : RecoveryCursor) : String :=
  let miss := match self.lastMiss with
    | none => "None"
    | some miss =>
      let layer := miss.layerIndex
      let ids := miss.selectedIds
      s!"Some(GpuNativeMissSignature \x7b layer_index: {layer}, selected_ids: {ids} \x7d)"
  let pending := match self.pendingResumeLayer with
    | none => "None"
    | some layer => s!"Some({layer})"
  let next := self.nextLayer
  let window := self.windowLayers
  let services := self.residencyServices
  let clean := self.cleanSegments
  s!"GpuNativeRecoveryCursor \x7b next_layer: {next}, window_layers: {window}, last_miss: {miss}, residency_services: {services}, clean_segments: {clean}, pending_resume_layer: {pending} \x7d"

def afterServicedMiss (numLayers : ℕ) (miss : MissSignature) :
    Except TokenLoopError RecoveryCursor :=
  if numLayers ≤ miss.layerIndex then
    let layer := miss.layerIndex
    .error (.invalidBoundaryReport s!"recovery miss layer {layer} is outside 0..{numLayers}")
  else .ok ⟨miss.layerIndex+1,recoveryInitialWindow,some miss,1,0,some miss.layerIndex⟩

/-- Where the next segment starts: how, its first attempted layer, its first ordinary layer. -/
def segmentStart (self : RecoveryCursor) (numLayers : ℕ) :
    Except TokenLoopError (AttemptStart × ℕ × ℕ) :=
  match self.pendingResumeLayer with
  | some layer =>
    if numLayers ≤ layer ∨ self.nextLayer ≠ layer+1 then
      .error (.invalidBoundaryReport ("invalid pending resume cursor: "++self.debug))
    else .ok (.resumeExpert layer,layer,self.nextLayer)
  | none =>
    if numLayers ≤ self.nextLayer then
      .error (.invalidBoundaryReport "completed recovery cursor cannot plan another segment")
    else .ok (.continueAt self.nextLayer,self.nextLayer,self.nextLayer)

def plan (self : RecoveryCursor) (numLayers : ℕ) : Except TokenLoopError ExecutionSegment :=
  if numLayers = 0 ∨ self.windowLayers = 0 ∨ recoveryMaxWindow<self.windowLayers
      ∨ numLayers<self.nextLayer then
    .error (.invalidBoundaryReport ("invalid GPU-native recovery cursor: "++self.debug))
  else do
    let (attemptStart,attemptedStart,ordinaryStart) ← self.segmentStart numLayers
    let ordinaryEnd := min (saturatingAdd usizeMax ordinaryStart self.windowLayers) numLayers
    return ⟨attemptStart,⟨ordinaryStart,ordinaryEnd⟩,⟨attemptedStart,ordinaryEnd⟩,
      ordinaryEnd = numLayers⟩

def recordCleanSegment (self : RecoveryCursor) (segment : ExecutionSegment) (numLayers : ℕ) :
    Except TokenLoopError (RecoveryCursor × Bool) := do
  let planned ← self.plan numLayers
  if planned ≠ segment then
    .error (.invalidBoundaryReport "recovery segment does not match current cursor")
  else
    let next := { self with
      nextLayer := segment.ordinaryLayers.stop
      pendingResumeLayer := none
      cleanSegments := saturatingAdd usizeMax self.cleanSegments 1
      windowLayers := min (min (self.windowLayers*2) usizeMax) recoveryMaxWindow }
    if next.nextLayer ≤ self.nextLayer ∧ segment.completesToken = false then
      .error (.invalidBoundaryReport "clean recovery segment made no forward progress")
    else .ok (next,segment.completesToken)

def recordServicedMiss (self : RecoveryCursor) (segment : ExecutionSegment)
    (miss : MissSignature) : Except TokenLoopError RecoveryCursor :=
  if ¬ segment.attemptedLayers.Contains miss.layerIndex then
    let layer := miss.layerIndex
    let interval := segment.attemptedLayers.debug
    .error (.invalidBoundaryReport s!"miss layer {layer} is outside attempted interval {interval}")
  else if self.lastMiss = some miss then .error (.noProgress miss.layerIndex miss.selectedIds)
  else .ok { self with
    nextLayer := miss.layerIndex+1
    windowLayers := recoveryInitialWindow
    pendingResumeLayer := some miss.layerIndex
    lastMiss := some miss
    residencyServices := saturatingAdd usizeMax self.residencyServices 1 }

end RecoveryCursor

/-- The loop variables of one token step. -/
structure LoopState where
  attempts : ℕ
  recovery : Option RecoveryCursor
  deriving DecidableEq, Repr

namespace LoopState

def start : LoopState := ⟨0,none⟩

def lastMiss (self : LoopState) : Option MissSignature :=
  self.recovery.bind RecoveryCursor.lastMiss

/-- The segment of the next submission. -/
def segment (self : LoopState) (numLayers : ℕ) : Except TokenLoopError ExecutionSegment :=
  match self.recovery with
  | some cursor => cursor.plan numLayers
  | none => ExecutionSegment.fresh numLayers

/-- The head of the loop: the attempt bound, then the segment. -/
def nextSegment (self : LoopState) (numLayers maxAttempts : ℕ) :
    Except TokenLoopError ExecutionSegment :=
  if maxAttempts ≤ self.attempts then
    .error (.attemptBoundExceeded self.attempts maxAttempts)
  else self.segment numLayers

/-- The repeated-miss test made before the residency service is asked. -/
def checkProgress (self : LoopState) (miss : MissSignature) : Except TokenLoopError Unit :=
  if self.lastMiss = some miss then .error (.noProgress miss.layerIndex miss.selectedIds)
  else .ok ()

/-- The cursor after a miss that the residency service has served. -/
def recordMiss (self : LoopState) (numLayers : ℕ) (segment : ExecutionSegment)
    (miss : MissSignature) : Except TokenLoopError LoopState :=
  match self.recovery with
  | some cursor => do
    return ⟨self.attempts+1,some (← cursor.recordServicedMiss segment miss)⟩
  | none => do
    return ⟨self.attempts+1,some (← RecoveryCursor.afterServicedMiss numLayers miss)⟩

/-- The cursor after a segment without a failed layer. -/
def recordClean (self : LoopState) (numLayers : ℕ) (segment : ExecutionSegment) :
    Except TokenLoopError LoopState :=
  match self.recovery with
  | none => .ok ⟨self.attempts+1,none⟩
  | some cursor => do
    let (next,completed) ← cursor.recordCleanSegment segment numLayers
    if completed ≠ segment.completesToken then
      .error (.invalidBoundaryReport "recovery completion disagrees with encoded segment")
    else .ok ⟨self.attempts+1,some next⟩

end LoopState

end MicroExpertRouter.TokenLoop
