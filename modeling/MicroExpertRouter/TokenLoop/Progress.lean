import MicroExpertRouter.TokenLoop.Recovery

/-! Recovery makes progress: along every sequence of boundary outcomes the cursor can plan,
its next layer grows with every attempt, and the layers settled so far are an initial range. -/
namespace MicroExpertRouter.TokenLoop

/-- What the readback of one submission tells the loop. -/
inductive Boundary
  | clean
  | miss (signature : MissSignature)
  deriving DecidableEq, Repr

namespace LoopState

/-- Loop variables after one boundary, and whether the token is complete. -/
def recordBoundary (self : LoopState) (numLayers : ℕ) (segment : ExecutionSegment) :
    Boundary → Except TokenLoopError (LoopState × Bool)
  | .clean => do return (← self.recordClean numLayers segment,segment.completesToken)
  | .miss miss => do
    self.checkProgress miss
    return (← self.recordMiss numLayers segment miss,false)

def nextLayer (self : LoopState) : ℕ := (self.recovery.map RecoveryCursor.nextLayer).getD 0

end LoopState

/-- First layer whose clean expert execution is still to come. -/
def RecoveryCursor.frontier (cursor : RecoveryCursor) : ℕ :=
  cursor.pendingResumeLayer.getD cursor.nextLayer

/-- How the next segment starts. -/
def RecoveryCursor.attemptStart (cursor : RecoveryCursor) : AttemptStart :=
  match cursor.pendingResumeLayer with
  | some layer => .resumeExpert layer
  | none => .continueAt cursor.nextLayer

def LoopState.frontier (self : LoopState) : ℕ := (self.recovery.map RecoveryCursor.frontier).getD 0

/-- Layers that a boundary settles: the whole attempted interval, or its part before the miss. -/
def settled (segment : ExecutionSegment) : Boundary → LayerRange
  | .clean => segment.attemptedLayers
  | .miss miss => ⟨segment.attemptedLayers.start,miss.layerIndex⟩

/-- Boundaries the device can report: a miss lies in the attempted interval, and a repeated
miss at the resumed layer reports the ids of its checkpoint. -/
def Admissible (s : LoopState) (segment : ExecutionSegment) : Boundary → Prop
  | .clean => True
  | .miss miss => segment.attemptedLayers.Contains miss.layerIndex ∧
    (segment.attemptStart = .resumeExpert miss.layerIndex →
      ∀ last, s.lastMiss = some last → miss.selectedIds = last.selectedIds)

/-- Unfinished loop states of a token, with the layer ranges settled on the way. -/
inductive Reaches (numLayers : ℕ) : LoopState → List LayerRange → Prop
  | start : Reaches numLayers LoopState.start []
  | step {s next : LoopState} {ranges : List LayerRange} {segment : ExecutionSegment}
      {boundary : Boundary} : Reaches numLayers s ranges →
      s.segment numLayers = .ok segment → Admissible s segment boundary →
      s.recordBoundary numLayers segment boundary = .ok (next,false) →
      Reaches numLayers next (ranges++[settled segment boundary])

/-- A cursor of an unfinished token. -/
structure CursorValid (numLayers : ℕ) (cursor : RecoveryCursor) : Prop where
  window : 1 ≤ cursor.windowLayers ∧ cursor.windowLayers ≤ recoveryMaxWindow
  pending : ∀ layer, cursor.pendingResumeLayer = some layer →
    cursor.nextLayer = layer+1 ∧ layer<numLayers ∧
      ∃ ids, cursor.lastMiss = some ⟨layer,ids⟩
  running : cursor.pendingResumeLayer = none → cursor.nextLayer<numLayers
  last : ∀ miss, cursor.lastMiss = some miss → miss.layerIndex<cursor.nextLayer

namespace CursorValid
variable {numLayers : ℕ} {cursor : RecoveryCursor}

lemma nextLayer_le (h : CursorValid numLayers cursor) : cursor.nextLayer ≤ numLayers := by
  cases hp : cursor.pendingResumeLayer with
  | none => exact (h.running hp).le
  | some layer =>
    obtain ⟨hnext,hlt,_⟩ := h.pending layer hp
    omega

lemma frontier_lt (h : CursorValid numLayers cursor) : cursor.frontier<numLayers := by
  unfold RecoveryCursor.frontier
  cases hp : cursor.pendingResumeLayer with
  | none => exact h.running hp
  | some layer => exact (h.pending layer hp).2.1

/-- A valid cursor plans: from its frontier, for its window, to the last layer at most. -/
lemma plan_eq (h : CursorValid numLayers cursor) (hwidth : numLayers ≤ usizeMax) :
    cursor.plan numLayers = .ok ⟨cursor.attemptStart,
      ⟨cursor.nextLayer,min (cursor.nextLayer+cursor.windowLayers) numLayers⟩,
      ⟨cursor.frontier,min (cursor.nextLayer+cursor.windowLayers) numLayers⟩,
      decide (min (cursor.nextLayer+cursor.windowLayers) numLayers = numLayers)⟩ := by
  have hnext := h.nextLayer_le
  have hfront := h.frontier_lt
  obtain ⟨hw1,hw8⟩ := h.window
  have hend : min (saturatingAdd usizeMax cursor.nextLayer cursor.windowLayers) numLayers =
      min (cursor.nextLayer+cursor.windowLayers) numLayers := by
    simp only [saturatingAdd]
    omega
  unfold RecoveryCursor.plan
  rw [if_neg (by omega)]
  cases hp : cursor.pendingResumeLayer with
  | none =>
    have hrun := h.running hp
    have hstart : cursor.segmentStart numLayers =
        .ok (.continueAt cursor.nextLayer,cursor.nextLayer,cursor.nextLayer) := by
      simp only [RecoveryCursor.segmentStart, hp]
      rw [if_neg (by omega)]
    rw [hstart]
    simp only [bind, Except.bind, pure, Except.pure, hend, RecoveryCursor.attemptStart, hp, RecoveryCursor.frontier,
      Option.getD_none]
  | some layer =>
    obtain ⟨hlayer,hlt,_⟩ := h.pending layer hp
    have hstart : cursor.segmentStart numLayers =
        .ok (.resumeExpert layer,layer,cursor.nextLayer) := by
      simp only [RecoveryCursor.segmentStart, hp]
      rw [if_neg (by omega)]
    rw [hstart]
    simp only [bind, Except.bind, pure, Except.pure, hend, RecoveryCursor.attemptStart, hp, RecoveryCursor.frontier,
      Option.getD_some]

/-- A planned segment starts at the frontier. -/
lemma start_of_plan (h : CursorValid numLayers cursor) (hwidth : numLayers ≤ usizeMax)
    {segment : ExecutionSegment} (hplan : cursor.plan numLayers = .ok segment) :
    segment.attemptedLayers.start = cursor.frontier := by
  rw [h.plan_eq hwidth] at hplan
  rw [← Except.ok.inj hplan]

/-- A clean planned segment moves the cursor to its end. -/
lemma recordClean (h : CursorValid numLayers cursor) (hwidth : numLayers ≤ usizeMax)
    {segment : ExecutionSegment} (hplan : cursor.plan numLayers = .ok segment) :
    ∃ next, cursor.recordCleanSegment segment numLayers = .ok (next,segment.completesToken) ∧
      next.nextLayer = segment.attemptedLayers.stop ∧ next.pendingResumeLayer = none ∧
      (1 ≤ next.windowLayers ∧ next.windowLayers ≤ recoveryMaxWindow) ∧
      (segment.completesToken = true → segment.attemptedLayers.stop = numLayers) ∧
      (segment.completesToken = false →
        CursorValid numLayers next ∧ cursor.nextLayer<next.nextLayer) := by
  have hplanned := hplan
  rw [h.plan_eq hwidth] at hplan
  obtain rfl := Except.ok.inj hplan
  have hnext := h.nextLayer_le
  obtain ⟨hw1,hw8⟩ := h.window
  have hmoves : ¬ (min (cursor.nextLayer+cursor.windowLayers) numLayers ≤ cursor.nextLayer ∧
      decide (min (cursor.nextLayer+cursor.windowLayers) numLayers = numLayers) = false) := by
    rw [decide_eq_false_iff_not]
    omega
  have hwindow : 1 ≤ min (min (cursor.windowLayers*2) usizeMax) recoveryMaxWindow ∧
      min (min (cursor.windowLayers*2) usizeMax) recoveryMaxWindow ≤ recoveryMaxWindow := by
    unfold usizeMax recoveryMaxWindow at *
    omega
  refine ⟨{ cursor with
    nextLayer := min (cursor.nextLayer+cursor.windowLayers) numLayers
    pendingResumeLayer := none
    cleanSegments := saturatingAdd usizeMax cursor.cleanSegments 1
    windowLayers := min (min (cursor.windowLayers*2) usizeMax) recoveryMaxWindow },
    ?_,rfl,rfl,hwindow,?_,?_⟩
  · unfold RecoveryCursor.recordCleanSegment
    rw [hplanned]
    simp only [bind, Except.bind, ne_eq, not_true_eq_false, if_false]
    rw [if_neg hmoves]
  · exact of_decide_eq_true
  · intro hopen
    have hopen := of_decide_eq_false hopen
    refine ⟨⟨hwindow,?_,?_,?_⟩,?_⟩
    · intro layer hlayer
      cases hlayer
    · intro _
      change min (cursor.nextLayer+cursor.windowLayers) numLayers<numLayers
      omega
    · intro miss hmiss
      have := h.last miss hmiss
      change miss.layerIndex < min (cursor.nextLayer+cursor.windowLayers) numLayers
      omega
    · change cursor.nextLayer < min (cursor.nextLayer+cursor.windowLayers) numLayers
      omega

lemma of_miss {miss : MissSignature} (hlayer : miss.layerIndex<numLayers)
    (hnext : cursor.nextLayer = miss.layerIndex+1)
    (hwindow : cursor.windowLayers = recoveryInitialWindow) (hlast : cursor.lastMiss = some miss)
    (hpend : cursor.pendingResumeLayer = some miss.layerIndex) : CursorValid numLayers cursor := by
  refine ⟨?_,?_,?_,?_⟩
  · rw [hwindow]
    decide
  · intro layer hresume
    rw [hpend] at hresume
    obtain rfl := Option.some.inj hresume
    exact ⟨hnext,hlayer,miss.selectedIds,hlast⟩
  · intro hnone
    rw [hpend] at hnone
    cases hnone
  · intro other hother
    rw [hlast] at hother
    obtain rfl := Option.some.inj hother
    omega

/-- The cursor that follows a new miss. -/
lemma recordMiss (h : CursorValid numLayers cursor) (hwidth : numLayers ≤ usizeMax)
    {segment : ExecutionSegment} (hplan : cursor.plan numLayers = .ok segment)
    {miss : MissSignature} (hmem : segment.attemptedLayers.Contains miss.layerIndex)
    (hids : segment.attemptStart = .resumeExpert miss.layerIndex →
      ∀ last, cursor.lastMiss = some last → miss.selectedIds = last.selectedIds)
    (hnew : cursor.lastMiss ≠ some miss) :
    ∃ next, cursor.recordServicedMiss segment miss = .ok next ∧ CursorValid numLayers next ∧
      next.nextLayer = miss.layerIndex+1 ∧ next.pendingResumeLayer = some miss.layerIndex ∧
      cursor.nextLayer<next.nextLayer := by
  rw [h.plan_eq hwidth] at hplan
  obtain rfl := Except.ok.inj hplan
  obtain ⟨hlow,hhigh⟩ := hmem
  have hlayer : miss.layerIndex<numLayers := by
    change miss.layerIndex < min (cursor.nextLayer+cursor.windowLayers) numLayers at hhigh
    omega
  have hmoves : cursor.nextLayer < miss.layerIndex+1 := by
    cases hp : cursor.pendingResumeLayer with
    | none =>
      have hfront : cursor.frontier = cursor.nextLayer := by
        rw [RecoveryCursor.frontier, hp, Option.getD_none]
      change cursor.frontier ≤ miss.layerIndex at hlow
      omega
    | some layer =>
      -- A miss at the resumed layer itself would repeat the last miss.
      obtain ⟨hnext,_,ids,hlast⟩ := h.pending layer hp
      have hfront : cursor.frontier = layer := by
        rw [RecoveryCursor.frontier, hp, Option.getD_some]
      change cursor.frontier ≤ miss.layerIndex at hlow
      have hne : miss.layerIndex ≠ layer := by
        rintro rfl
        have hstart : cursor.attemptStart = .resumeExpert miss.layerIndex := by
          rw [RecoveryCursor.attemptStart, hp]
        have hsame : miss.selectedIds = ids := hids hstart _ hlast
        apply hnew
        rw [hlast, ← hsame]
      omega
  refine ⟨{ cursor with
    nextLayer := miss.layerIndex+1
    windowLayers := recoveryInitialWindow
    pendingResumeLayer := some miss.layerIndex
    lastMiss := some miss
    residencyServices := saturatingAdd usizeMax cursor.residencyServices 1 },
    ?_,of_miss hlayer rfl rfl rfl rfl,rfl,rfl,hmoves⟩
  unfold RecoveryCursor.recordServicedMiss
  rw [if_neg (not_not.mpr ⟨hlow,hhigh⟩), if_neg hnew]

end CursorValid

/-- What every unfinished loop state keeps. -/
structure Advancing (numLayers : ℕ) (s : LoopState) (ranges : List LayerRange) : Prop where
  attempts : s.attempts ≤ s.nextLayer
  tiled : ranges.flatMap LayerRange.layers = List.range s.frontier
  cursor : ∀ cursor, s.recovery = some cursor → CursorValid numLayers cursor

/-- The recovery window of a loop state, if it has one, is in bounds. -/
def WindowInRange (s : LoopState) : Prop :=
  ∀ cursor, s.recovery = some cursor →
    1 ≤ cursor.windowLayers ∧ cursor.windowLayers ≤ recoveryMaxWindow

lemma settle_range {ranges : List LayerRange} {start stop : ℕ} (hle : start ≤ stop)
    (htiled : ranges.flatMap LayerRange.layers = List.range start) :
    (ranges++[LayerRange.mk start stop]).flatMap LayerRange.layers = List.range stop := by
  have happend : List.range' 0 start++List.range' (0+start) (stop-start) =
      List.range' 0 (start+(stop-start)) := List.range'_append_1
  rw [Nat.zero_add, Nat.add_sub_cancel' hle] at happend
  rw [List.flatMap_append, htiled, List.flatMap_singleton, List.range_eq_range',
    List.range_eq_range']
  exact happend

section
variable {numLayers : ℕ} {s : LoopState} {ranges : List LayerRange} {segment : ExecutionSegment}

lemma Advancing.segment_ok (h : Advancing numLayers s ranges) (hpos : 1 ≤ numLayers)
    (hwidth : numLayers ≤ usizeMax) : ∃ segment, s.segment numLayers = .ok segment := by
  unfold LoopState.segment
  cases hr : s.recovery with
  | none => exact ⟨_,by rw [ExecutionSegment.fresh, if_neg (by omega)]⟩
  | some cursor => exact ⟨_,(h.cursor cursor hr).plan_eq hwidth⟩

/-- The outcomes of one boundary: no progress, a complete token, or a larger next layer. -/
def BoundaryProgress (numLayers : ℕ) (s : LoopState) (ranges : List LayerRange)
    (segment : ExecutionSegment) (boundary : Boundary) : Prop :=
  (∃ layer ids, s.recordBoundary numLayers segment boundary = .error (.noProgress layer ids)) ∨
  (∃ next, s.recordBoundary numLayers segment boundary = .ok (next,true) ∧
    (ranges++[settled segment boundary]).flatMap LayerRange.layers = List.range numLayers ∧
    next.attempts = s.attempts+1 ∧ WindowInRange next) ∨
  ∃ next, s.recordBoundary numLayers segment boundary = .ok (next,false) ∧
    Advancing numLayers next (ranges++[settled segment boundary]) ∧ s.nextLayer<next.nextLayer

lemma Advancing.clean (h : Advancing numLayers s ranges) (hpos : 1 ≤ numLayers)
    (hwidth : numLayers ≤ usizeMax) (hseg : s.segment numLayers = .ok segment) :
    BoundaryProgress numLayers s ranges segment .clean := by
  unfold LoopState.segment at hseg
  obtain ⟨attempts,recovery⟩ := s
  cases recovery with
  | none =>
    simp only [ExecutionSegment.fresh, if_neg (show ¬ numLayers = 0 by omega)] at hseg
    obtain rfl := Except.ok.inj hseg
    refine Or.inr (Or.inl ⟨⟨attempts+1,none⟩,rfl,settle_range (Nat.zero_le _) h.tiled,rfl,?_⟩)
    intro cursor hcursor
    cases hcursor
  | some cursor =>
    have hvalid := h.cursor cursor rfl
    have hfront := hvalid.frontier_lt
    obtain ⟨next,hrecord,hnext,hpend,hwindow,hdone,hopen⟩ := hvalid.recordClean hwidth hseg
    have hstart := hvalid.start_of_plan hwidth hseg
    have hloop : LoopState.recordBoundary ⟨attempts,some cursor⟩ numLayers segment .clean =
        .ok (⟨attempts+1,some next⟩,segment.completesToken) := by
      simp only [LoopState.recordBoundary, LoopState.recordClean, hrecord, bind, Except.bind,
        ne_eq, not_true_eq_false, if_false]
      rfl
    have hrange : settled segment .clean = ⟨cursor.frontier,segment.attemptedLayers.stop⟩ := by
      rw [← hstart]
      rfl
    cases hcompletes : segment.completesToken with
    | true =>
      rw [hcompletes] at hloop
      refine Or.inr (Or.inl ⟨_,hloop,?_,rfl,?_⟩)
      · rw [hrange, hdone hcompletes]
        exact settle_range hfront.le h.tiled
      · intro c hc
        obtain rfl := Option.some.inj hc
        exact hwindow
    | false =>
      rw [hcompletes] at hloop
      obtain ⟨hvalid',hmoves⟩ := hopen hcompletes
      have hfront' : next.frontier = segment.attemptedLayers.stop := by
        rw [RecoveryCursor.frontier, hpend, Option.getD_none, hnext]
      refine Or.inr (Or.inr ⟨_,hloop,⟨?_,?_,?_⟩,hmoves⟩)
      · have hattempts : attempts ≤ cursor.nextLayer := h.attempts
        change attempts+1 ≤ next.nextLayer
        omega
      · rw [hrange]
        change _ = List.range next.frontier
        rw [hfront']
        refine settle_range ?_ h.tiled
        have hlow : cursor.frontier ≤ cursor.nextLayer := by
          unfold RecoveryCursor.frontier
          cases hp : cursor.pendingResumeLayer with
          | none => exact le_rfl
          | some layer =>
            have := (hvalid.pending layer hp).1
            simp only [Option.getD_some]
            omega
        omega
      · intro c hc
        obtain rfl := Option.some.inj hc
        exact hvalid'

lemma Advancing.miss (h : Advancing numLayers s ranges) (hpos : 1 ≤ numLayers)
    (hwidth : numLayers ≤ usizeMax) (hseg : s.segment numLayers = .ok segment)
    {miss : MissSignature} (hadm : Admissible s segment (.miss miss)) :
    BoundaryProgress numLayers s ranges segment (.miss miss) := by
  unfold LoopState.segment at hseg
  obtain ⟨attempts,recovery⟩ := s
  obtain ⟨hmem,hids⟩ := hadm
  cases recovery with
  | none =>
    simp only [ExecutionSegment.fresh, if_neg (show ¬ numLayers = 0 by omega)] at hseg
    obtain rfl := Except.ok.inj hseg
    have hlayer : miss.layerIndex<numLayers := hmem.2
    refine Or.inr (Or.inr ⟨⟨attempts+1,some ⟨miss.layerIndex+1,recoveryInitialWindow,some miss,1,0,
      some miss.layerIndex⟩⟩,?_,⟨?_,settle_range (Nat.zero_le _) h.tiled,?_⟩,Nat.succ_pos _⟩)
    · simp only [LoopState.recordBoundary, LoopState.checkProgress, LoopState.lastMiss,
        LoopState.recordMiss, RecoveryCursor.afterServicedMiss]
      rw [if_neg (show ¬ numLayers ≤ miss.layerIndex by omega)]
      rfl
    · have hattempts : attempts ≤ 0 := h.attempts
      change attempts+1 ≤ miss.layerIndex+1
      omega
    · intro cursor hcursor
      obtain rfl := Option.some.inj hcursor
      exact CursorValid.of_miss hlayer rfl rfl rfl rfl
  | some cursor =>
    have hvalid := h.cursor cursor rfl
    by_cases hrepeat : cursor.lastMiss = some miss
    · refine Or.inl ⟨miss.layerIndex,miss.selectedIds,?_⟩
      simp only [LoopState.recordBoundary, LoopState.checkProgress, LoopState.lastMiss,
        Option.bind_some, hrepeat, if_true]
      rfl
    · obtain ⟨next,hrecord,hvalid',hnext,hpend,hmoves⟩ :=
        hvalid.recordMiss hwidth hseg hmem hids hrepeat
      have hstart := hvalid.start_of_plan hwidth hseg
      refine Or.inr (Or.inr ⟨⟨attempts+1,some next⟩,?_,⟨?_,?_,?_⟩,hmoves⟩)
      · simp only [LoopState.recordBoundary, LoopState.checkProgress, LoopState.lastMiss,
          Option.bind_some, hrepeat, if_false, LoopState.recordMiss, hrecord]
        rfl
      · have hattempts : attempts ≤ cursor.nextLayer := h.attempts
        change attempts+1 ≤ next.nextLayer
        omega
      · have hfront : next.frontier = miss.layerIndex := by
          rw [RecoveryCursor.frontier, hpend, Option.getD_some]
        change (ranges++[LayerRange.mk segment.attemptedLayers.start miss.layerIndex]).flatMap
          LayerRange.layers = List.range next.frontier
        rw [hfront, hstart]
        refine settle_range ?_ h.tiled
        rw [← hstart]
        exact hmem.1
      · intro c hc
        obtain rfl := Option.some.inj hc
        exact hvalid'

lemma Advancing.boundary (h : Advancing numLayers s ranges) (hpos : 1 ≤ numLayers)
    (hwidth : numLayers ≤ usizeMax) (hseg : s.segment numLayers = .ok segment)
    {boundary : Boundary} (hadm : Admissible s segment boundary) :
    BoundaryProgress numLayers s ranges segment boundary := by
  cases boundary with
  | clean => exact h.clean hpos hwidth hseg
  | miss signature => exact h.miss hpos hwidth hseg hadm

end

/-- Every reachable loop state advances. -/
theorem Reaches.advancing {numLayers : ℕ} (hpos : 1 ≤ numLayers) (hwidth : numLayers ≤ usizeMax)
    {s : LoopState} {ranges : List LayerRange} (h : Reaches numLayers s ranges) :
    Advancing numLayers s ranges := by
  induction h with
  | start =>
    refine ⟨le_rfl,rfl,?_⟩
    intro cursor hcursor
    cases hcursor
  | step _ hseg hadm hrecord ih =>
    rcases ih.boundary hpos hwidth hseg hadm with ⟨_,_,herr⟩ | ⟨_,hdone,_⟩ | ⟨_,hnext,hadv,_⟩
    · rw [herr] at hrecord
      cases hrecord
    · rw [hdone] at hrecord
      cases hrecord
    · rw [hnext] at hrecord
      cases hrecord
      exact hadv

lemma Advancing.attempts_le {numLayers : ℕ} {s : LoopState} {ranges : List LayerRange}
    (h : Advancing numLayers s ranges) : s.attempts ≤ numLayers := by
  refine h.attempts.trans ?_
  unfold LoopState.nextLayer
  cases hr : s.recovery with
  | none => exact Nat.zero_le _
  | some cursor => exact (h.cursor cursor hr).nextLayer_le

lemma attemptBound_eq_ok {numLayers maxAttempts : ℕ}
    (h : attemptBound numLayers = .ok maxAttempts) : maxAttempts = 2*numLayers+2 := by
  unfold attemptBound checkedMul at h
  split_ifs at h with hmul
  · cases hadd : checkedAdd usizeMax (numLayers*2) 2 with
    | none => simp [hadd] at h
    | some bound =>
      obtain ⟨_,rfl⟩ := checkedAdd_eq_some.mp hadd
      rw [Option.bind_some, hadd] at h
      have := Except.ok.inj h
      omega
  · cases h

/-- Recovery progresses within its bound. In every unfinished state of every token, for any
boundary outcomes: a segment can be planned, so the attempt bound is never exceeded; the next
boundary fails without progress, completes the token with its layers tiled exactly once, or
raises the next layer; the settled ranges tile an initial range of layers; the window stays
between one and eight; and at most one attempt per layer has been made, so that no token takes
more than one attempt beyond its number of layers. -/
theorem recovery_progresses (numLayers : ℕ) (hpos : 1 ≤ numLayers) (hwidth : numLayers ≤ usizeMax)
    (s : LoopState) (ranges : List LayerRange) (h : Reaches numLayers s ranges) :
    (∃ segment, s.segment numLayers = .ok segment ∧
      (∀ maxAttempts, attemptBound numLayers = .ok maxAttempts →
        s.nextSegment numLayers maxAttempts = .ok segment) ∧
      ∀ boundary, Admissible s segment boundary →
        (∃ layer ids, s.recordBoundary numLayers segment boundary =
          .error (.noProgress layer ids)) ∨
        (∃ next, s.recordBoundary numLayers segment boundary = .ok (next,true) ∧
          (ranges++[settled segment boundary]).flatMap LayerRange.layers = List.range numLayers ∧
          next.attempts ≤ numLayers+1 ∧ WindowInRange next) ∨
        ∃ next, s.recordBoundary numLayers segment boundary = .ok (next,false) ∧
          s.nextLayer<next.nextLayer) ∧
    ranges.flatMap LayerRange.layers = List.range s.frontier ∧
    WindowInRange s ∧ s.attempts ≤ numLayers := by
  have hadv := h.advancing hpos hwidth
  have hle := hadv.attempts_le
  obtain ⟨segment,hseg⟩ := hadv.segment_ok hpos hwidth
  refine ⟨⟨segment,hseg,?_,?_⟩,hadv.tiled,?_,hle⟩
  · intro maxAttempts hbound
    rw [attemptBound_eq_ok hbound, LoopState.nextSegment, if_neg (by omega)]
    exact hseg
  · intro boundary hadm
    rcases hadv.boundary hpos hwidth hseg hadm with herr | ⟨next,hdone,htile,hatt,hwin⟩ |
      ⟨next,hnext,_,hmoves⟩
    · exact Or.inl herr
    · exact Or.inr (Or.inl ⟨next,hdone,htile,by omega,hwin⟩)
    · exact Or.inr (Or.inr ⟨next,hnext,hmoves⟩)
  · intro cursor hcursor
    exact (hadv.cursor cursor hcursor).window

/-- Three layers, a miss at layer one, a clean resume that ends the token's last layer. -/
theorem recovery_progresses_after_miss :
    Reaches 3 ⟨1,some ⟨2,1,some ⟨1,[4,7]⟩,1,0,some 1⟩⟩ [⟨0,1⟩] ∧
      ∃ segment, LoopState.segment ⟨1,some ⟨2,1,some ⟨1,[4,7]⟩,1,0,some 1⟩⟩ 3 = .ok segment := by
  have hreach : Reaches 3 ⟨1,some ⟨2,1,some ⟨1,[4,7]⟩,1,0,some 1⟩⟩ ([]++[⟨0,1⟩]) :=
    @Reaches.step 3 LoopState.start _ [] ⟨.fresh,⟨0,3⟩,⟨0,3⟩,true⟩ (.miss ⟨1,[4,7]⟩)
      Reaches.start rfl ⟨by decide,fun h => by cases h⟩ rfl
  obtain ⟨⟨segment,hseg,_⟩,_⟩ := recovery_progresses 3 (by decide) (by decide) _ _ hreach
  exact ⟨hreach,segment,hseg⟩

end MicroExpertRouter.TokenLoop
