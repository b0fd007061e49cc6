import MicroExpertRouter.TokenLoop.Device
import MicroExpertRouter.TokenLoop.Progress

/-! Token recovery is transparent. The reference computes every layer from the clean hidden
state; a device is settled up to a layer when its KV rows, staged ids and clean expert runs are
those of the reference. A segment either stays on the reference to its end or fails at a first
layer, whose checkpoint is then the reference's. -/
namespace MicroExpertRouter.TokenLoop
variable {H W K : Type} (kernels : Kernels H W K) (token : ℕ)

/-- Hidden state after attention of one layer, from the layer's input. -/
def attendedHidden (layer : ℕ) (h : H) : H :=
  let normed := kernels.rmsAttn layer h
  kernels.residualAdd h
    (kernels.attentionComplete layer normed (kernels.attentionPrepare layer normed)).1

/-- The pre-expert state of one layer, from the layer's input. -/
def checkpointOf (layer : ℕ) (h : H) : PreExpertCheckpoint H W :=
  let attended := attendedHidden kernels layer h
  let routed := kernels.router layer (kernels.rmsMoe layer attended)
  ⟨kernels.rmsMoe layer attended,attended,routed.1.1,routed.1.2⟩

def combinedOf (layer : ℕ) (c : PreExpertCheckpoint H W) : H × Bool :=
  kernels.experts layer c.hidden c.selectedIds c.selectedWeights

/-- Input of each layer in the reference. -/
def cleanHidden : ℕ → H
  | 0 => kernels.embeddingLookup token
  | layer+1 =>
    let c := checkpointOf kernels layer (cleanHidden layer)
    kernels.residualAdd c.residual (combinedOf kernels layer c).1

def cleanCheckpoint (layer : ℕ) : PreExpertCheckpoint H W :=
  checkpointOf kernels layer (cleanHidden kernels token layer)

def cleanRow (layer : ℕ) : K :=
  kernels.attentionPrepare layer (kernels.rmsAttn layer (cleanHidden kernels token layer))

/-- Attention and router of a layer do not fail on the reference. -/
def RoutesClean (layer : ℕ) : Prop :=
  (kernels.attentionComplete layer (kernels.rmsAttn layer (cleanHidden kernels token layer))
    (cleanRow kernels token layer)).2 = false ∧
  (kernels.router layer (cleanCheckpoint kernels token layer).hidden).2 = false

/-- The whole layer does not fail on the reference. -/
def LayerClean (layer : ℕ) : Prop :=
  RoutesClean kernels token layer ∧
    (combinedOf kernels layer (cleanCheckpoint kernels token layer)).2 = false

/-- Layers below `n` carry the reference's rows, ids and clean runs. -/
structure Settled (log : List ℕ) (n : ℕ) (d : Device H W K) : Prop where
  rows : ∀ layer<n, d.kv layer = cleanRow kernels token layer
  ids : ∀ layer<n, d.stagedIds layer = (cleanCheckpoint kernels token layer).selectedIds
  runs : d.expertRuns = log++List.range n
  clean : ∀ layer<n, LayerClean kernels token layer

/-- The hidden state is the reference's input of layer `n`. -/
structure Aligned (log : List ℕ) (n : ℕ) (d : Device H W K) : Prop extends
    Settled kernels token log n d where
  hidden : d.hidden = cleanHidden kernels token n

/-- Layer `n` has been routed on the reference and waits for its experts. -/
structure Pending (log : List ℕ) (n : ℕ) (d : Device H W K) : Prop extends
    Settled kernels token log n d where
  row : d.kv n = cleanRow kernels token n
  checkpoint : d.checkpoints n = cleanCheckpoint kernels token n
  routes : RoutesClean kernels token n

section
variable {kernels} {token} {log : List ℕ} {n : ℕ} {d : Device H W K}

lemma Settled.congr {e : Device H W K} (h : Settled kernels token log n d)
    (hkv : ∀ layer<n, e.kv layer = d.kv layer)
    (hids : ∀ layer<n, e.stagedIds layer = d.stagedIds layer)
    (hruns : e.expertRuns = d.expertRuns) : Settled kernels token log n e :=
  ⟨fun l hl => (hkv l hl).trans (h.rows l hl),fun l hl => (hids l hl).trans (h.ids l hl),
    hruns.trans h.runs,h.clean⟩

/-- What a poisoned layer leaves alone. -/
structure SameBelow (n : ℕ) (d e : Device H W K) : Prop where
  kv : ∀ layer<n, e.kv layer = d.kv layer
  checkpoints : ∀ layer<n, e.checkpoints layer = d.checkpoints layer
  stagedStatus : ∀ layer<n, e.stagedStatus layer = d.stagedStatus layer
  stagedIds : ∀ layer<n, e.stagedIds layer = d.stagedIds layer

lemma SameBelow.refl (d : Device H W K) : SameBelow n d d :=
  ⟨fun _ _ => rfl,fun _ _ => rfl,fun _ _ => rfl,fun _ _ => rfl⟩

lemma SameBelow.trans {e f : Device H W K} (h : SameBelow n d e) (h' : SameBelow n e f) :
    SameBelow n d f :=
  ⟨fun l hl => (h'.kv l hl).trans (h.kv l hl),
    fun l hl => (h'.checkpoints l hl).trans (h.checkpoints l hl),
    fun l hl => (h'.stagedStatus l hl).trans (h.stagedStatus l hl),
    fun l hl => (h'.stagedIds l hl).trans (h.stagedIds l hl)⟩

lemma SameBelow.mono {m : ℕ} {e : Device H W K} (h : SameBelow n d e) (hle : m ≤ n) :
    SameBelow m d e :=
  ⟨fun l hl => h.kv l (by omega),fun l hl => h.checkpoints l (by omega),
    fun l hl => h.stagedStatus l (by omega),fun l hl => h.stagedIds l (by omega)⟩

/-- What the expert stage of a layer keeps, and how it ends: clean, or with a latched status. -/
structure ExpertOutcome (kernels : Kernels H W K) (resident : ℕ → Bool) (layer : ℕ)
    (d e : Device H W K) : Prop where
  kv : e.kv = d.kv
  checkpoints : e.checkpoints = d.checkpoints
  stagedStatus : e.stagedStatus = Function.update d.stagedStatus layer e.status
  stagedIds : e.stagedIds = Function.update d.stagedIds layer d.selectedIds
  ends :
    (d.status = 0 ∧ d.selectedIds.all resident = true ∧
      (kernels.experts layer d.hidden d.selectedIds d.selectedWeights).2 = false ∧
      e.status = 0 ∧ e.expertRuns = d.expertRuns++[layer] ∧
      e.hidden = kernels.residualAdd d.residual
        (kernels.experts layer d.hidden d.selectedIds d.selectedWeights).1) ∨
    (e.status ≠ 0 ∧ e.expertRuns = d.expertRuns ∧
      (d.selectedIds.all resident = false ∨ d.status ≠ 0 ∨
        (kernels.experts layer d.hidden d.selectedIds d.selectedWeights).2 = true) ∧
      (e.status = expertResidencyMiss → d.status = 0 ∨ d.status = expertResidencyMiss))

lemma encodeExpertLayer_outcome (kernels : Kernels H W K) (resident : ℕ → Bool) (layer : ℕ)
    (d : Device H W K) :
    ExpertOutcome kernels resident layer d (d.encodeExpertLayer kernels resident layer) := by
  have hnum : (0 : BitVec 32) ||| expertNumericalFailure ≠ 0 := by decide
  have hmiss : (0 : BitVec 32) ||| expertResidencyMiss ≠ 0 := by decide
  unfold Device.encodeExpertLayer Device.expertStage
  dsimp only
  split_ifs with hstatus hres hfail
  · exact ⟨rfl,rfl,rfl,rfl,Or.inr ⟨hstatus,rfl,Or.inr (Or.inl hstatus),Or.inr⟩⟩
  · have hzero : d.status = 0 := not_not.mp hstatus
    refine ⟨rfl,rfl,rfl,rfl,Or.inr ⟨?_,rfl,Or.inr (Or.inr hfail),fun _ => Or.inl hzero⟩⟩
    simp only [hzero]
    exact hnum
  · have hzero : d.status = 0 := not_not.mp hstatus
    exact ⟨rfl,rfl,rfl,rfl,Or.inl ⟨hzero,hres,by simpa using hfail,hzero,rfl,rfl⟩⟩
  · have hzero : d.status = 0 := not_not.mp hstatus
    refine ⟨rfl,rfl,rfl,rfl,Or.inr ⟨?_,rfl,Or.inl (by simpa using hres),fun _ => Or.inl hzero⟩⟩
    simp only [hzero]
    exact hmiss

lemma latch_ne_zero {failed : Bool} {bit status : BitVec 32} (h : status ≠ 0) :
    latch failed bit status ≠ 0 := by
  unfold latch
  split_ifs
  · intro hor
    exact h (BitVec.or_eq_zero_iff.mp hor).1
  · exact h

lemma ExpertOutcome.poisoned {resident : ℕ → Bool} {layer : ℕ} {e : Device H W K}
    (h : ExpertOutcome kernels resident layer d e) (hstatus : d.status ≠ 0) :
    e.status ≠ 0 ∧ e.expertRuns = d.expertRuns := by
  rcases h.ends with ⟨hzero,_⟩ | ⟨hne,hruns,_⟩
  · exact absurd hzero hstatus
  · exact ⟨hne,hruns⟩

lemma ordinaryLayer_sameBelow (kernels : Kernels H W K) (resident : ℕ → ℕ → Bool)
    (d : Device H W K) (layer : ℕ) : SameBelow layer d (d.ordinaryLayer kernels resident layer) := by
  have h := encodeExpertLayer_outcome kernels (resident layer) layer
    (d.beforeExperts kernels layer)
  refine ⟨?_,?_,?_,?_⟩
  · intro l hl
    change ((d.beforeExperts kernels layer).encodeExpertLayer kernels _ layer).kv l = _
    rw [h.kv]
    exact Function.update_of_ne (Nat.ne_of_lt hl) _ _
  · intro l hl
    change ((d.beforeExperts kernels layer).encodeExpertLayer kernels _ layer).checkpoints l = _
    rw [h.checkpoints]
    exact Function.update_of_ne (Nat.ne_of_lt hl) _ _
  · intro l hl
    change ((d.beforeExperts kernels layer).encodeExpertLayer kernels _ layer).stagedStatus l = _
    rw [h.stagedStatus, Function.update_of_ne (Nat.ne_of_lt hl)]
    rfl
  · intro l hl
    change ((d.beforeExperts kernels layer).encodeExpertLayer kernels _ layer).stagedIds l = _
    rw [h.stagedIds, Function.update_of_ne (Nat.ne_of_lt hl)]
    rfl

/-- The layers behind a failed one run contained: no clean run is logged. -/
lemma runLayers_poisoned (kernels : Kernels H W K) (resident : ℕ → ℕ → Bool) (start count : ℕ)
    {d : Device H W K} (hstatus : d.status ≠ 0) :
    SameBelow start d
        ((List.range' start count).foldl (Device.ordinaryLayer kernels resident) d) ∧
      ((List.range' start count).foldl (Device.ordinaryLayer kernels resident) d).expertRuns =
        d.expertRuns := by
  induction count generalizing start d with
  | zero => exact ⟨SameBelow.refl d,rfl⟩
  | succ count ih =>
    have hpre : (d.beforeExperts kernels start).status ≠ 0 := latch_ne_zero (latch_ne_zero hstatus)
    obtain ⟨hne,hruns⟩ := (encodeExpertLayer_outcome kernels (resident start) start
      (d.beforeExperts kernels start)).poisoned hpre
    obtain ⟨hsame,hlog⟩ := ih (start+1) hne
    rw [List.range'_succ, List.foldl_cons]
    refine ⟨?_,hlog.trans hruns⟩
    exact (ordinaryLayer_sameBelow kernels resident d start).trans (hsame.mono (Nat.le_succ _))

/-- Running later layers never touches an earlier one. -/
lemma runLayers_sameBelow (kernels : Kernels H W K) (resident : ℕ → ℕ → Bool) (start count : ℕ)
    (d : Device H W K) :
    SameBelow start d
      ((List.range' start count).foldl (Device.ordinaryLayer kernels resident) d) := by
  induction count generalizing start d with
  | zero => exact SameBelow.refl d
  | succ count ih =>
    rw [List.range'_succ, List.foldl_cons]
    exact (ordinaryLayer_sameBelow kernels resident d start).trans
      ((ih (start+1) _).mono (Nat.le_succ _))

/-- How a run of layers from `start` to `stop` ends: on the reference with clear statuses, or
at a first failed layer. -/
def SegmentOutcome (kernels : Kernels H W K) (token : ℕ) (log : List ℕ) (start stop : ℕ)
    (e : Device H W K) : Prop :=
  (Aligned kernels token log stop e ∧ e.status = 0 ∧
    ∀ layer, start ≤ layer → layer<stop → e.stagedStatus layer = 0) ∨
  ∃ layer, start ≤ layer ∧ layer<stop ∧ e.stagedStatus layer ≠ 0 ∧
    (∀ before, start ≤ before → before<layer → e.stagedStatus before = 0) ∧
    (e.stagedStatus layer = expertResidencyMiss → Pending kernels token log layer e)

/-- A device that holds the reference's pre-expert state of layer `n`. -/
structure Routed (kernels : Kernels H W K) (token : ℕ) (log : List ℕ) (n : ℕ)
    (d : Device H W K) : Prop extends Settled kernels token log n d where
  row : d.kv n = cleanRow kernels token n
  checkpoint : d.checkpoints n = cleanCheckpoint kernels token n
  hidden : d.hidden = (cleanCheckpoint kernels token n).hidden
  residual : d.residual = (cleanCheckpoint kernels token n).residual
  selectedIds : d.selectedIds = (cleanCheckpoint kernels token n).selectedIds
  selectedWeights : d.selectedWeights = (cleanCheckpoint kernels token n).selectedWeights
  /-- A status without fatal bits proves that attention and router of the layer were clean. -/
  routes : d.status = 0 ∨ d.status = expertResidencyMiss → RoutesClean kernels token n

/-- The expert stage of a routed layer, then layers behind it that failed or not. -/
lemma Routed.experts (h : Routed kernels token log n d) (resident : ℕ → Bool) :
    let e := d.encodeExpertLayer kernels resident n
    (Aligned kernels token log (n+1) e ∧ e.status = 0 ∧ e.stagedStatus n = 0) ∨
    (e.status ≠ 0 ∧ e.stagedStatus n ≠ 0 ∧ Settled kernels token log n e ∧
      e.kv n = cleanRow kernels token n ∧ e.checkpoints n = cleanCheckpoint kernels token n ∧
      (e.stagedStatus n = expertResidencyMiss → RoutesClean kernels token n)) := by
  have hout := encodeExpertLayer_outcome kernels resident n d
  intro e
  have hstaged : e.stagedStatus n = e.status := by
    rw [hout.stagedStatus, Function.update_self]
  have hidsBelow : ∀ layer<n, e.stagedIds layer = d.stagedIds layer := by
    intro layer hl
    rw [hout.stagedIds, Function.update_of_ne (Nat.ne_of_lt hl)]
  rcases hout.ends with ⟨hzero,_,hclean,hstatus,hruns,hhidden⟩ | ⟨hne,hruns,_,hretry⟩
  · left
    have hlayer : LayerClean kernels token n := by
      refine ⟨h.routes (Or.inl hzero),?_⟩
      rw [combinedOf, ← h.hidden, ← h.selectedIds, ← h.selectedWeights]
      exact hclean
    refine ⟨⟨⟨?_,?_,?_,?_⟩,?_⟩,hstatus,hstaged.trans hstatus⟩
    · intro layer hl
      rw [hout.kv]
      rcases Nat.lt_succ_iff_lt_or_eq.mp hl with hl | rfl
      · exact h.rows layer hl
      · exact h.row
    · intro layer hl
      rcases Nat.lt_succ_iff_lt_or_eq.mp hl with hl | rfl
      · exact (hidsBelow layer hl).trans (h.ids layer hl)
      · rw [hout.stagedIds, Function.update_self, h.selectedIds]
    · rw [hruns, h.runs, List.range_succ, List.append_assoc]
    · intro layer hl
      rcases Nat.lt_succ_iff_lt_or_eq.mp hl with hl | rfl
      · exact h.clean layer hl
      · exact hlayer
    · rw [hhidden, h.hidden, h.residual, h.selectedIds, h.selectedWeights]
      rfl
  · right
    refine ⟨hne,by rw [hstaged]; exact hne,?_,?_,?_,?_⟩
    · exact h.toSettled.congr (fun layer _ => by rw [hout.kv]) hidsBelow hruns
    · rw [hout.kv]
      exact h.row
    · rw [hout.checkpoints]
      exact h.checkpoint
    · rw [hstaged]
      exact fun hmiss => h.routes (hretry hmiss)

/-- Fatal bits of attention or router stay visible in the status. -/
lemma latches_clean {attentionFailed routerFailed : Bool} {status : BitVec 32}
    (h : latch routerFailed routerNumericalFailure
        (latch attentionFailed attentionNumericalFailure status) = 0 ∨
      latch routerFailed routerNumericalFailure
        (latch attentionFailed attentionNumericalFailure status) = expertResidencyMiss) :
    attentionFailed = false ∧ routerFailed = false := by
  have hrouter : routerFailed = false := by
    cases routerFailed with
    | false => rfl
    | true =>
      rcases h with h | h
      all_goals
        have hbit := congrArg (fun x : BitVec 32 => x.getLsbD 1) h
        simp [latch,routerNumericalFailure,expertResidencyMiss] at hbit
  refine ⟨?_,hrouter⟩
  cases attentionFailed with
  | false => rfl
  | true =>
    subst hrouter
    rcases h with h | h
    all_goals
      have hbit := congrArg (fun x : BitVec 32 => x.getLsbD 0) h
      simp [latch,attentionNumericalFailure,expertResidencyMiss] at hbit

lemma Aligned.beforeExperts (h : Aligned kernels token log n d) :
    Routed kernels token log n (d.beforeExperts kernels n) := by
  obtain ⟨hsettled,hhidden⟩ := h
  have hbelow : Settled kernels token log n (d.beforeExperts kernels n) := by
    refine hsettled.congr ?_ (fun _ _ => rfl) rfl
    intro layer hl
    exact Function.update_of_ne (Nat.ne_of_lt hl) _ _
  refine ⟨hbelow,?_,?_,?_,?_,?_,?_,?_⟩
  · simp only [Device.beforeExperts, Function.update_self, hhidden, cleanRow]
  · simp only [Device.beforeExperts, Function.update_self, hhidden]
    rfl
  · simp only [Device.beforeExperts, hhidden]
    rfl
  · simp only [Device.beforeExperts, hhidden]
    rfl
  · simp only [Device.beforeExperts, hhidden]
    rfl
  · simp only [Device.beforeExperts, hhidden]
    rfl
  · intro hstatus
    simp only [Device.beforeExperts, hhidden] at hstatus
    exact latches_clean hstatus

lemma SegmentOutcome.cons {stop : ℕ} (h : SegmentOutcome kernels token log (n+1) stop d)
    (hclear : d.stagedStatus n = 0) (hlt : n<stop) : SegmentOutcome kernels token log n stop d := by
  have hextend : ∀ layer, n ≤ layer → layer = n ∨ n+1 ≤ layer := fun layer hl => by omega
  rcases h with ⟨hal,hstatus,hall⟩ | ⟨layer,hlow,hhigh,hne,hbefore,hpend⟩
  · refine Or.inl ⟨hal,hstatus,?_⟩
    intro layer hl hstop
    rcases hextend layer hl with rfl | hl
    · exact hclear
    · exact hall layer hl hstop
  · refine Or.inr ⟨layer,by omega,hhigh,hne,?_,hpend⟩
    intro before hl hbelow
    rcases hextend before hl with rfl | hl
    · exact hclear
    · exact hbefore before hl hbelow

/-- A routed layer followed by ordinary layers, given what those do from the reference. -/
lemma Routed.segment (h : Routed kernels token log n d) (resident : ℕ → ℕ → Bool) (count : ℕ)
    (hrest : ∀ e : Device H W K, Aligned kernels token log (n+1) e → e.status = 0 →
      SegmentOutcome kernels token log (n+1) (n+1+count)
        ((List.range' (n+1) count).foldl (Device.ordinaryLayer kernels resident) e)) :
    SegmentOutcome kernels token log n (n+1+count)
      ((List.range' (n+1) count).foldl (Device.ordinaryLayer kernels resident)
        (d.encodeExpertLayer kernels (resident n) n)) := by
  have hsame := runLayers_sameBelow kernels resident (n+1) count
    (d.encodeExpertLayer kernels (resident n) n)
  rcases h.experts (resident n) with ⟨hal,hstatus,hclear⟩ | ⟨hne,hfail,hset,hrow,hcp,hroutes⟩
  · refine (hrest _ hal hstatus).cons ?_ (by omega)
    rw [hsame.stagedStatus n (Nat.lt_succ_self n)]
    exact hclear
  · obtain ⟨_,hlog⟩ := runLayers_poisoned kernels resident (n+1) count hne
    refine Or.inr ⟨n,le_rfl,by omega,?_,fun before hl hbelow => by omega,?_⟩
    · rw [hsame.stagedStatus n (Nat.lt_succ_self n)]
      exact hfail
    · rw [hsame.stagedStatus n (Nat.lt_succ_self n)]
      intro hmiss
      refine ⟨hset.congr (fun l hl => hsame.kv l (by omega)) (fun l hl => hsame.stagedIds l (by omega))
        hlog,?_,?_,hroutes hmiss⟩
      · rw [hsame.kv n (Nat.lt_succ_self n)]
        exact hrow
      · rw [hsame.checkpoints n (Nat.lt_succ_self n)]
        exact hcp

/-- Ordinary layers from the reference: the first failed layer leaves a pending checkpoint. -/
theorem Aligned.runLayers (h : Aligned kernels token log n d) (resident : ℕ → ℕ → Bool)
    (count : ℕ) (hstart : d.status = 0 ∨ 0<count) :
    SegmentOutcome kernels token log n (n+count)
      ((List.range' n count).foldl (Device.ordinaryLayer kernels resident) d) := by
  induction count generalizing n d with
  | zero =>
    have hstatus : d.status = 0 := hstart.resolve_right (Nat.lt_irrefl 0)
    exact Or.inl ⟨h,hstatus,fun layer hl hstop => by omega⟩
  | succ count ih =>
    rw [List.range'_succ, List.foldl_cons]
    have hrouted := h.beforeExperts.segment resident count
      (fun e hal hstatus => ih hal (Or.inl hstatus))
    have harith : n+1+count = n+(count+1) := by omega
    rw [harith] at hrouted
    exact hrouted

lemma Pending.restore (h : Pending kernels token log n d) :
    Routed kernels token log n (d.clearRetryableStatus.restorePreExpertCheckpoint n) := by
  refine ⟨h.toSettled.congr (fun _ _ => rfl) (fun _ _ => rfl) rfl,h.row,h.checkpoint,?_,?_,?_,?_,
    fun _ => h.routes⟩
  · exact congrArg PreExpertCheckpoint.hidden h.checkpoint
  · exact congrArg PreExpertCheckpoint.residual h.checkpoint
  · exact congrArg PreExpertCheckpoint.selectedIds h.checkpoint
  · exact congrArg PreExpertCheckpoint.selectedWeights h.checkpoint

/-- Resuming a pending layer, then ordinary layers. -/
theorem Pending.resume (h : Pending kernels token log n d) (resident : ℕ → ℕ → Bool) (count : ℕ) :
    SegmentOutcome kernels token log n (n+1+count)
      ((List.range' (n+1) count).foldl (Device.ordinaryLayer kernels resident)
        (d.startSegment kernels resident token (.resumeExpert n))) :=
  h.restore.segment resident count
    (fun _ hal hstatus => hal.runLayers resident count (Or.inl hstatus))

/-- Layers that are clean and resident stay on the reference. -/
theorem Aligned.runResident (h : Aligned kernels token log n d) (hstatus : d.status = 0)
    (count : ℕ) (hclean : ∀ layer<n+count, LayerClean kernels token layer) :
    Aligned kernels token log (n+count)
        ((List.range' n count).foldl (Device.ordinaryLayer kernels (fun _ _ => true)) d) ∧
      ((List.range' n count).foldl (Device.ordinaryLayer kernels (fun _ _ => true)) d).status =
        0 := by
  induction count generalizing n d with
  | zero => exact ⟨h,hstatus⟩
  | succ count ih =>
    have hlayer := hclean n (by omega)
    have hrouted := h.beforeExperts
    have hzero : (d.beforeExperts kernels n).status = 0 := by
      obtain ⟨⟨hatt,hroute⟩,_⟩ := hlayer
      rw [← hrouted.hidden] at hroute
      simp only [cleanRow, ← h.hidden] at hatt
      simp only [Device.beforeExperts] at hroute ⊢
      rw [hatt, hroute]
      exact hstatus
    have hout := encodeExpertLayer_outcome kernels (fun _ => true) n (d.beforeExperts kernels n)
    have hok : ((d.beforeExperts kernels n).encodeExpertLayer kernels (fun _ => true) n).status =
        0 := by
      rcases hout.ends with ⟨_,_,_,hok,_⟩ | ⟨_,_,hwhy,_⟩
      · exact hok
      · rcases hwhy with hres | hbad | hfail
        · simp at hres
        · exact absurd hzero hbad
        · rw [hrouted.hidden, hrouted.selectedIds, hrouted.selectedWeights] at hfail
          have hexpert := hlayer.2
          rw [combinedOf, hfail] at hexpert
          cases hexpert
    rcases hrouted.experts (fun _ => true) with ⟨hal,_,_⟩ | ⟨hne,_⟩
    · rw [List.range'_succ, List.foldl_cons]
      have harith : n+(count+1) = n+1+count := by omega
      rw [harith] at hclean ⊢
      exact ih hal hok hclean
    · exact absurd hok hne

/-- The readback slice of an attempted interval. -/
lemma slice_range {α : Type} (f : ℕ → α) {numLayers start count : ℕ}
    (h : start+count ≤ numLayers) :
    (((List.range numLayers).map f).drop start).take count =
      (List.range' start count).map f := by
  apply List.ext_getElem
  · simp only [List.length_take, List.length_drop, List.length_map, List.length_range,
      List.length_range']
    omega
  · intro i _ _
    simp

/-- The first layer of an interval with a nonzero staged status. -/
def FirstFailure (d : Device H W K) (start stop : ℕ) : Option ℕ → Prop
  | none => ∀ layer, start ≤ layer → layer<stop → d.stagedStatus layer = 0
  | some layer => start ≤ layer ∧ layer<stop ∧ d.stagedStatus layer ≠ 0 ∧
      ∀ before, start ≤ before → before<layer → d.stagedStatus before = 0

lemma firstFailureLayerIn_report {numLayers start stop : ℕ} (hlt : start<stop)
    (hle : stop ≤ numLayers) {found : Option ℕ}
    (h : (d.report numLayers).firstFailureLayerIn ⟨start,stop⟩ = .ok found) :
    FirstFailure d start stop found := by
  have hlen : (d.report numLayers).layerStatuses.length = numLayers := by
    simp [Device.report]
  unfold BoundaryReport.firstFailureLayerIn at h
  rw [if_neg (by simp only [hlen]; omega)] at h
  have hslice : (((d.report numLayers).layerStatuses.drop start).take (stop-start)) =
      (List.range' start (stop-start)).map d.stagedStatus := slice_range d.stagedStatus (by omega)
  simp only [hslice, List.findIdx?_map] at h
  obtain rfl := Except.ok.inj h
  cases hfind : (List.range' start (stop-start)).findIdx?
      ((fun x => decide (x ≠ 0)) ∘ d.stagedStatus) with
  | none =>
    rw [List.findIdx?_eq_none_iff] at hfind
    intro layer hl hstop
    have := hfind layer (List.mem_range'_1.mpr ⟨hl,by omega⟩)
    simpa using this
  | some i =>
    obtain ⟨hi,hp,hbefore⟩ := List.findIdx?_eq_some_iff_getElem.mp hfind
    rw [List.length_range'] at hi
    simp only [List.getElem_range', Function.comp, Nat.one_mul, decide_eq_true_eq] at hp hbefore
    change FirstFailure d start stop (some (start+i))
    refine ⟨Nat.le_add_right _ _,by omega,hp,?_⟩
    intro before hl hbelow
    have := hbefore (before-start) (by omega)
    rw [Nat.add_sub_cancel' hl] at this
    simpa using this

/-- Only the statuses of the layers matter. -/
lemma FirstFailure.congr {e : Device H W K} {start stop : ℕ} {found : Option ℕ}
    (h : FirstFailure d start stop found) (hstaged : d.stagedStatus = e.stagedStatus) :
    FirstFailure e start stop found := by
  cases found with
  | none =>
    intro layer hlow hhigh
    rw [← hstaged]
    exact h layer hlow hhigh
  | some layer =>
    obtain ⟨hlow,hhigh,hne,hbefore⟩ := h
    rw [hstaged] at hne hbefore
    exact ⟨hlow,hhigh,hne,hbefore⟩

/-- A run without a failed layer stays on the reference. -/
lemma SegmentOutcome.aligned {start stop : ℕ} (h : SegmentOutcome kernels token log start stop d)
    (hclear : FirstFailure d start stop none) :
    Aligned kernels token log stop d ∧ d.status = 0 := by
  rcases h with ⟨hal,hstatus,-⟩ | ⟨first,hlow,hhigh,hne,-⟩
  · exact ⟨hal,hstatus⟩
  · exact absurd (hclear first hlow hhigh) hne

/-- A run whose first failed layer reports the bare miss is pending there: it is the first layer
of the outcome too. -/
lemma SegmentOutcome.pending {start stop layer : ℕ}
    (h : SegmentOutcome kernels token log start stop d)
    (hfirst : FirstFailure d start stop (some layer))
    (hmiss : d.stagedStatus layer = expertResidencyMiss) : Pending kernels token log layer d := by
  obtain ⟨hlow,hhigh,hne,hbefore⟩ := hfirst
  rcases h with ⟨_,_,hall⟩ | ⟨first,hl,hh,hfne,hfb,hfp⟩
  · exact absurd (hall layer hlow hhigh) hne
  · obtain rfl : first = layer := by
      rcases Nat.lt_trichotomy first layer with hcmp | hcmp | hcmp
      · exact absurd (hbefore first hl hcmp) hfne
      · exact hcmp
      · exact absurd (hfb layer hlow hcmp) hne
    exact hfp hmiss

lemma report_status {numLayers layer : ℕ} (h : layer<numLayers) :
    (d.report numLayers).layerStatuses.getD layer 0 = d.stagedStatus layer := by
  simp [Device.report,List.getD,h]

/-- The only status the loop retries is the bare residency miss. -/
lemma classifyStatus_retryable {status : BitVec 32} {layer : Option ℕ}
    (h : classifyStatus status layer = .ok .retryableResidencyMiss) :
    status = expertResidencyMiss := by
  unfold classifyStatus at h
  dsimp only at h
  split_ifs at h with hfatal hunknown hretry
  · exact hretry
  · cases h

/-- What the loop knows of the device before the next submission. -/
def LoopAligned (kernels : Kernels H W K) (token : ℕ) (log : List ℕ) (s : LoopState)
    (d : Device H W K) : Prop :=
  match s.recovery with
  | none => d.expertRuns = log
  | some cursor =>
    match cursor.pendingResumeLayer with
    | some layer => Pending kernels token log layer d
    | none => Aligned kernels token log cursor.nextLayer d ∧ d.status = 0

/-- The submission of the loop's segment, before the completing commands. -/
def ranLayers (kernels : Kernels H W K) (token : ℕ) (resident : ℕ → ℕ → Bool)
    (segment : ExecutionSegment) (d : Device H W K) : Device H W K :=
  segment.ordinaryLayers.layers.foldl (Device.ordinaryLayer kernels resident)
    (d.startSegment kernels resident token segment.attemptStart)

lemma LoopAligned.ranLayers {s : LoopState} (h : LoopAligned kernels token log s d)
    {numLayers : ℕ} (hpos : 1 ≤ numLayers) (hwidth : numLayers ≤ usizeMax)
    (hcursor : ∀ cursor, s.recovery = some cursor → CursorValid numLayers cursor)
    {segment : ExecutionSegment} (hseg : s.segment numLayers = .ok segment)
    (resident : ℕ → ℕ → Bool) :
    segment.attemptedLayers.start<segment.attemptedLayers.stop ∧
      segment.attemptedLayers.stop ≤ numLayers ∧
      (segment.completesToken = true → segment.attemptedLayers.stop = numLayers) ∧
      SegmentOutcome kernels token log segment.attemptedLayers.start segment.attemptedLayers.stop
        (ranLayers kernels token resident segment d) := by
  obtain ⟨attempts,recovery⟩ := s
  cases recovery with
  | none =>
    simp only [LoopState.segment, ExecutionSegment.fresh,
      if_neg (show ¬ numLayers = 0 by omega)] at hseg
    obtain rfl := Except.ok.inj hseg
    have hal : Aligned kernels token log 0
        (d.startSegment kernels resident token AttemptStart.fresh) :=
      ⟨⟨fun l hl => by omega,fun l hl => by omega,by
        change d.expertRuns = log++List.range 0
        rw [List.range_zero, List.append_nil]
        exact h,fun l hl => by omega⟩,rfl⟩
    have hrun := hal.runLayers resident numLayers (Or.inr (by omega))
    rw [Nat.zero_add] at hrun
    exact ⟨hpos,le_rfl,fun _ => rfl,hrun⟩
  | some cursor =>
    have hvalid := hcursor cursor rfl
    have hfront := hvalid.frontier_lt
    have hnext := hvalid.nextLayer_le
    obtain ⟨hw,_⟩ := hvalid.window
    change cursor.plan numLayers = .ok segment at hseg
    rw [hvalid.plan_eq hwidth] at hseg
    obtain rfl := Except.ok.inj hseg
    refine ⟨?_,Nat.min_le_right _ _,of_decide_eq_true,?_⟩
    · change cursor.frontier < min (cursor.nextLayer+cursor.windowLayers) numLayers
      have : cursor.frontier<cursor.nextLayer+cursor.windowLayers := by
        unfold RecoveryCursor.frontier
        cases hp : cursor.pendingResumeLayer with
        | none =>
          simp only [Option.getD_none]
          omega
        | some layer =>
          have := (hvalid.pending layer hp).1
          simp only [Option.getD_some]
          omega
      omega
    · cases hp : cursor.pendingResumeLayer with
      | none =>
        simp only [LoopAligned, hp] at h
        have hrun := h.1.runLayers resident
          (min (cursor.nextLayer+cursor.windowLayers) numLayers-cursor.nextLayer) (Or.inl h.2)
        rw [Nat.add_sub_cancel' (by have := hvalid.running hp; omega)] at hrun
        simpa only [TokenLoop.ranLayers, LayerRange.layers, RecoveryCursor.frontier,
          RecoveryCursor.attemptStart, hp, Option.getD_none, Device.startSegment] using hrun
      | some layer =>
        simp only [LoopAligned, hp] at h
        obtain ⟨hlayer,_,_⟩ := hvalid.pending layer hp
        have hrun := h.resume resident
          (min (cursor.nextLayer+cursor.windowLayers) numLayers-cursor.nextLayer)
        rw [← hlayer, Nat.add_sub_cancel' (by omega)] at hrun
        simpa only [TokenLoop.ranLayers, LayerRange.layers, RecoveryCursor.frontier,
          RecoveryCursor.attemptStart, hp, Option.getD_some] using hrun

/-- The completing commands touch neither rows, checkpoints, layer staging nor runs. -/
lemma completeToken_frame (kernels : Kernels H W K) (sample : Bool) (d : Device H W K) :
    (d.completeToken kernels sample).kv = d.kv ∧
      (d.completeToken kernels sample).checkpoints = d.checkpoints ∧
      (d.completeToken kernels sample).stagedStatus = d.stagedStatus ∧
      (d.completeToken kernels sample).stagedIds = d.stagedIds ∧
      (d.completeToken kernels sample).expertRuns = d.expertRuns := by
  unfold Device.completeToken
  cases sample with
  | true => exact ⟨rfl,rfl,rfl,rfl,rfl⟩
  | false => exact ⟨rfl,rfl,rfl,rfl,rfl⟩

lemma Pending.completeToken (h : Pending kernels token log n d) (sample : Bool) :
    Pending kernels token log n (d.completeToken kernels sample) := by
  obtain ⟨hkv,hcp,_,hids,hruns⟩ := completeToken_frame kernels sample d
  refine ⟨h.toSettled.congr (fun _ _ => by rw [hkv]) (fun _ _ => by rw [hids]) hruns,?_,?_,h.routes⟩
  · rw [hkv]
    exact h.row
  · rw [hcp]
    exact h.checkpoint

lemma executeTokenSegment_ok {request : TokenRequest} {resident : ℕ → ℕ → Bool}
    {segment : ExecutionSegment} {e : Device H W K}
    (h : executeTokenSegment kernels request resident segment d = .ok e) :
    e = d.runSegment kernels resident request.tokenId request.sample segment := by
  unfold executeTokenSegment at h
  split_ifs at h
  dsimp only at h
  split at h
  · split_ifs at h
    exact (Except.ok.inj h).symm
  · exact (Except.ok.inj h).symm

lemma recordMiss_ok {s next : LoopState} {numLayers : ℕ} {segment : ExecutionSegment}
    {miss : MissSignature} (hlayer : miss.layerIndex<numLayers)
    (h : s.recordMiss numLayers segment miss = .ok next) :
    ∃ cursor, next.recovery = some cursor ∧ CursorValid numLayers cursor ∧
      cursor.pendingResumeLayer = some miss.layerIndex := by
  unfold LoopState.recordMiss at h
  cases hr : s.recovery with
  | none =>
    rw [hr] at h
    obtain ⟨cursor,hcursor,h⟩ := bind_eq_ok.mp h
    obtain rfl := Except.ok.inj h
    unfold RecoveryCursor.afterServicedMiss at hcursor
    rw [if_neg (by omega)] at hcursor
    obtain rfl := Except.ok.inj hcursor
    exact ⟨_,rfl,CursorValid.of_miss hlayer rfl rfl rfl rfl,rfl⟩
  | some before =>
    rw [hr] at h
    obtain ⟨cursor,hcursor,h⟩ := bind_eq_ok.mp h
    obtain rfl := Except.ok.inj h
    unfold RecoveryCursor.recordServicedMiss at hcursor
    split_ifs at hcursor
    obtain rfl := Except.ok.inj hcursor
    exact ⟨_,rfl,CursorValid.of_miss hlayer rfl rfl rfl rfl,rfl⟩

lemma recordClean_ok {s next : LoopState} {numLayers : ℕ} (hwidth : numLayers ≤ usizeMax)
    (hcursor : ∀ cursor, s.recovery = some cursor → CursorValid numLayers cursor)
    {segment : ExecutionSegment} (hseg : s.segment numLayers = .ok segment)
    (hopen : segment.completesToken = false)
    (h : s.recordClean numLayers segment = .ok next) :
    ∃ cursor, next.recovery = some cursor ∧ CursorValid numLayers cursor ∧
      cursor.pendingResumeLayer = none ∧ cursor.nextLayer = segment.attemptedLayers.stop := by
  unfold LoopState.segment at hseg
  unfold LoopState.recordClean at h
  cases hr : s.recovery with
  | none =>
    rw [hr] at hseg
    simp only [ExecutionSegment.fresh] at hseg
    split_ifs at hseg
    obtain rfl := Except.ok.inj hseg
    cases hopen
  | some cursor =>
    rw [hr] at hseg h
    obtain ⟨after,hafter,hnext,hpend,_,_,hvalid⟩ := (hcursor cursor hr).recordClean hwidth hseg
    obtain ⟨⟨recorded,completed⟩,hrecord,h⟩ := bind_eq_ok.mp h
    rw [hafter] at hrecord
    obtain ⟨rfl,rfl⟩ := Prod.mk.inj (Except.ok.inj hrecord)
    simp only [ne_eq, not_true_eq_false, if_false] at h
    obtain rfl := Except.ok.inj h
    exact ⟨after,rfl,(hvalid hopen).1,hpend,hnext⟩

/-- A device that completed the token on the reference. -/
def Completed (kernels : Kernels H W K) (request : TokenRequest) (log : List ℕ)
    (d : Device H W K) : Prop :=
  ∃ e, Aligned kernels request.tokenId log request.numLayers e ∧ e.status = 0 ∧
    d = e.completeToken kernels request.sample

/-- The loop completes only on the reference. -/
theorem tokenLoop_completed {request : TokenRequest} {residency : Residency}
    (hpos : 1 ≤ request.numLayers) (hwidth : request.numLayers ≤ usizeMax) {maxAttempts : ℕ}
    {remaining : ℕ} {s : LoopState} {out : StepOutput H W K}
    (hcursor : ∀ cursor, s.recovery = some cursor → CursorValid request.numLayers cursor)
    (hal : LoopAligned kernels request.tokenId log s d)
    (h : tokenLoop kernels request residency maxAttempts remaining s d = .ok out) :
    Completed kernels request log out.device ∧
      out.report = out.device.report request.numLayers ∧
      out.sampledToken = if request.sample then some out.report.sampledToken else none := by
  induction remaining generalizing s d with
  | zero => cases h
  | succ remaining ih =>
    obtain ⟨segment,hseg,h⟩ := bind_eq_ok.mp h
    obtain ⟨e,hexec,h⟩ := bind_eq_ok.mp h
    obtain ⟨found,hfound,h⟩ := bind_eq_ok.mp h
    have hsegment : s.segment request.numLayers = .ok segment := by
      unfold LoopState.nextSegment at hseg
      split_ifs at hseg
      exact hseg
    obtain ⟨hlt,hle,hdone,houtcome⟩ := hal.ranLayers hpos hwidth hcursor hsegment
      (residency.resident s.attempts)
    set ran := ranLayers kernels request.tokenId (residency.resident s.attempts) segment d with hran
    have he : e = if segment.completesToken then ran.completeToken kernels request.sample
        else ran := executeTokenSegment_ok hexec
    have hstaged : e.stagedStatus = ran.stagedStatus := by
      rw [he]
      split_ifs
      · exact (completeToken_frame kernels request.sample ran).2.2.1
      · rfl
    have hfirst := (firstFailureLayerIn_report hlt hle hfound).congr hstaged
    cases found with
    | some layer =>
      have hhigh := hfirst.2.1
      obtain ⟨disposition,hclass,h⟩ := bind_eq_ok.mp h
      cases disposition with
      | clean => cases h
      | retryableResidencyMiss =>
        obtain ⟨_,hservice,h⟩ := bind_eq_ok.mp h
        obtain ⟨next,hrecord,h⟩ := bind_eq_ok.mp h
        have hmiss := classifyStatus_retryable hclass
        rw [report_status (by omega), hstaged] at hmiss
        have hpend : Pending kernels request.tokenId log layer e := by
          rw [he]
          split_ifs
          · exact (houtcome.pending hfirst hmiss).completeToken request.sample
          · exact houtcome.pending hfirst hmiss
        obtain ⟨cursor,hnext,hvalid,hresume⟩ := recordMiss_ok (by
          change layer<request.numLayers
          omega) hrecord
        refine ih ?_ ?_ h
        · intro c hc
          rw [hnext] at hc
          obtain rfl := Option.some.inj hc
          exact hvalid
        · simp only [LoopAligned, hnext, hresume]
          exact hpend
    | none =>
      obtain ⟨next,hrecord,h⟩ := bind_eq_ok.mp h
      have hclean := houtcome.aligned hfirst
      cases hcompletes : segment.completesToken with
      | true =>
        rw [hcompletes, if_pos rfl] at he h
        obtain ⟨disposition,_,h⟩ := bind_eq_ok.mp h
        cases disposition with
        | retryableResidencyMiss => cases h
        | clean =>
          obtain rfl := Except.ok.inj h
          rw [hdone hcompletes] at hclean
          exact ⟨⟨ran,hclean.1,hclean.2,he⟩,rfl,rfl⟩
      | false =>
        rw [hcompletes, if_neg (by simp)] at he h
        obtain ⟨cursor,hnext,hvalid,hpend,hlayer⟩ :=
          recordClean_ok hwidth hcursor hsegment hcompletes hrecord
        refine ih ?_ ?_ h
        · intro c hc
          rw [hnext] at hc
          obtain rfl := Option.some.inj hc
          exact hvalid
        · simp only [LoopAligned, hnext, hpend]
          rw [hlayer, he]
          exact hclean

/-- The monolithic pass of a token whose layers are clean completes on the reference. -/
lemma monolithicPass_completed {request : TokenRequest}
    (hclean : ∀ layer<request.numLayers, LayerClean kernels request.tokenId layer) :
    Completed kernels request d.expertRuns (monolithicPass kernels request d) := by
  have hal : Aligned kernels request.tokenId d.expertRuns 0
      (({ d with status := 0 } : Device H W K).startSegment kernels (fun _ _ => true)
        request.tokenId AttemptStart.fresh) := by
    refine ⟨⟨fun l hl => by omega,fun l hl => by omega,?_,fun l hl => by omega⟩,rfl⟩
    rw [List.range_zero, List.append_nil]
    rfl
  have hrun := hal.runResident rfl request.numLayers (by rw [Nat.zero_add]; exact hclean)
  rw [Nat.zero_add] at hrun
  exact ⟨_,hrun.1,hrun.2,rfl⟩

/-- Two completions of the same token agree on everything but stale buffers. -/
lemma Completed.agree {request : TokenRequest} {log log' : List ℕ} {e : Device H W K}
    (h : Completed kernels request log d) (h' : Completed kernels request log' e) :
    d.hidden = e.hidden ∧ (∀ layer<request.numLayers, d.kv layer = e.kv layer) ∧
      (d.report request.numLayers).selectedIds = (e.report request.numLayers).selectedIds ∧
      d.stagedFinalStatus = e.stagedFinalStatus ∧
      (request.sample = true → d.stagedToken = e.stagedToken) := by
  obtain ⟨d0,hd,hds,rfl⟩ := h
  obtain ⟨e0,he,hes,rfl⟩ := h'
  obtain ⟨hkv,_,_,hids,_⟩ := completeToken_frame kernels request.sample d0
  obtain ⟨hkv',_,_,hids',_⟩ := completeToken_frame kernels request.sample e0
  have hhidden : d0.hidden = e0.hidden := hd.hidden.trans he.hidden.symm
  refine ⟨?_,?_,?_,?_,?_⟩
  · unfold Device.completeToken
    cases request.sample with
    | true => exact congrArg kernels.finalNorm hhidden
    | false => exact hhidden
  · intro layer hl
    rw [hkv, hkv', hd.rows layer hl, he.rows layer hl]
  · simp only [Device.report]
    apply List.map_congr_left
    intro layer hl
    have hl := List.mem_range.mp hl
    rw [hids, hids', hd.ids layer hl, he.ids layer hl]
  · unfold Device.completeToken
    cases request.sample with
    | true => simp only [if_true, hhidden, hds, hes]
    | false => exact hds.trans hes.symm
  · intro hsample
    simp only [Device.completeToken, hsample, if_true, hhidden, hds, hes]

end

/-- Token recovery is transparent. Whatever experts each submission finds resident and
whatever the buffers held before, a completed token has the hidden state, the KV rows, the
selected ids of every layer, the final status and the sampled token of the single pass with
every expert resident, and every layer's experts ran clean exactly once, in layer order. -/
theorem stepToken_transparent (request : TokenRequest) (residency : Residency) (d : Device H W K)
    (out : StepOutput H W K) (h : stepToken kernels request residency d = .ok out) :
    out.device.hidden = (monolithicPass kernels request d).hidden ∧
    (∀ layer<request.numLayers,
      out.device.kv layer = (monolithicPass kernels request d).kv layer) ∧
    out.report.selectedIds =
      ((monolithicPass kernels request d).report request.numLayers).selectedIds ∧
    out.device.expertRuns = d.expertRuns++List.range request.numLayers ∧
    out.sampledToken = (if request.sample
      then some (monolithicPass kernels request d).stagedToken else none) ∧
    (monolithicPass kernels request d).stagedFinalStatus = out.report.finalStatus := by
  obtain ⟨maxAttempts,hbound,h⟩ := bind_eq_ok.mp h
  have hmax := attemptBound_eq_ok hbound
  have hwidth : request.numLayers ≤ usizeMax := by
    by_contra hbig
    unfold attemptBound checkedMul at hbound
    rw [if_neg (by omega)] at hbound
    cases hbound
  have hpos : 1 ≤ request.numLayers := by
    by_contra hzero
    have hnone : request.numLayers = 0 := by omega
    rw [hmax, hnone] at h
    obtain ⟨segment,hseg,_⟩ := bind_eq_ok.mp h
    rw [hnone] at hseg
    cases hseg
  have hstart : LoopAligned kernels request.tokenId d.expertRuns LoopState.start d := rfl
  obtain ⟨hcompleted,hreport,hsampled⟩ := tokenLoop_completed hpos hwidth
    (fun cursor hcursor => by cases hcursor) hstart h
  have hmono : Completed kernels request d.expertRuns (monolithicPass kernels request d) := by
    obtain ⟨e,he,_,_⟩ := hcompleted
    exact monolithicPass_completed he.clean
  obtain ⟨hhidden,hkv,hids,hstatus,htoken⟩ := hcompleted.agree hmono
  refine ⟨hhidden,hkv,?_,?_,?_,?_⟩
  · rw [hreport]
    exact hids
  · obtain ⟨e,he,_,hout⟩ := hcompleted
    rw [hout, (completeToken_frame kernels request.sample e).2.2.2.2, he.runs]
  · rw [hsampled]
    cases hsample : request.sample with
    | false => rfl
    | true =>
      simp only [if_true, hreport]
      exact congrArg some (htoken hsample)
  · rw [hreport]
    exact hstatus.symm

/-- Arithmetic kernels for a two-layer token that routes each layer to one expert. -/
def countingKernels : Kernels ℕ ℕ ℕ where
  embeddingLookup token := token+1
  rmsAttn layer h := h+layer
  attentionPrepare layer h := h+2*layer
  attentionComplete _ h row := (h+row,false)
  rmsMoe _ h := h+1
  router layer _ := (([layer],1),false)
  experts _ h _ _ := (h,false)
  residualAdd a b := a+b
  zero := 0
  finalNorm h := h
  greedyArgmax h := (h,false)

def twoLayerRequest : TokenRequest := ⟨2,1,4,5,0,0,8,true⟩

/-- The first submission lacks the expert of layer one; later ones lack nothing. -/
def missOnce : Residency := ⟨fun attempt layer _ => decide (attempt ≠ 0 ∨ layer = 0),fun _ => true⟩

def staleDevice : Device ℕ ℕ ℕ :=
  ⟨9,9,[],9,0,fun _ => 9,fun _ => ⟨9,9,[],9⟩,9,fun _ => 0,fun _ => [],0,9,[]⟩

/-- A token that misses once completes on its second attempt, on the monolithic hidden state. -/
theorem stepToken_transparent_after_miss :
    ∃ out, stepToken countingKernels twoLayerRequest missOnce staleDevice = .ok out ∧
      out.attempts = 2 ∧ out.device.expertRuns = [0,1] ∧
      out.device.hidden =
        (monolithicPass countingKernels twoLayerRequest staleDevice).hidden := by
  obtain ⟨out,hout,hattempts⟩ : ∃ out,
      stepToken countingKernels twoLayerRequest missOnce staleDevice = .ok out ∧
        out.attempts = 2 := ⟨_,rfl,rfl⟩
  obtain ⟨hhidden,_,_,hruns,_⟩ := stepToken_transparent countingKernels twoLayerRequest missOnce
    staleDevice out hout
  exact ⟨out,hout,hattempts,hruns,hhidden⟩

end MicroExpertRouter.TokenLoop
