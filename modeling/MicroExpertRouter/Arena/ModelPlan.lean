import MicroExpertRouter.Arena.ExactPlans
import MicroExpertRouter.Lib.Greedy

/-! The plan of `gpu_native_residency.rs` for all layers: every layer begins with the slots that
one token needs, and the rest of the budget buys one slot at a time, always the cheapest one. -/
namespace MicroExpertRouter.Arena

inductive ModelPlanError
  | invalidModelLayerCount
  | invalidExpertsPerLayer
  | expertNamespaceOverflow (numLayers expertsPerLayer : ℕ)
  | modelBudgetOverflow
  | modelBudgetTooSmall (requestedBytes minimumBytes : ℕ)
  | backend (error : PlanError)
  deriving DecidableEq, Repr

def validateNamespace (numLayers expertsPerLayer : ℕ) : Except ModelPlanError Unit :=
  if numLayers = 0 then .error .invalidModelLayerCount
  else if expertsPerLayer = 0 then .error .invalidExpertsPerLayer
  else if u32Max+1<numLayers*expertsPerLayer then
    .error (.expertNamespaceOverflow numLayers expertsPerLayer)
  else .ok ()

structure ModelVramPlan where
  geometry : ExpertGeometry
  totalExpertBudgetBytes : ℕ
  minimumExecutableBudgetBytes : ℕ
  layerPlans : List VramPlan
  totalArenaAllocationBytes : ℕ

namespace ModelVramPlan

/-- Whether a candidate precedes the best one so far. -/
def improves (increment layerIndex : ℕ) (best : Option (ℕ × ℕ × VramPlan)) : Bool :=
  match best with
  | none => true
  | some (bestIncrement,bestLayer,_) =>
    decide (increment<bestIncrement ∨ increment = bestIncrement ∧ layerIndex<bestLayer)

/-- One pass over the layers, from some layer on. -/
def scanLayers (geometry : ExpertGeometry) (limits : Limits) (remaining : ℕ) :
    ℕ → List VramPlan → Option (ℕ × ℕ × VramPlan) →
    Except ModelPlanError (Option (ℕ × ℕ × VramPlan))
  | _, [], best => .ok best
  | layerIndex, current::layers, best =>
    if geometry.numExperts ≤ current.slotCapacity then
      scanLayers geometry limits remaining (layerIndex+1) layers best
    else do
      let candidate ← (VramPlan.tryForSlotCapacity geometry (current.slotCapacity+1) limits).mapError
        .backend
      match checkedSub candidate.totalArenaAllocationBytes current.totalArenaAllocationBytes with
      | none => .error .modelBudgetOverflow
      | some increment =>
        if remaining < increment then
          scanLayers geometry limits remaining (layerIndex+1) layers best
        else
          let best := if improves increment layerIndex best then some (increment,layerIndex,candidate)
            else best
          scanLayers geometry limits remaining (layerIndex+1) layers best

/-- The growing loop, for some number of turns: without an answer it has not ended. -/
def growLayers (geometry : ExpertGeometry) (limits : Limits) (totalExpertBudgetBytes : ℕ) :
    ℕ → List VramPlan → ℕ → Option (Except ModelPlanError (List VramPlan × ℕ))
  | 0, _, _ => none
  | turns+1, layerPlans, total =>
    match scanLayers geometry limits (totalExpertBudgetBytes-total) 0 layerPlans none with
    | .error e => some (.error e)
    | .ok none => some (.ok (layerPlans,total))
    | .ok (some (increment,layerIndex,candidate)) =>
      match checkedAdd u64Max total increment with
      | none => some (.error .modelBudgetOverflow)
      | some total =>
        growLayers geometry limits totalExpertBudgetBytes turns (layerPlans.set layerIndex candidate)
          total

/-- `try_new`. A layer holds no more slots than there are experts, which bounds the turns of its
loop. -/
def tryNew (numLayers : ℕ) (geometry : ExpertGeometry) (totalExpertBudgetBytes : ℕ)
    (limits : Limits) : Option (Except ModelPlanError ModelVramPlan) :=
  match validateNamespace numLayers geometry.numExperts with
  | .error e => some (.error e)
  | .ok _ =>
    match VramPlan.tryForSlotCapacity geometry geometry.topK limits with
    | .error e => some (.error (.backend e))
    | .ok minimumLayer =>
      match checkedMul u64Max minimumLayer.totalArenaAllocationBytes numLayers with
      | none => some (.error .modelBudgetOverflow)
      | some minimum =>
        if totalExpertBudgetBytes < minimum then
          some (.error (.modelBudgetTooSmall totalExpertBudgetBytes minimum))
        else
          (growLayers geometry limits totalExpertBudgetBytes (numLayers*geometry.numExperts+1)
            (List.replicate numLayers minimumLayer) minimum).map fun grown =>
              grown.map fun (layerPlans,total) =>
                ⟨geometry,totalExpertBudgetBytes,minimum,layerPlans,total⟩

end ModelVramPlan

section Layers
variable {geometry : ExpertGeometry} {limits : Limits}

/-- The plans of the layers, by their slots. -/
def Plans (geometry : ExpertGeometry) (limits : Limits) (plans : List VramPlan)
    (shares : List ℕ) : Prop :=
  List.Forall₂ (fun plan slots => VramPlan.tryForSlotCapacity geometry slots limits = .ok plan) plans
    shares

lemma Plans.set {plans : List VramPlan} {shares : List ℕ} {i slots : ℕ} {plan : VramPlan}
    (h : Plans geometry limits plans shares)
    (hplan : VramPlan.tryForSlotCapacity geometry slots limits = .ok plan) :
    Plans geometry limits (plans.set i plan) (shares.set i slots) := by
  induction h generalizing i with
  | nil => exact .nil
  | cons hfirst _ ih =>
    cases i with
    | zero => exact .cons hplan ‹_›
    | succ i => exact .cons hfirst ih

lemma Plans.totals {plans : List VramPlan} {shares : List ℕ} (hvalid : geometry.Valid)
    (h : Plans geometry limits plans shares) : plans.map VramPlan.totalArenaAllocationBytes =
      shares.map (arenaBytes geometry limits.toDeviceLimits) := by
  induction h with
  | nil => rfl
  | cons hfirst _ ih =>
    rw [List.map_cons, List.map_cons, ih, (planOf_tryForSlotCapacity hvalid hfirst).total]

lemma Plans.capacities {plans : List VramPlan} {shares : List ℕ} (hvalid : geometry.Valid)
    (h : Plans geometry limits plans shares) : plans.map VramPlan.slotCapacity = shares := by
  induction h with
  | nil => rfl
  | cons hfirst _ ih => rw [List.map_cons, ih, (planOf_tryForSlotCapacity hvalid hfirst).slotCapacity]

/-- What one pass finds, given what it had found before. -/
structure Found (geometry : ExpertGeometry) (limits : Limits) (remaining layerIndex : ℕ)
    (shares : List ℕ) (best result : Option (ℕ × ℕ × VramPlan)) : Prop where
  origin : result = best ∨ ∃ i slots plan, shares[i]? = some slots ∧ slots<geometry.numExperts ∧
    slotCost geometry limits.toDeviceLimits slots ≤ remaining ∧
    VramPlan.tryForSlotCapacity geometry (slots+1) limits = .ok plan ∧
    result = some (slotCost geometry limits.toDeviceLimits slots,layerIndex+i,plan)
  least : ∀ i slots, shares[i]? = some slots → slots<geometry.numExperts →
    slotCost geometry limits.toDeviceLimits slots ≤ remaining →
    ∃ increment layer plan, result = some (increment,layer,plan) ∧
      (increment<slotCost geometry limits.toDeviceLimits slots ∨
        increment = slotCost geometry limits.toDeviceLimits slots ∧ layer ≤ layerIndex+i)
  kept : ∀ increment layer plan, best = some (increment,layer,plan) →
    ∃ increment' layer' plan', result = some (increment',layer',plan') ∧
      (increment' < increment ∨ increment' = increment ∧ layer' ≤ layer)

namespace Found
variable {remaining layerIndex slots : ℕ} {shares : List ℕ}
  {best result : Option (ℕ × ℕ × VramPlan)}

/-- A layer whose candidate is not taken, as it is none or what is found is at least as good. -/
lemma pass (h : Found geometry limits remaining (layerIndex+1) shares best result)
    (hhere : slots<geometry.numExperts → slotCost geometry limits.toDeviceLimits slots ≤ remaining →
      ∃ increment layer plan, result = some (increment,layer,plan) ∧
        (increment<slotCost geometry limits.toDeviceLimits slots ∨
          increment = slotCost geometry limits.toDeviceLimits slots ∧ layer ≤ layerIndex)) :
    Found geometry limits remaining layerIndex (slots::shares) best result := by
  refine ⟨?_,fun i other hother hgrows hpaid => ?_,h.kept⟩
  · rcases h.origin with heq | ⟨i,other,plan,hother,hgrows,hpaid,hplan,hresult⟩
    · exact .inl heq
    · exact .inr ⟨i+1,other,plan,hother,hgrows,hpaid,hplan,by rw [hresult, Nat.add_right_comm]; rfl⟩
  · cases i with
    | zero =>
      cases hother
      exact hhere hgrows hpaid
    | succ i =>
      obtain ⟨increment,layer,plan,hresult,hleast⟩ := h.least i other hother hgrows hpaid
      exact ⟨increment,layer,plan,hresult,by omega⟩

/-- A layer that cannot grow, or not for the money, is passed over. -/
lemma skip (h : Found geometry limits remaining (layerIndex+1) shares best result)
    (hskip : slots<geometry.numExperts →
      slotCost geometry limits.toDeviceLimits slots ≤ remaining → False) :
    Found geometry limits remaining layerIndex (slots::shares) best result :=
  h.pass fun hgrows hpaid => (hskip hgrows hpaid).elim

/-- A better candidate takes the place of the best one. -/
lemma take {candidate : VramPlan} (hgrows : slots<geometry.numExperts)
    (hpaid : slotCost geometry limits.toDeviceLimits slots ≤ remaining)
    (hcandidate : VramPlan.tryForSlotCapacity geometry (slots+1) limits = .ok candidate)
    (hbetter : ModelVramPlan.improves (slotCost geometry limits.toDeviceLimits slots) layerIndex
      best = true)
    (h : Found geometry limits remaining (layerIndex+1) shares
      (some (slotCost geometry limits.toDeviceLimits slots,layerIndex,candidate)) result) :
    Found geometry limits remaining layerIndex (slots::shares) best result := by
  obtain ⟨increment,layer,plan,hresult,hle⟩ := h.kept _ _ _ rfl
  refine ⟨.inr ?_,fun i other hother hother' hpaid' => ?_,
    fun increment' layer' plan' hbest => ⟨increment,layer,plan,hresult,?_⟩⟩
  · rcases h.origin with heq | ⟨i,other,plan,hother,hgrows,hpaid,hplan,hresult⟩
    · exact ⟨0,slots,candidate,rfl,hgrows,hpaid,hcandidate,heq⟩
    · exact ⟨i+1,other,plan,hother,hgrows,hpaid,hplan,by rw [hresult, Nat.add_right_comm]; rfl⟩
  · cases i with
    | zero =>
      cases hother
      exact ⟨increment,layer,plan,hresult,hle⟩
    | succ i =>
      obtain ⟨increment,layer,plan,hresult,hleast⟩ := h.least i other hother hother' hpaid'
      exact ⟨increment,layer,plan,hresult,by omega⟩
  · rw [hbest] at hbetter
    have hbetter := of_decide_eq_true hbetter
    omega

/-- A candidate that is no better is left. -/
lemma leave (hworse : ¬ ModelVramPlan.improves (slotCost geometry limits.toDeviceLimits slots)
      layerIndex best = true)
    (h : Found geometry limits remaining (layerIndex+1) shares best result) :
    Found geometry limits remaining layerIndex (slots::shares) best result := by
  refine h.pass fun _ _ => ?_
  cases best with
  | none => exact absurd rfl hworse
  | some found =>
    obtain ⟨bestIncrement,bestLayer,bestPlan⟩ := found
    obtain ⟨increment,layer,plan,hresult,hle⟩ := h.kept _ _ _ rfl
    unfold ModelVramPlan.improves at hworse
    rw [decide_eq_true_iff] at hworse
    exact ⟨increment,layer,plan,hresult,by omega⟩

end Found

/-- A pass ends when every layer that may grow has a plan for one more slot. -/
lemma scanLayers_found {remaining layerIndex : ℕ} {plans : List VramPlan} {shares : List ℕ}
    (best : Option (ℕ × ℕ × VramPlan)) (hvalid : geometry.Valid)
    (hlimits : validateExpertPipelineLimits limits = .ok ())
    (h : Plans geometry limits plans shares)
    (hroom : ∀ slots ∈ shares, slots<geometry.numExperts →
      slots < maximumSlots geometry limits.toDeviceLimits) :
    ∃ result, ModelVramPlan.scanLayers geometry limits remaining layerIndex plans best = .ok result ∧
      Found geometry limits remaining layerIndex shares best result := by
  induction h generalizing layerIndex best with
  | nil => exact ⟨best,rfl,.inl rfl,fun i slots hslots => by simp at hslots,
      fun increment layer plan heq => ⟨increment,layer,plan,heq,.inr ⟨rfl,le_rfl⟩⟩⟩
  | @cons current slots plans shares hcurrent _ ih =>
    obtain ⟨hfirst,hrest⟩ := List.forall_mem_cons.mp hroom
    have hplan := planOf_tryForSlotCapacity hvalid hcurrent
    unfold ModelVramPlan.scanLayers
    rw [hplan.slotCapacity]
    by_cases hfull : geometry.numExperts ≤ slots
    · rw [if_pos hfull]
      obtain ⟨result,hresult,hfound⟩ := @ih (layerIndex+1) best hrest
      exact ⟨result,hresult,hfound.skip fun hgrows _ => absurd hgrows (Nat.not_lt.mpr hfull)⟩
    rw [if_neg hfull]
    have hgrows := Nat.not_le.mp hfull
    obtain ⟨candidate,hcandidate⟩ := (tryForSlotCapacity_eq_ok hvalid).mpr
      ⟨hlimits,Nat.succ_pos slots,hgrows,hfirst hgrows⟩
    have hnext := planOf_tryForSlotCapacity hvalid hcandidate
    have hincrement : checkedSub candidate.totalArenaAllocationBytes
        current.totalArenaAllocationBytes = some (slotCost geometry limits.toDeviceLimits slots) := by
      rw [hnext.total, hplan.total, arenaBytes_succ (hfirst hgrows),
        checkedSub_of_le (Nat.le_add_right _ _), Nat.add_sub_cancel_left]
    rw [hcandidate]
    simp only [Except.mapError, bind, Except.bind, hincrement]
    by_cases hunpaid : remaining < slotCost geometry limits.toDeviceLimits slots
    · rw [if_pos hunpaid]
      obtain ⟨result,hresult,hfound⟩ := @ih (layerIndex+1) best hrest
      exact ⟨result,hresult,hfound.skip fun _ hpaid => absurd hunpaid (Nat.not_lt.mpr hpaid)⟩
    rw [if_neg hunpaid]
    by_cases hbetter : ModelVramPlan.improves (slotCost geometry limits.toDeviceLimits slots)
        layerIndex best = true
    · rw [if_pos hbetter]
      obtain ⟨result,hresult,hfound⟩ := @ih (layerIndex+1) _ hrest
      exact ⟨result,hresult,hfound.take hgrows (Nat.not_lt.mp hunpaid) hcandidate hbetter⟩
    · rw [if_neg hbetter]
      obtain ⟨result,hresult,hfound⟩ := @ih (layerIndex+1) best hrest
      exact ⟨result,hresult,hfound.leave hbetter⟩

/-- A pass that ends has found a plan for one more slot of every layer that may grow. -/
lemma room_of_scanLayers {remaining layerIndex : ℕ} {plans : List VramPlan} {shares : List ℕ}
    {best result : Option (ℕ × ℕ × VramPlan)} (hvalid : geometry.Valid)
    (h : Plans geometry limits plans shares)
    (hscan : ModelVramPlan.scanLayers geometry limits remaining layerIndex plans best = .ok result) :
    ∀ slots ∈ shares, slots<geometry.numExperts →
      slots < maximumSlots geometry limits.toDeviceLimits := by
  induction h generalizing layerIndex best with
  | nil => exact nofun
  | @cons current slots plans shares hcurrent _ ih =>
    have hplan := planOf_tryForSlotCapacity hvalid hcurrent
    unfold ModelVramPlan.scanLayers at hscan
    rw [hplan.slotCapacity] at hscan
    rw [List.forall_mem_cons]
    by_cases hfull : geometry.numExperts ≤ slots
    · rw [if_pos hfull] at hscan
      exact ⟨fun hgrows => absurd hgrows (Nat.not_lt.mpr hfull),ih hscan⟩
    rw [if_neg hfull] at hscan
    cases hcandidate : VramPlan.tryForSlotCapacity geometry (slots+1) limits with
    | error e =>
      rw [hcandidate] at hscan
      cases hscan
    | ok candidate =>
      obtain ⟨-,-,-,hslots⟩ := (tryForSlotCapacity_eq_ok hvalid).mp ⟨candidate,hcandidate⟩
      refine ⟨fun _ => hslots,?_⟩
      simp only [hcandidate, Except.mapError, bind, Except.bind] at hscan
      split at hscan
      · cases hscan
      · split_ifs at hscan
        · exact ih hscan
        · exact ih hscan
        · exact ih hscan

/-- Some layer has all the slots that the device allows, but not all the experts. -/
def Blocked (geometry : ExpertGeometry) (limits : Limits) (shares : List ℕ) : Prop :=
  maximumSlots geometry limits.toDeviceLimits<geometry.numExperts ∧
    ∃ slots ∈ shares, maximumSlots geometry limits.toDeviceLimits ≤ slots

/-- The slots that a layer can be given. -/
def fullLayer (geometry : ExpertGeometry) (limits : Limits) : ℕ :=
  min geometry.numExperts (maximumSlots geometry limits.toDeviceLimits)

lemma Blocked.mono {shares last : List ℕ} (h : Blocked geometry limits shares)
    (hle : List.Forall₂ (· ≤ ·) shares last) : Blocked geometry limits last := by
  obtain ⟨hlimit,slots,hslots,hmany⟩ := h
  refine ⟨hlimit,?_⟩
  induction hle with
  | nil => cases hslots
  | @cons first other shares last hfirst _ ih =>
    rcases List.mem_cons.mp hslots with rfl | hslots
    · exact ⟨other,List.mem_cons_self,hmany.trans hfirst⟩
    · obtain ⟨slots,hslots,hmany⟩ := ih hslots
      exact ⟨slots,List.mem_cons_of_mem _ hslots,hmany⟩

lemma growLayers_blocked {budget total turns : ℕ} {plans : List VramPlan} {shares : List ℕ}
    (hvalid : geometry.Valid) (hplans : Plans geometry limits plans shares)
    (hshares : ∀ slots ∈ shares, slots ≤ fullLayer geometry limits)
    (h : Blocked geometry limits shares) : ∃ e,
    ModelVramPlan.growLayers geometry limits budget (turns+1) plans total = some (.error e) := by
  obtain ⟨hlimit,slots,hslots,hmany⟩ := h
  have hfull := (hshares slots hslots).trans (Nat.min_le_right _ _)
  unfold ModelVramPlan.growLayers
  cases hscan : ModelVramPlan.scanLayers geometry limits (budget-total) 0 plans none with
  | error e => exact ⟨e,rfl⟩
  | ok result =>
    have := room_of_scanLayers hvalid hplans hscan slots hslots (by omega)
    omega

/-- An unblocked state has room for the slots that a layer may still take. -/
lemma room_of_not_blocked {shares : List ℕ} (h : ¬ Blocked geometry limits shares) :
    ∀ slots ∈ shares, slots<geometry.numExperts →
      slots < maximumSlots geometry limits.toDeviceLimits := by
  intro slots hslots hgrows
  by_contra hmany
  exact h ⟨by omega,slots,hslots,Nat.not_lt.mp hmany⟩

section Step
variable {money budget total turns : ℕ} {plans : List VramPlan} {shares : List ℕ}

/-- Without a slot that can be paid the loop ends. -/
lemma growLayers_stop (hvalid : geometry.Valid)
    (hlimits : validateExpertPipelineLimits limits = .ok ())
    (hplans : Plans geometry limits plans shares) (hfree : ¬ Blocked geometry limits shares)
    (hmoney : budget-total = money)
    (hunpaid : ∀ slots ∈ shares, slots<fullLayer geometry limits →
      money < slotCost geometry limits.toDeviceLimits slots) :
    ModelVramPlan.growLayers geometry limits budget (turns+1) plans total =
      some (.ok (plans,total)) := by
  have hroom := room_of_not_blocked hfree
  obtain ⟨result,hscan,hfound⟩ := @scanLayers_found geometry limits money 0 plans shares none hvalid
    hlimits hplans hroom
  unfold ModelVramPlan.growLayers
  rw [hmoney, hscan]
  rcases hfound.origin with rfl | ⟨i,slots,plan,hslots,hgrows,hpaid,-,-⟩
  · rfl
  · have hmem := List.mem_of_getElem? hslots
    have := hunpaid slots hmem (lt_min hgrows (hroom slots hmem hgrows))
    omega

/-- The loop buys the slot that the greedy run buys. -/
lemma growLayers_buy {i k : ℕ} (hvalid : geometry.Valid)
    (hlimits : validateExpertPipelineLimits limits = .ok ())
    (hplans : Plans geometry limits plans shares) (hfree : ¬ Blocked geometry limits shares)
    (hmoney : total+money = budget) (hbudget : budget ≤ u64Max)
    (hbest : Greedy.Cheapest (slotCost geometry limits.toDeviceLimits) (fullLayer geometry limits)
      shares i k) (hpaid : slotCost geometry limits.toDeviceLimits k ≤ money) :
    ∃ plan, VramPlan.tryForSlotCapacity geometry (k+1) limits = .ok plan ∧
      ModelVramPlan.growLayers geometry limits budget (turns+1) plans total =
        ModelVramPlan.growLayers geometry limits budget turns (plans.set i plan)
          (total+slotCost geometry limits.toDeviceLimits k) := by
  have hroom := room_of_not_blocked hfree
  obtain ⟨result,hscan,hfound⟩ := @scanLayers_found geometry limits money 0 plans shares none hvalid
    hlimits hplans hroom
  obtain ⟨increment,layer,found,hresult,hleast⟩ := hfound.least i k hbest.held
    (lt_of_lt_of_le hbest.room (Nat.min_le_left _ _)) hpaid
  rcases hfound.origin with hnone | ⟨j,slots,plan,hslots,hgrows,-,hplan,horigin⟩
  · rw [hnone] at hresult
    cases hresult
  rw [horigin] at hresult
  cases hresult
  -- The layer found is cheapest, so that it is the layer of the run.
  have hmem := List.mem_of_getElem? hslots
  have hother := hbest.least j slots hslots (lt_min hgrows (hroom slots hmem hgrows))
  have hij : j = i := by omega
  subst hij
  obtain rfl := Option.some.inj (hbest.held.symm.trans hslots)
  refine ⟨found,hplan,?_⟩
  have hremaining : budget-total = money := by omega
  conv_lhs => unfold ModelVramPlan.growLayers
  rw [hremaining, hscan, horigin]
  dsimp only
  rw [checkedAdd_of_le (by omega), Nat.zero_add]

end Step

/-- The growing loop follows the greedy run, up to a blocked layer. -/
lemma growLayers_run {money left budget total turns : ℕ} {plans : List VramPlan}
    {shares last : List ℕ} (hvalid : geometry.Valid)
    (hlimits : validateExpertPipelineLimits limits = .ok ()) (hbudget : budget ≤ u64Max)
    (hrun : Greedy.Run (slotCost geometry limits.toDeviceLimits) (fullLayer geometry limits) money
      shares last left)
    (hshares : ∀ slots ∈ shares, slots ≤ fullLayer geometry limits)
    (hplans : Plans geometry limits plans shares) (hmoney : total+money = budget)
    (hturns : (shares.map fun slots => fullLayer geometry limits-slots).sum<turns) :
    (Blocked geometry limits last → ∃ e,
      ModelVramPlan.growLayers geometry limits budget turns plans total = some (.error e)) ∧
    (¬ Blocked geometry limits last → ∃ lastPlans, Plans geometry limits lastPlans last ∧
      ModelVramPlan.growLayers geometry limits budget turns plans total =
        some (.ok (lastPlans,budget-left))) := by
  induction hrun generalizing plans total turns with
  | @stop money shares unpaid =>
    obtain ⟨turns,rfl⟩ := Nat.exists_eq_succ_of_ne_zero (Nat.ne_zero_of_lt hturns)
    refine ⟨growLayers_blocked hvalid hplans hshares,fun hfree => ⟨plans,hplans,?_⟩⟩
    rw [growLayers_stop hvalid hlimits hplans hfree (by omega) unpaid, ← hmoney, Nat.add_sub_cancel]
  | @buy money i k left shares last best paid tail ih =>
    obtain ⟨turns,rfl⟩ := Nat.exists_eq_succ_of_ne_zero (Nat.ne_zero_of_lt hturns)
    by_cases hblocked : Blocked geometry limits shares
    · have hlast := hblocked.mono (Greedy.Run.buy best paid tail).le
      exact ⟨fun _ => growLayers_blocked hvalid hplans hshares hblocked,fun h => absurd hlast h⟩
    obtain ⟨plan,hplan,hstep⟩ := @growLayers_buy geometry limits money budget total turns plans shares
      i k hvalid hlimits hplans hblocked hmoney hbudget best paid
    have hset := Greedy.sum_map_set (fun slots => fullLayer geometry limits-slots) best.held (v := k+1)
    have hgrows := best.room
    rw [hstep]
    refine ih (fun slots hslots => ?_) (hplans.set hplan) (by omega) (by omega)
    rcases List.mem_or_eq_of_mem_set hslots with hslots | rfl
    · exact hshares slots hslots
    · exact hgrows

end Layers

end MicroExpertRouter.Arena
