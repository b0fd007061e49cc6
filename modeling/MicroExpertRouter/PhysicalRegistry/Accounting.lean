import MicroExpertRouter.PhysicalRegistry.Installs

/-! Runs of any requesters: the byte counters are exact, nothing panics, and installs succeed. -/
namespace MicroExpertRouter.PhysicalRegistry
variable {π : Type} {whole : System π} {permit : PhysicalInstallPermit}

section Steps

lemma permit_mem {serial : ℕ} (h : whole.permit serial = some permit) :
    permit ∈ whole.permits ∧ permit.serial = serial := by
  unfold System.permit at h
  exact ⟨List.mem_of_find?_eq_some h,of_decide_eq_true (List.find?_some h :)⟩

lemma permit_of_mem (h : Inv whole) (hpermit : permit ∈ whole.permits) :
    whole.permit permit.serial = some permit := by
  cases hfind : whole.permit permit.serial with
  | none =>
    have hne := List.find?_eq_none.mp hfind permit hpermit
    exact absurd (decide_eq_true rfl) hne
  | some other =>
    obtain ⟨hother,hserial⟩ := permit_mem hfind
    rw [List.inj_on_of_nodup_map h.permitted.serials hother hpermit hserial]

lemma step_chargeAllocation (h : Inv whole) (hpermit : permit ∈ whole.permits) :
    whole.step (.chargeAllocation permit.serial) =
      some ((whole.chargeAllocation permit).1,.charged (whole.chargeAllocation permit).2) := by
  simp only [System.step, permit_of_mem h hpermit]

lemma step_install (h : Inv whole) (hpermit : permit ∈ whole.permits)
    (hbuilding : permit.serial ∈ whole.building) (payload : π) :
    ∃ next, whole.step (.install permit.serial payload) =
      some (next,.installed (.ok (System.built permit payload))) ∧ Inv next := by
  obtain ⟨next,hinstall,hinv⟩ := install_spec h hpermit hbuilding payload
  refine ⟨next,?_,hinv⟩
  simp only [System.step, permit_of_mem h hpermit, hbuilding, if_true, hinstall]
  rfl

/-- An operation of any requester neither panics nor breaks the invariant. -/
lemma step_spec (h : Inv whole) (operation : Operation π) :
    ∃ next outcome, whole.step operation = some (next,outcome) ∧ Inv next := by
  cases operation with
  | lookupCurrent key =>
    obtain ⟨next,found,hlookup,hinv,-⟩ := lookupCurrentLocked_spec h key
    refine ⟨next,.found found,?_,hinv⟩
    rw [System.step, hlookup]
    rfl
  | touchAllCurrent keys =>
    obtain ⟨entries,all,htouch,hperm⟩ := touchAllCurrent_spec h keys
    refine ⟨_,.touched all,?_,h.reorder hperm⟩
    rw [System.step, htouch]
    rfl
  | acquireOrReserve key bytes drops =>
    obtain ⟨next,result,hacquire,hinv,-⟩ := acquireOrReserve_spec h key bytes drops
    refine ⟨next,.acquired result,?_,hinv⟩
    rw [System.step, hacquire]
    rfl
  | chargeAllocation serial =>
    cases hpermit : whole.permit serial with
    | none =>
      refine ⟨whole,.unit,?_,h⟩
      simp only [System.step, hpermit]
    | some permit =>
      obtain ⟨hmem,rfl⟩ := permit_mem hpermit
      exact ⟨_,_,step_chargeAllocation h hmem,(chargeAllocation_spec h hmem).1⟩
  | install serial payload =>
    cases hpermit : whole.permit serial with
    | none =>
      refine ⟨whole,.unit,?_,h⟩
      simp only [System.step, hpermit]
    | some permit =>
      obtain ⟨hmem,rfl⟩ := permit_mem hpermit
      by_cases hbuilding : permit.serial ∈ whole.building
      · obtain ⟨next,hinstall,hinv⟩ := step_install h hmem hbuilding payload
        exact ⟨next,_,hinstall,hinv⟩
      · refine ⟨whole,.unit,?_,h⟩
        simp only [System.step, hpermit, hbuilding, if_false]
  | dropPermit serial =>
    cases hpermit : whole.permit serial with
    | none =>
      refine ⟨whole,.unit,?_,h⟩
      simp only [System.step, hpermit]
    | some permit =>
      obtain ⟨hmem,-⟩ := permit_mem hpermit
      obtain ⟨next,hdrop,hinv,-⟩ := dropPermit_spec h hmem
      refine ⟨next,.unit,?_,hinv⟩
      simp only [System.step, hpermit, hdrop]
      rfl
  | dropBuilt serial =>
    obtain ⟨building,live,leases,hdrop,hinv⟩ := dropBuilt_spec h serial
    refine ⟨_,.unit,?_,hinv⟩
    rw [System.step, hdrop]
    rfl
  | retireLogicalMiss expertId =>
    obtain ⟨next,hretire,hinv,-⟩ := retireLogicalMiss_spec h expertId
    refine ⟨next,.unit,?_,hinv⟩
    rw [System.step, hretire]
    rfl
  | retireKeyIfPresent key =>
    obtain ⟨next,hretire,hinv,-⟩ := retireKeyIfPresent_spec h key
    refine ⟨next,.unit,?_,hinv⟩
    rw [System.step, hretire]
    rfl
  | dropHandle serial =>
    obtain ⟨inFlight,live,leases,hdrop,hinv⟩ := dropHandle_spec h serial
    refine ⟨_,.unit,?_,hinv⟩
    rw [System.step, hdrop]
    rfl

lemma run_spec (h : Inv whole) (operations : List (Operation π)) :
    ∃ last, whole.run operations = some last ∧ Inv last := by
  induction operations generalizing whole with
  | nil => exact ⟨whole,rfl,h⟩
  | cons operation operations ih =>
    obtain ⟨next,outcome,hstep,hinv⟩ := step_spec h operation
    obtain ⟨last,hrun,hinv⟩ := ih hinv
    refine ⟨last,?_,hinv⟩
    rw [System.run, List.foldlM_cons, hstep]
    exact hrun

end Steps

section Guarantees

/-- The counters against what they count. -/
structure Accounted (whole : System π) : Prop where
  registryBytes : whole.registryBytes = (whole.entries.map fun slot => slot.2.deviceBytes).sum
  reservedBytes : whole.reservedBytes =
    ((whole.installing.filter fun install => !install.2.charged).map
      fun install => install.2.bytes).sum
  expertLiveBytes : whole.expertLiveBytes =
    (whole.leases.map ExpertAllocationLease.bytes).sum
  registryFits : whole.registryBytes+whole.reservedBytes ≤ whole.expertCapacityBytes
  liveFits : whole.expertLiveBytes+whole.reservedBytes ≤ whole.expertCapacityBytes
  /-- Each addressable entry and each handle has its lease, and a lease has an owner. -/
  addressable : ∀ slot ∈ whole.entries, slot.2.lease ∈ whole.leases
  inFlight : ∀ entry ∈ whole.inFlight, entry.lease ∈ whole.leases
  owned : ∀ lease ∈ whole.leases, whole.Owned lease.serial
  /-- The installs in progress are those of the permits, at most one for an expert. -/
  granted : whole.installing.Perm (whole.permits.map PhysicalInstallPermit.install)
  single : (whole.installing.map fun install => install.1.expertId).Nodup
  exclusive : ∀ install ∈ whole.installing, Lru.peek whole.entries install.1.expertId = none

/-- What any next operation is promised. -/
structure Unfailing (whole : System π) : Prop where
  noPanic : ∀ operation, ∃ next outcome, whole.step operation = some (next,outcome)
  chargeAllocation : ∀ permit ∈ whole.permits, permit.charged = false →
    ∃ next, whole.step (.chargeAllocation permit.serial) = some (next,.charged (.ok permit.lease))
  install : ∀ permit ∈ whole.permits, permit.serial ∈ whole.building → ∀ payload,
    ∃ next, whole.step (.install permit.serial payload) =
      some (next,.installed (.ok (System.built permit payload)))
  /-- A requester of an older generation leaves a newer entry of its expert in place. -/
  newerKept : ∀ key bytes drops entry, (key.expertId,entry) ∈ whole.entries →
    key.generation<entry.physicalKey.generation →
    ∃ next outcome, whole.step (.acquireOrReserve key bytes drops) = some (next,outcome) ∧
      (key.expertId,entry) ∈ next.entries

lemma sum_pending (installing : List (PhysicalExpertKey × InstallReservation)) :
    (installing.map fun install => install.2.pending).sum =
      ((installing.filter fun install => !install.2.charged).map
        fun install => install.2.bytes).sum := by
  induction installing with
  | nil => rfl
  | cons install installing ih =>
    rw [List.map_cons, List.sum_cons, ih, InstallReservation.pending]
    cases hcharged : install.2.charged with
    | true => simp [hcharged]
    | false => simp [hcharged]

lemma Inv.accounted (h : Inv whole) : Accounted whole where
  registryBytes := h.addressed.sum
  reservedBytes := h.permitted.sum.trans (sum_pending _)
  expertLiveBytes := h.live
  registryFits := le_trans (Nat.add_le_add_right h.registry_le _) h.capacity
  liveFits := h.capacity
  addressable := fun slot hslot => (h.entryLease slot hslot).1
  inFlight := fun entry hentry => (h.handleLease entry hentry).1
  owned := h.owned
  granted := h.permitted.granted
  single := by
    rw [(h.permitted.granted.map _).nodup_iff, List.map_map]
    exact h.permitted.experts
  exclusive := by
    intro install hinstall
    obtain ⟨permit,hpermit,rfl⟩ := List.mem_map.mp (h.permitted.granted.subset hinstall)
    exact Lru.peek_eq_none.mpr fun entry hentry => h.exclusive permit hpermit _ hentry rfl

lemma Inv.unfailing (h : Inv whole) : Unfailing whole where
  noPanic := fun operation => by
    obtain ⟨next,outcome,hstep,-⟩ := step_spec h operation
    exact ⟨next,outcome,hstep⟩
  chargeAllocation := fun permit hpermit hcharged => by
    rw [step_chargeAllocation h hpermit, (chargeAllocation_spec h hpermit).2 hcharged]
    exact ⟨_,rfl⟩
  install := fun permit hpermit hbuilding payload => by
    obtain ⟨next,hinstall,-⟩ := step_install h hpermit hbuilding payload
    exact ⟨next,hinstall⟩
  newerKept := fun key bytes drops entry hentry hnewer => by
    obtain ⟨next,result,hacquire,-,hkept⟩ := acquireOrReserve_spec h key bytes drops
    refine ⟨next,.acquired result,?_,hkept entry hentry hnewer.le⟩
    rw [System.step, hacquire]
    rfl

/-- After any operations of any requesters nothing has panicked, the byte counters are exact and
within the capacity, and the next operation is answered as its requester relies on. -/
theorem counters_exact {capacity : ℕ} (hcapacity : capacity ≤ u64Max)
    (operations : List (Operation π)) :
    ∃ whole, (System.new capacity : System π).run operations = some whole ∧
      Accounted whole ∧ Unfailing whole := by
  obtain ⟨whole,hrun,hinv⟩ := run_spec (inv_new hcapacity) operations
  exact ⟨whole,hrun,hinv.accounted,hinv.unfailing⟩

/-- One expert is installed and evicted while a handle on it is in flight; another install is
charged, a third one still reserved. -/
def contended : List (Operation ℕ) :=
  [.acquireOrReserve ⟨1,0⟩ 4 [],.chargeAllocation 0,.install 0 7,
    .acquireOrReserve ⟨2,0⟩ 3 [],.chargeAllocation 1,.retireLogicalMiss 1,
    .acquireOrReserve ⟨3,5⟩ 2 [],.acquireOrReserve ⟨3,4⟩ 1 []]

theorem counters_exact_contended : 10 ≤ u64Max ∧
    (∃ whole, (System.new 10).run contended = some whole ∧ Accounted whole ∧ Unfailing whole) ∧
    ((System.new 10).run contended).map (fun whole =>
      (whole.registryBytes,whole.reservedBytes,whole.expertLiveBytes)) = some (0,2,7) :=
  ⟨by decide,counters_exact (by decide) contended,by decide +kernel⟩

end Guarantees

end MicroExpertRouter.PhysicalRegistry
