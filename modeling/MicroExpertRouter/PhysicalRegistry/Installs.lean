import MicroExpertRouter.PhysicalRegistry.Lookups

/-! The steps of an install keep the invariant, and none of its checks fails. -/
namespace MicroExpertRouter.PhysicalRegistry
variable {π : Type} {whole : System π} {permit : PhysicalInstallPermit}

section Permits
variable {installing : List (PhysicalExpertKey × InstallReservation)}
  {permits : List PhysicalInstallPermit} {reservedBytes nextSerial : ℕ}

lemma Permitted.keys (h : Permitted installing permits reservedBytes nextSerial) :
    (permits.map PhysicalInstallPermit.key).Nodup := by
  have hexperts := h.experts
  rw [show (fun permit : PhysicalInstallPermit => permit.key.expertId) =
    PhysicalExpertKey.expertId ∘ PhysicalInstallPermit.key from rfl, ← List.map_map] at hexperts
  exact hexperts.of_map

lemma Permitted.distinct (h : Permitted installing permits reservedBytes nextSerial) :
    Lru.Distinct installing := by
  rw [Lru.Distinct, (h.granted.map Prod.fst).nodup_iff, List.map_map]
  exact h.keys

lemma Permitted.peek (h : Permitted installing permits reservedBytes nextSerial)
    (hpermit : permit ∈ permits) : Lru.peek installing permit.key = some permit.reservation :=
  (Lru.peek_eq_some h.distinct).mpr
    (h.granted.symm.subset (List.mem_map.mpr ⟨permit,hpermit,rfl⟩))

lemma Permitted.key_iff (h : Permitted installing permits reservedBytes nextSerial)
    (hpermit : permit ∈ permits) {other : PhysicalInstallPermit} (hother : other ∈ permits) :
    other.key = permit.key ↔ other.serial = permit.serial :=
  ⟨fun heq => congrArg _ (List.inj_on_of_nodup_map h.keys hother hpermit heq),
    fun heq => congrArg _ (List.inj_on_of_nodup_map h.serials hother hpermit heq)⟩

/-- What one install has reserved is a part of the whole. -/
lemma Permitted.pending_le (h : Permitted installing permits reservedBytes nextSerial)
    (hpermit : permit ∈ permits) :
    (Lru.pop installing permit.key |>.map fun install => install.2.pending).sum+
      permit.reservation.pending = reservedBytes := by
  have hmem := Lru.peek_mem (h.peek hpermit)
  have hsum := ((h.distinct.perm_pop hmem).map fun install => install.2.pending).sum_eq
  rw [List.map_cons, List.sum_cons] at hsum
  rw [h.sum, hsum, Nat.add_comm]

/-- The end of a permit. -/
lemma Permitted.remove (h : Permitted installing permits reservedBytes nextSerial)
    (hpermit : permit ∈ permits) :
    Permitted (Lru.pop installing permit.key)
      (permits.filter fun other => other.serial ≠ permit.serial)
      (reservedBytes-permit.reservation.pending) nextSerial where
  granted := by
    refine (h.granted.filter _).trans (.of_eq ?_)
    rw [List.filter_map]
    refine congrArg _ (List.filter_congr fun other hother => ?_)
    exact decide_eq_decide.mpr (not_congr (h.key_iff hpermit hother))
  experts := h.experts.sublist (List.filter_sublist.map _)
  serials := h.serials.sublist (List.filter_sublist.map _)
  positive := fun other hother => h.positive other (List.mem_of_mem_filter hother)
  issued := fun other hother => h.issued other (List.mem_of_mem_filter hother)
  sum := by rw [← h.pending_le hpermit, Nat.add_sub_cancel_right]

/-- A permit whose reservation has been charged. -/
lemma Permitted.charge (h : Permitted installing permits reservedBytes nextSerial)
    (hpermit : permit ∈ permits) (hcharged : permit.charged = false) :
    Permitted (installing.map fun install =>
        if install.1 = permit.key then (install.1,{ install.2 with charged := true })
        else install)
      (permits.map fun other =>
        if other.serial = permit.serial then { other with charged := true } else other)
      (reservedBytes-permit.bytes) nextSerial where
  granted := by
    refine (h.granted.map _).trans (.of_eq ?_)
    rw [List.map_map, List.map_map]
    refine List.map_congr_left fun other hother => ?_
    have hiff := h.key_iff hpermit hother
    by_cases heq : other.serial = permit.serial
    · simp [PhysicalInstallPermit.install, PhysicalInstallPermit.reservation, heq, hiff.mpr heq]
    · simp [PhysicalInstallPermit.install, heq, mt hiff.mp heq]
  experts := by
    rw [List.map_map]
    refine Eq.mp (congrArg _ (List.map_congr_left fun other _ => ?_)) h.experts
    rw [Function.comp_apply]
    split_ifs <;> rfl
  serials := by
    rw [List.map_map]
    refine Eq.mp (congrArg _ (List.map_congr_left fun other _ => ?_)) h.serials
    rw [Function.comp_apply]
    split_ifs <;> rfl
  positive := by
    rw [List.forall_mem_map]
    intro other hother
    split_ifs <;> exact h.positive other hother
  issued := by
    rw [List.forall_mem_map]
    intro other hother
    split_ifs <;> exact h.issued other hother
  sum := by
    have hpending := h.pending_le hpermit
    have hmem := Lru.peek_mem (h.peek hpermit)
    have hsum := (((h.distinct.perm_pop hmem).map fun install =>
      if install.1 = permit.key then (install.1,{ install.2 with charged := true })
      else install).map fun install => install.2.pending).sum_eq
    have hrest : ((Lru.pop installing permit.key).map fun install =>
        if install.1 = permit.key then (install.1,{ install.2 with charged := true })
        else install) = Lru.pop installing permit.key := by
      refine (List.map_congr_left (g := id) fun install hinstall => ?_).trans (List.map_id _)
      exact if_neg (Lru.mem_pop.mp hinstall).2
    rw [List.map_cons, List.map_cons, List.sum_cons, hrest] at hsum
    rw [hsum]
    simp [InstallReservation.pending, PhysicalInstallPermit.reservation, hcharged] at hpending ⊢
    omega

end Permits

section Acquire
variable {key : PhysicalExpertKey} {bytes : ℕ}

/-- A reservation for an expert that has neither an entry nor an install. -/
lemma reserve_spec (h : Inv whole) (hbytes : 0<bytes)
    (habsent : ∀ slot ∈ whole.entries, slot.1 ≠ key.expertId)
    (hinstalling : ∀ install ∈ whole.installing, install.1.expertId ≠ key.expertId)
    (hfits : whole.installFits bytes = true) :
    ∃ next permit, whole.reserve key bytes = some (next,permit) ∧ Inv next ∧
      next.entries = whole.entries := by
  have hroom := installFits_spec hfits
  have hadd : whole.reservedBytes+bytes ≤ u64Max := by
    have hbounded := h.bounded
    omega
  have hmissing : ∀ reservation, (key,reservation) ∉ whole.installing :=
    fun reservation hmem => hinstalling _ hmem rfl
  have hexperts : ∀ permit ∈ whole.permits, permit.key.expertId ≠ key.expertId :=
    fun permit hpermit => hinstalling _
      (h.permitted.granted.symm.subset (List.mem_map.mpr ⟨permit,hpermit,rfl⟩))
  have hfresh : ∀ lease ∈ whole.leases, lease.serial ≠ whole.nextSerial :=
    fun lease hlease => (h.leaseIssued lease hlease).ne
  unfold System.reserve
  rw [checkedAdd_of_le hadd, Lru.peek_eq_none.mpr hmissing, Lru.put_of_absent hmissing]
  refine ⟨_,_,rfl,{ h with
    permitted := {
      granted := h.permitted.granted.cons _
      experts := List.nodup_cons.mpr ⟨fun hmem => ?_,h.permitted.experts⟩
      serials := List.nodup_cons.mpr ⟨fun hmem => ?_,h.permitted.serials⟩
      positive := List.forall_mem_cons.mpr ⟨hbytes,h.permitted.positive⟩
      issued := List.forall_mem_cons.mpr ⟨Nat.lt_succ_self _,fun permit hpermit =>
        (h.permitted.issued permit hpermit).trans (Nat.lt_succ_self _)⟩
      sum := ?_ }
    exclusive := List.forall_mem_cons.mpr ⟨habsent,h.exclusive⟩
    capacity := ?_
    leaseIssued := fun lease hlease => (h.leaseIssued lease hlease).trans (Nat.lt_succ_self _)
    permitLease := List.forall_mem_cons.mpr ⟨fun hmem => ?_,h.permitLease⟩
    permitFresh := List.forall_mem_cons.mpr ⟨fun _ hmem => ?_,h.permitFresh⟩ },rfl⟩
  · obtain ⟨permit,hpermit,heq⟩ := List.mem_map.mp hmem
    exact hexperts permit hpermit heq
  · obtain ⟨permit,hpermit,heq⟩ := List.mem_map.mp hmem
    exact (h.permitted.issued permit hpermit).ne heq
  · rw [List.map_cons, List.sum_cons, h.permitted.sum, Nat.add_comm]
    rfl
  · change whole.expertLiveBytes+(whole.reservedBytes+bytes) ≤ whole.expertCapacityBytes
    omega
  · obtain ⟨lease,hlease,heq⟩ := List.mem_map.mp (h.buildingLease _ hmem)
    exact absurd heq (hfresh lease hlease)
  · obtain ⟨lease,hlease,heq⟩ := List.mem_map.mp hmem
    exact hfresh lease hlease heq

/-- An acquire disturbs no entry of its expert that is as new as it or newer. -/
lemma acquireOrReserve_spec (h : Inv whole) (key : PhysicalExpertKey) (bytes : ℕ)
    (drops : List (List ℕ)) :
    ∃ next result, whole.acquireOrReserve key bytes drops = some (next,result) ∧ Inv next ∧
      ∀ entry, (key.expertId,entry) ∈ whole.entries →
        key.generation ≤ entry.physicalKey.generation → (key.expertId,entry) ∈ next.entries := by
  unfold System.acquireOrReserve
  split_ifs with hbytes
  · exact ⟨_,_,rfl,h,fun entry hentry _ => hentry⟩
  · obtain ⟨found,lookup,hlookup,hinv,hsame,hresult⟩ := lookupCurrentLocked_spec h key
    rw [hlookup]
    cases hresult with
    | hit hpeek hkey hmem => exact ⟨_,_,rfl,hinv,fun entry hentry _ => (hmem _).mpr hentry⟩
    | staleRequester hpeek hnewer hsame =>
      exact ⟨_,_,rfl,hinv,fun entry hentry _ => hsame ▸ hentry⟩
    | miss habsent holder hmem =>
      have hold : ∀ entry, (key.expertId,entry) ∈ whole.entries →
          ¬ key.generation ≤ entry.physicalKey.generation := fun entry hentry =>
        (holder entry ((Lru.peek_eq_some h.addressed.distinct).mpr hentry)).not_ge
      have hnone : ∀ last : System π, ∀ entry, (key.expertId,entry) ∈ whole.entries →
          key.generation ≤ entry.physicalKey.generation → (key.expertId,entry) ∈ last.entries :=
        fun last entry hentry hle => absurd hle (hold entry hentry)
      simp only [Option.bind_eq_bind, Option.bind_some]
      split_ifs with hinstalling
      · exact ⟨_,_,rfl,hinv,hnone _⟩
      · obtain ⟨room,fits,hroom,hinv,hsame',hsub,hfits⟩ :=
          makeRoom_spec hinv bytes (List.reverse_reverse _).symm drops
        rw [hroom]
        cases fits with
        | false => exact ⟨_,_,rfl,hinv,hnone _⟩
        | true =>
          have hbusy : ∀ install ∈ room.installing, install.1.expertId ≠ key.expertId := by
            rw [hsame'.installing]
            intro install hinstall heq
            exact hinstalling (List.any_eq_true.mpr ⟨install,hinstall,decide_eq_true heq⟩)
          obtain ⟨next,permit,hreserve,hinv,-⟩ := reserve_spec hinv (by omega)
            (fun slot hslot => habsent slot (hsub slot hslot)) hbusy (hfits rfl)
          simp only [Option.bind_some, if_true, hreserve]
          exact ⟨_,_,rfl,hinv,hnone _⟩

end Acquire

section Charge

lemma ledgerAcquire_spec (h : Core whole) {bytes : ℕ} (hbytes : 0<bytes)
    (hroom : whole.expertLiveBytes+bytes ≤ whole.expertCapacityBytes) :
    whole.ledgerAcquire bytes = .ok (whole.expertLiveBytes+bytes) := by
  simp only [System.ledgerAcquire, checkedAdd_of_le (hroom.trans h.bounded), hbytes.ne', if_false,
    hroom.not_gt]

/-- The reservation of a permit becomes a live lease, and none of the checks fails. -/
lemma chargeAllocation_spec (h : Inv whole) (hpermit : permit ∈ whole.permits) :
    Inv (whole.chargeAllocation permit).1 ∧ (permit.charged = false →
      (whole.chargeAllocation permit).2 = .ok permit.lease) := by
  cases hcharged : permit.charged with
  | true =>
    rw [System.chargeAllocation, if_pos hcharged]
    exact ⟨h,fun hfalse => Bool.noConfusion hfalse⟩
  | false =>
    have hpending := h.permitted.pending_le hpermit
    have hreserved : permit.bytes ≤ whole.reservedBytes := by
      rw [InstallReservation.pending, PhysicalInstallPermit.reservation, hcharged] at hpending
      simp only [Bool.false_eq_true, if_false] at hpending
      omega
    have hpositive := h.permitted.positive permit hpermit
    have hcapacity := h.capacity
    have hledger := ledgerAcquire_spec h.toCore hpositive
      (le_trans (Nat.add_le_add_left hreserved _) hcapacity)
    have hfresh := h.permitFresh permit hpermit hcharged
    have hnew : ∀ lease ∈ whole.leases, lease.serial ≠ permit.serial :=
      fun lease hlease heq => hfresh (List.mem_map.mpr ⟨lease,hlease,heq⟩)
    have hstep : whole.chargeAllocation permit = ({ whole with
        expertLiveBytes := whole.expertLiveBytes+permit.bytes
        reservedBytes := whole.reservedBytes-permit.bytes
        installing := whole.installing.map fun install =>
          if install.1 = permit.key then (install.1,{ install.2 with charged := true })
          else install
        permits := whole.permits.map fun other =>
          if other.serial = permit.serial then { other with charged := true } else other
        leases := permit.lease::whole.leases
        building := permit.serial::whole.building },.ok permit.lease) := by
      unfold System.chargeAllocation
      rw [h.permitted.peek hpermit, hledger, checkedSub_of_le hreserved]
      simp [PhysicalInstallPermit.reservation, PhysicalInstallPermit.lease, hcharged]
    rw [hstep]
    refine ⟨{ h with
      permitted := h.permitted.charge hpermit hcharged
      exclusive := ?_
      live := ?_
      capacity := ?_
      leaseSerials := List.nodup_cons.mpr ⟨hfresh,h.leaseSerials⟩
      leaseIssued := List.forall_mem_cons.mpr ⟨h.permitted.issued permit hpermit,h.leaseIssued⟩
      entryLease := fun slot hslot => ⟨List.mem_cons_of_mem _ (h.entryLease slot hslot).1,?_⟩
      handleLease := fun entry hentry => ⟨List.mem_cons_of_mem _ (h.handleLease entry hentry).1,?_⟩
      buildingLease := List.forall_mem_cons.mpr ⟨List.mem_cons_self,fun serial hserial =>
        List.mem_cons_of_mem _ (h.buildingLease serial hserial)⟩
      permitLease := ?_
      permitFresh := ?_
      owned := List.forall_mem_cons.mpr ⟨.inl List.mem_cons_self,fun lease hlease =>
        (h.owned lease hlease).imp_left (List.mem_cons_of_mem _)⟩ },fun _ => rfl⟩
    · rw [List.forall_mem_map]
      intro other hother
      split_ifs <;> exact h.exclusive other hother
    · change _ = (List.map ExpertAllocationLease.bytes (permit.lease::whole.leases)).sum
      rw [List.map_cons, List.sum_cons, ← h.live, Nat.add_comm]
      rfl
    · change whole.expertLiveBytes+permit.bytes+(whole.reservedBytes-permit.bytes) ≤
        whole.expertCapacityBytes
      omega
    · exact List.not_mem_cons_of_ne_of_not_mem (hnew _ (h.entryLease slot hslot).1)
        (h.entryLease slot hslot).2
    · exact List.not_mem_cons_of_ne_of_not_mem (hnew _ (h.handleLease entry hentry).1)
        (h.handleLease entry hentry).2
    · rw [List.forall_mem_map]
      intro other hother
      split_ifs with hserial
      · obtain rfl := List.inj_on_of_nodup_map h.permitted.serials hother hpermit hserial
        exact fun _ => List.mem_cons_self
      · intro hmem
        have hmem := (List.mem_cons.mp hmem).resolve_left hserial
        exact List.mem_cons_of_mem _ (h.permitLease other hother hmem)
    · rw [List.forall_mem_map]
      intro other hother
      split_ifs with hserial
      · exact fun hfalse => hfalse.elim
      · intro huncharged
        exact List.not_mem_cons_of_ne_of_not_mem hserial (h.permitFresh other hother huncharged)

end Charge

section Permit

lemma pending_charged (hcharged : permit.charged = true) : permit.reservation.pending = 0 :=
  if_pos hcharged

lemma dropPermit_spec (h : Inv whole) (hpermit : permit ∈ whole.permits) :
    ∃ next, whole.dropPermit permit = some next ∧ Inv next ∧ next.entries = whole.entries := by
  have hpending := h.permitted.pending_le hpermit
  have hsub : ∀ other ∈ whole.permits.filter fun other => other.serial ≠ permit.serial,
      other ∈ whole.permits := fun other hother => List.mem_of_mem_filter hother
  have hinv : Inv { whole with
      permits := whole.permits.filter fun other => other.serial ≠ permit.serial
      installing := Lru.pop whole.installing permit.key
      reservedBytes := whole.reservedBytes-permit.reservation.pending } :=
    { h with
      permitted := h.permitted.remove hpermit
      exclusive := fun other hother => h.exclusive other (hsub other hother)
      capacity := le_trans (Nat.add_le_add_left (Nat.sub_le _ _) _) h.capacity
      permitLease := fun other hother => h.permitLease other (hsub other hother)
      permitFresh := fun other hother => h.permitFresh other (hsub other hother) }
  refine ⟨_,?_,hinv,rfl⟩
  unfold System.dropPermit
  simp only [h.permitted.peek hpermit]
  split_ifs with hcharged
  · rw [pending_charged hcharged]
    rfl
  · have hbytes : permit.reservation.pending = permit.reservation.bytes := if_neg hcharged
    rw [checkedSub_of_le (by omega), hbytes]
    rfl

/-- While an entry is being built its permit is charged. -/
lemma charged_of_building (h : Inv whole) (hpermit : permit ∈ whole.permits)
    (hbuilding : permit.serial ∈ whole.building) : permit.charged = true := by
  cases hcharged : permit.charged with
  | true => rfl
  | false => exact absurd (h.buildingLease _ hbuilding) (h.permitFresh permit hpermit hcharged)

lemma checkInstall_spec (h : Inv whole) (hpermit : permit ∈ whole.permits)
    (hbuilding : permit.serial ∈ whole.building) (payload : π) :
    whole.checkInstall permit (System.built permit payload) =
      .ok (whole.registryBytes+permit.bytes) := by
  have hcharged := charged_of_building h hpermit hbuilding
  have habsent : Lru.peek whole.entries permit.key.expertId = none :=
    Lru.peek_eq_none.mpr fun entry hentry => h.exclusive permit hpermit _ hentry rfl
  have hlive : ([permit.lease].map ExpertAllocationLease.bytes).sum+whole.registryBytes ≤
      whole.expertLiveBytes := h.registry_add_le (List.nodup_singleton _) (by
    rw [List.forall_mem_singleton]
    exact ⟨h.permitLease permit hpermit hbuilding,hbuilding⟩)
  rw [List.map_singleton, List.sum_singleton] at hlive
  have hlive : permit.bytes+whole.registryBytes ≤ whole.expertLiveBytes := hlive
  have hcapacity := h.capacity
  have hbounded := h.bounded
  have hadd : checkedAdd u64Max whole.registryBytes permit.bytes =
    some (whole.registryBytes+permit.bytes) := checkedAdd_of_le (by omega)
  have hfits : ¬ whole.expertCapacityBytes<whole.registryBytes+permit.bytes := by omega
  simp [System.checkInstall, System.built, hcharged, h.permitted.peek hpermit,
    PhysicalInstallPermit.reservation, habsent, hadd, hfits]

/-- An install with a permit whose entry has been built never fails. -/
lemma install_spec (h : Inv whole) (hpermit : permit ∈ whole.permits)
    (hbuilding : permit.serial ∈ whole.building) (payload : π) :
    ∃ next, whole.install permit (System.built permit payload) =
      some (next,.ok (System.built permit payload)) ∧ Inv next := by
  have hcharged := charged_of_building h hpermit hbuilding
  have habsent : ∀ entry, (permit.key.expertId,entry) ∉ whole.entries :=
    fun entry hentry => h.exclusive permit hpermit _ hentry rfl
  have hpermits : ∀ other ∈ whole.permits.filter fun other => other.serial ≠ permit.serial,
      other ∈ whole.permits := fun other hother => List.mem_of_mem_filter hother
  have hrest : ∀ serial ∈ whole.building.filter fun other => other ≠ permit.serial,
      serial ∈ whole.building := fun serial hserial => List.mem_of_mem_filter hserial
  have hlease := h.permitLease permit hpermit hbuilding
  have hbuilt : permit.serial ∉ whole.building.filter fun other => other ≠ permit.serial := by simp
  rw [System.install, checkInstall_spec h hpermit hbuilding payload]
  refine ⟨_,rfl,?_⟩
  rw [Lru.put_of_absent habsent]
  refine { h with
    addressed := {
      distinct := List.nodup_cons.mpr ⟨fun hmem => ?_,h.addressed.distinct⟩
      keyed := List.forall_mem_cons.mpr ⟨rfl,h.addressed.keyed⟩
      serials := List.nodup_cons.mpr ⟨fun hmem => ?_,h.addressed.serials⟩
      sum := ?_ }
    permitted := ?_
    exclusive := fun other hother => List.forall_mem_cons.mpr
      ⟨fun heq => ?_,h.exclusive other (hpermits other hother)⟩
    entryLease := List.forall_mem_cons.mpr ⟨⟨hlease,hbuilt⟩,fun slot hslot =>
      ⟨(h.entryLease slot hslot).1,fun hmem => (h.entryLease slot hslot).2 (hrest _ hmem)⟩⟩
    handleLease := List.forall_mem_cons.mpr ⟨⟨hlease,hbuilt⟩,fun entry hentry =>
      ⟨(h.handleLease entry hentry).1,fun hmem => (h.handleLease entry hentry).2 (hrest _ hmem)⟩⟩
    buildingLease := fun serial hserial => h.buildingLease serial (hrest serial hserial)
    permitLease := fun other hother hmem =>
      h.permitLease other (hpermits other hother) (hrest _ hmem)
    permitFresh := fun other hother => h.permitFresh other (hpermits other hother)
    owned := fun lease hlease => ?_ }
  · obtain ⟨slot,hslot,heq⟩ := List.mem_map.mp hmem
    have heq : slot.1 = permit.key.expertId := heq
    exact h.exclusive permit hpermit slot hslot heq
  · obtain ⟨slot,hslot,heq⟩ := List.mem_map.mp hmem
    have heq : slot.2.serial = permit.serial := heq
    exact (h.entryLease slot hslot).2 (heq ▸ hbuilding)
  · rw [List.map_cons, List.sum_cons, ← h.addressed.sum, Nat.add_comm]
    rfl
  · have hremove := h.permitted.remove hpermit
    rwa [pending_charged hcharged, Nat.sub_zero] at hremove
  · obtain ⟨hother,hne⟩ := List.mem_filter.mp hother
    have heq : permit.key.expertId = other.key.expertId := heq
    refine of_decide_eq_true hne (congrArg _ ?_)
    exact List.inj_on_of_nodup_map h.permitted.experts hother hpermit heq.symm
  · rcases h.owned lease hlease with hmem | hheld
    · by_cases heq : lease.serial = permit.serial
      · exact .inr (held_iff.mpr (.inl ⟨_,List.mem_cons_self,heq.symm⟩))
      · exact .inl (List.mem_filter.mpr ⟨hmem,decide_eq_true heq⟩)
    · refine .inr (held_iff.mpr ((held_iff.mp hheld).imp ?_ ?_))
      · exact Exists.imp fun slot hslot => ⟨List.mem_cons_of_mem _ hslot.1,hslot.2⟩
      · exact Exists.imp fun entry hentry => ⟨List.mem_cons_of_mem _ hentry.1,hentry.2⟩

end Permit

end MicroExpertRouter.PhysicalRegistry
