import MicroExpertRouter.PhysicalRegistry.Registry

/-! The invariant of the registry and of its byte ledger, and the ledger's part of it: what happens
to the leases when handles end. -/
namespace MicroExpertRouter.PhysicalRegistry
variable {π : Type}

/-- The lease that an entry owns. -/
def Entry.lease (entry : Entry π) : ExpertAllocationLease := ⟨entry.serial,entry.deviceBytes⟩

/-- The bytes an install still has reserved. -/
def InstallReservation.pending (reservation : InstallReservation) : ℕ :=
  if reservation.charged then 0 else reservation.bytes

namespace PhysicalInstallPermit

def reservation (permit : PhysicalInstallPermit) : InstallReservation :=
  ⟨permit.bytes,permit.charged⟩

def install (permit : PhysicalInstallPermit) : PhysicalExpertKey × InstallReservation :=
  (permit.key,permit.reservation)

def lease (permit : PhysicalInstallPermit) : ExpertAllocationLease := ⟨permit.serial,permit.bytes⟩

end PhysicalInstallPermit

structure Addressed (entries : List (ℕ × Entry π)) (registryBytes : ℕ) : Prop where
  distinct : Lru.Distinct entries
  keyed : ∀ slot ∈ entries, slot.2.physicalKey.expertId = slot.1
  serials : (entries.map fun slot => slot.2.serial).Nodup
  sum : registryBytes = (entries.map fun slot => slot.2.deviceBytes).sum

/-- The installs in progress are those of the permits, one for an expert. -/
structure Permitted (installing : List (PhysicalExpertKey × InstallReservation))
    (permits : List PhysicalInstallPermit) (reservedBytes nextSerial : ℕ) : Prop where
  granted : installing.Perm (permits.map PhysicalInstallPermit.install)
  experts : (permits.map fun permit => permit.key.expertId).Nodup
  serials : (permits.map PhysicalInstallPermit.serial).Nodup
  positive : ∀ permit ∈ permits, 0<permit.bytes
  issued : ∀ permit ∈ permits, permit.serial<nextSerial
  sum : reservedBytes = (installing.map fun install => install.2.pending).sum

/-- What holds also between the removal of a handle and the end of its lease. -/
structure Core (whole : System π) : Prop where
  bounded : whole.expertCapacityBytes ≤ u64Max
  addressed : Addressed whole.entries whole.registryBytes
  permitted : Permitted whole.installing whole.permits whole.reservedBytes whole.nextSerial
  exclusive : ∀ permit ∈ whole.permits, ∀ slot ∈ whole.entries, slot.1 ≠ permit.key.expertId
  live : whole.expertLiveBytes = (whole.leases.map ExpertAllocationLease.bytes).sum
  capacity : whole.expertLiveBytes+whole.reservedBytes ≤ whole.expertCapacityBytes
  leaseSerials : (whole.leases.map ExpertAllocationLease.serial).Nodup
  leaseIssued : ∀ lease ∈ whole.leases, lease.serial<whole.nextSerial
  entryLease : ∀ slot ∈ whole.entries,
    slot.2.lease ∈ whole.leases ∧ slot.2.serial ∉ whole.building
  handleLease : ∀ entry ∈ whole.inFlight, entry.lease ∈ whole.leases ∧
    entry.serial ∉ whole.building
  buildingLease : ∀ serial ∈ whole.building,
    serial ∈ whole.leases.map ExpertAllocationLease.serial
  permitLease : ∀ permit ∈ whole.permits, permit.serial ∈ whole.building →
    permit.lease ∈ whole.leases
  permitFresh : ∀ permit ∈ whole.permits, permit.charged = false →
    permit.serial ∉ whole.leases.map ExpertAllocationLease.serial

/-- A lease lives as long as an entry owns it: one being built, addressable or in flight. -/
def System.Owned (whole : System π) (serial : ℕ) : Prop :=
  serial ∈ whole.building ∨ whole.held serial = true

structure Inv (whole : System π) : Prop extends Core whole where
  owned : ∀ lease ∈ whole.leases, whole.Owned lease.serial

lemma inv_new {capacity : ℕ} (h : capacity ≤ u64Max) : Inv (System.new capacity : System π) where
  bounded := h
  addressed := ⟨.nil,List.forall_mem_nil _,.nil,rfl⟩
  permitted := ⟨.refl _,.nil,.nil,List.forall_mem_nil _,List.forall_mem_nil _,rfl⟩
  exclusive := List.forall_mem_nil _
  live := rfl
  capacity := Nat.zero_le _
  leaseSerials := .nil
  leaseIssued := List.forall_mem_nil _
  entryLease := List.forall_mem_nil _
  handleLease := List.forall_mem_nil _
  buildingLease := List.forall_mem_nil _
  permitLease := List.forall_mem_nil _
  permitFresh := List.forall_mem_nil _
  owned := List.forall_mem_nil _

section Lists

/-- An element that a number tells from the others, and the others. -/
lemma perm_cons_filter {α : Type} {f : α → ℕ} {xs : List α} {x : α} (h : (xs.map f).Nodup)
    (hx : x ∈ xs) : xs.Perm (x::xs.filter fun y => f y ≠ f x) := by
  have hnodup : xs.Nodup := h.of_map
  have hrest : (x::xs.filter fun y => f y ≠ f x).Nodup := by
    rw [List.nodup_cons]
    exact ⟨by simp,hnodup.filter _⟩
  refine (List.perm_ext_iff_of_nodup hnodup hrest).mpr fun y => ?_
  rw [List.mem_cons, List.mem_filter, decide_eq_true_eq]
  constructor
  · intro hy
    by_cases heq : f y = f x
    · exact .inl (List.inj_on_of_nodup_map h hy hx heq)
    · exact .inr ⟨hy,heq⟩
  · rintro (rfl | ⟨hy,-⟩)
    · exact hx
    · exact hy

/-- Different leases among those that are live are charged together. -/
lemma sum_bytes_le {xs leases : List ExpertAllocationLease}
    (hserials : (xs.map ExpertAllocationLease.serial).Nodup) (h : ∀ x ∈ xs, x ∈ leases) :
    (xs.map ExpertAllocationLease.bytes).sum ≤ (leases.map ExpertAllocationLease.bytes).sum := by
  obtain ⟨ys,hperm,hsub⟩ := List.Nodup.subperm (hserials.of_map _) h
  rw [← (hperm.map _).sum_eq]
  exact (hsub.map _).sum_le_sum fun _ _ => Nat.zero_le _

end Lists

section Ledger
variable {whole : System π} {serial : ℕ}

lemma held_iff : whole.held serial = true ↔
    (∃ slot ∈ whole.entries, slot.2.serial = serial) ∨
      ∃ entry ∈ whole.inFlight, entry.serial = serial := by
  simp [System.held]

/-- The addressable entries are charged, and so are entries that could be installed beside them. -/
lemma Core.registry_add_le (h : Core whole) {built : List ExpertAllocationLease}
    (hserials : (built.map ExpertAllocationLease.serial).Nodup)
    (hbuilt : ∀ lease ∈ built, lease ∈ whole.leases ∧ lease.serial ∈ whole.building) :
    (built.map ExpertAllocationLease.bytes).sum+whole.registryBytes ≤ whole.expertLiveBytes := by
  have hnodup : ((built++whole.entries.map fun slot => slot.2.lease).map
      ExpertAllocationLease.serial).Nodup := by
    rw [List.map_append, List.map_map]
    refine List.nodup_append'.mpr ⟨hserials,h.addressed.serials,?_⟩
    rintro serial hmem hentry
    obtain ⟨lease,hlease,rfl⟩ := List.mem_map.mp hmem
    obtain ⟨slot,hslot,heq⟩ := List.mem_map.mp hentry
    have heq : slot.2.serial = lease.serial := heq
    exact (h.entryLease slot hslot).2 (heq ▸ (hbuilt lease hlease).2)
  have hle : _ ≤ (whole.leases.map ExpertAllocationLease.bytes).sum := sum_bytes_le hnodup (by
    rw [List.forall_mem_append, List.forall_mem_map]
    exact ⟨fun lease hlease => (hbuilt lease hlease).1,
      fun slot hslot => (h.entryLease slot hslot).1⟩)
  rw [List.map_append, List.map_map, List.sum_append] at hle
  rw [h.live, h.addressed.sum]
  exact hle

lemma Core.registry_le (h : Core whole) : whole.registryBytes ≤ whole.expertLiveBytes := by
  have hle : (([] : List ExpertAllocationLease).map ExpertAllocationLease.bytes).sum+
      whole.registryBytes ≤ whole.expertLiveBytes :=
    h.registry_add_le .nil (List.forall_mem_nil _)
  rwa [List.map_nil, List.sum_nil, Nat.zero_add] at hle

/-- The ledger without one lease. -/
lemma Core.release (h : Core whole) {lease : ExpertAllocationLease} (hlease : lease ∈ whole.leases)
    (hbuilding : lease.serial ∉ whole.building) (hheld : whole.held lease.serial = false) :
    Core { whole with
      expertLiveBytes := whole.expertLiveBytes-lease.bytes
      leases := whole.leases.filter fun other => other.serial ≠ lease.serial } := by
  have hkeep : ∀ other ∈ whole.leases, other.serial ≠ lease.serial →
      other ∈ whole.leases.filter fun other => other.serial ≠ lease.serial :=
    fun other hother hne => List.mem_filter.mpr ⟨hother,decide_eq_true hne⟩
  have hheld : ∀ serial, whole.held serial = true → serial ≠ lease.serial := by
    rintro serial hserial rfl
    exact absurd hserial (hheld ▸ Bool.false_ne_true)
  have hsum := ((perm_cons_filter h.leaseSerials hlease).map
    ExpertAllocationLease.bytes).sum_eq
  rw [List.map_cons, List.sum_cons] at hsum
  exact { h with
    live := by
      change whole.expertLiveBytes-lease.bytes = _
      rw [h.live, hsum, Nat.add_sub_cancel_left]
    capacity := le_trans (Nat.add_le_add_right (Nat.sub_le _ _) _) h.capacity
    leaseSerials := h.leaseSerials.sublist (List.filter_sublist.map _)
    leaseIssued := fun other hother => h.leaseIssued other (List.mem_of_mem_filter hother)
    entryLease := fun slot hslot => ⟨hkeep _ (h.entryLease slot hslot).1
      (hheld _ (held_iff.mpr (.inl ⟨slot,hslot,rfl⟩))),(h.entryLease slot hslot).2⟩
    handleLease := fun entry hentry => ⟨hkeep _ (h.handleLease entry hentry).1
      (hheld _ (held_iff.mpr (.inr ⟨entry,hentry,rfl⟩))),(h.handleLease entry hentry).2⟩
    buildingLease := by
      intro serial hserial
      obtain ⟨other,hother,rfl⟩ := List.mem_map.mp (h.buildingLease serial hserial)
      exact List.mem_map.mpr ⟨other,hkeep other hother fun heq => hbuilding (heq ▸ hserial),rfl⟩
    permitLease := fun permit hpermit hserial => hkeep _ (h.permitLease permit hpermit hserial)
      fun heq => hbuilding (heq ▸ hserial)
    permitFresh := fun permit hpermit hcharged hmem =>
      h.permitFresh permit hpermit hcharged ((List.filter_sublist.map _).subset hmem) }

/-- Only the ledger changes when a lease ends. -/
lemma dropLease_spec (h : Core whole) (hbuilding : serial ∉ whole.building)
    (hheld : whole.held serial = false)
    (howned : ∀ lease ∈ whole.leases, lease.serial ≠ serial → whole.Owned lease.serial) :
    ∃ live leases, whole.dropLease serial =
        some { whole with expertLiveBytes := live, leases := leases } ∧
      Inv { whole with expertLiveBytes := live, leases := leases } := by
  unfold System.dropLease
  cases hfind : whole.leases.find? fun lease => lease.serial = serial with
  | none =>
    refine ⟨_,_,rfl,{ h with owned := fun lease hlease => howned lease hlease ?_ }⟩
    have hne := List.find?_eq_none.mp hfind lease hlease
    simpa using hne
  | some lease =>
    have hlease := List.mem_of_find?_eq_some hfind
    obtain rfl : lease.serial = serial := by simpa using List.find?_some hfind
    have hle : lease.bytes ≤ whole.expertLiveBytes := by
      rw [h.live]
      exact List.le_sum_of_mem (List.mem_map.mpr ⟨lease,hlease,rfl⟩)
    simp only [checkedSub_of_le hle]
    refine ⟨_,_,rfl,{ h.release hlease hbuilding hheld with owned := fun other hother => ?_ }⟩
    obtain ⟨hother,hne⟩ := List.mem_filter.mp hother
    exact howned other hother (of_decide_eq_true hne)

lemma dropArc_spec (h : Core whole) (hbuilding : serial ∉ whole.building)
    (howned : ∀ lease ∈ whole.leases, lease.serial ≠ serial → whole.Owned lease.serial) :
    ∃ live leases, whole.dropArc serial =
        some { whole with expertLiveBytes := live, leases := leases } ∧
      Inv { whole with expertLiveBytes := live, leases := leases } := by
  unfold System.dropArc
  split_ifs with hheld
  · refine ⟨_,_,rfl,{ h with owned := fun lease hlease => ?_ }⟩
    by_cases hserial : lease.serial = serial
    · exact .inr (hserial ▸ hheld)
    · exact howned lease hlease hserial
  · exact dropLease_spec h hbuilding (Bool.eq_false_iff.mpr hheld) howned

/-- A handle that ends takes its lease with it when it was the last one. -/
lemma dropHandle_spec (h : Inv whole) (serial : ℕ) :
    ∃ inFlight live leases, whole.dropHandle serial = some { whole with
        inFlight := inFlight, expertLiveBytes := live, leases := leases } ∧
      Inv { whole with inFlight := inFlight, expertLiveBytes := live, leases := leases } := by
  unfold System.dropHandle
  cases hfind : whole.inFlight.find? fun entry => entry.serial = serial with
  | none => exact ⟨_,_,_,rfl,h⟩
  | some entry =>
    have hentry := List.mem_of_find?_eq_some hfind
    obtain rfl : entry.serial = serial := by simpa using List.find?_some hfind
    have hsub : ∀ other ∈ whole.inFlight.eraseP fun other => other.serial = entry.serial,
        other ∈ whole.inFlight := fun other hother => List.mem_of_mem_eraseP hother
    have hcore : Core { whole with
        inFlight := whole.inFlight.eraseP fun other => other.serial = entry.serial } :=
      { h with handleLease := fun other hother => h.handleLease other (hsub other hother) }
    obtain ⟨live,leases,hdrop,hinv⟩ := dropArc_spec hcore (h.handleLease entry hentry).2 (by
      intro lease hlease hne
      refine (h.owned lease hlease).imp_right fun hheld => held_iff.mpr ?_
      refine (held_iff.mp hheld).imp_right (Exists.imp fun other hother => ⟨?_,hother.2⟩)
      exact (List.mem_eraseP_of_neg (by simpa [hother.2] using hne)).mpr hother.1)
    exact ⟨_,live,leases,hdrop,hinv⟩

lemma dropBuilt_spec (h : Inv whole) (serial : ℕ) :
    ∃ building live leases, whole.dropBuilt serial = some { whole with
        building := building, expertLiveBytes := live, leases := leases } ∧
      Inv { whole with building := building, expertLiveBytes := live, leases := leases } := by
  unfold System.dropBuilt
  split_ifs with hserial
  · have hsub : ∀ other ∈ whole.building.filter fun other => other ≠ serial,
        other ∈ whole.building := fun other hother => List.mem_of_mem_filter hother
    have hcore : Core { whole with
        building := whole.building.filter fun other => other ≠ serial } :=
      { h with
        entryLease := fun slot hslot =>
          ⟨(h.entryLease slot hslot).1,fun hmem => (h.entryLease slot hslot).2 (hsub _ hmem)⟩
        handleLease := fun entry hentry =>
          ⟨(h.handleLease entry hentry).1,fun hmem => (h.handleLease entry hentry).2 (hsub _ hmem)⟩
        buildingLease := fun other hother => h.buildingLease other (hsub other hother)
        permitLease := fun permit hpermit hmem => h.permitLease permit hpermit (hsub _ hmem) }
    have hheld : whole.held serial = false := by
      rw [Bool.eq_false_iff]
      intro hheld
      rcases held_iff.mp hheld with ⟨slot,hslot,rfl⟩ | ⟨entry,hentry,rfl⟩
      · exact (h.entryLease slot hslot).2 hserial
      · exact (h.handleLease entry hentry).2 hserial
    obtain ⟨live,leases,hdrop,hinv⟩ := dropLease_spec hcore (by simp) hheld (by
      intro lease hlease hne
      refine (h.owned lease hlease).imp_left fun hmem => ?_
      exact List.mem_filter.mpr ⟨hmem,decide_eq_true hne⟩)
    exact ⟨_,live,leases,hdrop,hinv⟩
  · exact ⟨_,_,_,rfl,h⟩

lemma dropOwner_spec (h : Inv whole) (serial : ℕ) :
    ∃ inFlight building live leases, whole.dropOwner serial = some { whole with
        inFlight := inFlight, building := building, expertLiveBytes := live, leases := leases } ∧
      Inv { whole with
        inFlight := inFlight, building := building, expertLiveBytes := live, leases := leases } := by
  obtain ⟨inFlight,live,leases,hdrop,hinv⟩ := dropHandle_spec h serial
  obtain ⟨building,live,leases,hbuilt,hinv⟩ := dropBuilt_spec hinv serial
  refine ⟨inFlight,building,live,leases,?_,hinv⟩
  rw [System.dropOwner, hdrop]
  exact hbuilt

lemma dropOwners_spec (h : Inv whole) (serials : List ℕ) :
    ∃ inFlight building live leases, whole.dropOwners serials = some { whole with
        inFlight := inFlight, building := building, expertLiveBytes := live, leases := leases } ∧
      Inv { whole with
        inFlight := inFlight, building := building, expertLiveBytes := live, leases := leases } := by
  induction serials generalizing whole with
  | nil => exact ⟨_,_,_,_,rfl,h⟩
  | cons serial serials ih =>
    obtain ⟨inFlight,building,live,leases,hdrop,hinv⟩ := dropOwner_spec h serial
    obtain ⟨inFlight,building,live,leases,hdrops,hinv⟩ := ih hinv
    refine ⟨inFlight,building,live,leases,?_,hinv⟩
    rw [System.dropOwners, List.foldlM_cons, hdrop]
    exact hdrops

end Ledger

end MicroExpertRouter.PhysicalRegistry
