import MicroExpertRouter.PhysicalRegistry.Invariant

/-! Lookups, retirements and evictions keep the invariant, and leave installs alone. -/
namespace MicroExpertRouter.PhysicalRegistry
variable {π : Type} {whole next : System π} {key : PhysicalExpertKey}

/-- What an operation on addressable entries and handles leaves alone. -/
structure SameInstalls (whole next : System π) : Prop where
  capacity : next.expertCapacityBytes = whole.expertCapacityBytes
  installing : next.installing = whole.installing
  permits : next.permits = whole.permits
  reservedBytes : next.reservedBytes = whole.reservedBytes
  nextSerial : next.nextSerial = whole.nextSerial

lemma SameInstalls.refl (whole : System π) : SameInstalls whole whole :=
  ⟨rfl,rfl,rfl,rfl,rfl⟩

lemma SameInstalls.trans {last : System π} (h : SameInstalls whole next)
    (h' : SameInstalls next last) : SameInstalls whole last :=
  ⟨h'.capacity.trans h.capacity,h'.installing.trans h.installing,h'.permits.trans h.permits,
    h'.reservedBytes.trans h.reservedBytes,h'.nextSerial.trans h.nextSerial⟩

lemma dropOwners_same (h : Inv whole) (serials : List ℕ) :
    ∃ next, whole.dropOwners serials = some next ∧ Inv next ∧ SameInstalls whole next ∧
      next.entries = whole.entries := by
  obtain ⟨inFlight,building,live,leases,hdrop,hinv⟩ := dropOwners_spec h serials
  exact ⟨_,hdrop,hinv,⟨rfl,rfl,rfl,rfl,rfl⟩,rfl⟩

section Entries
variable {entries : List (ℕ × Entry π)} {registryBytes : ℕ}

lemma Addressed.perm (h : Addressed entries registryBytes) {entries' : List (ℕ × Entry π)}
    (hperm : entries'.Perm entries) : Addressed entries' registryBytes where
  distinct := (hperm.map _).nodup_iff.mpr h.distinct
  keyed := fun slot hslot => h.keyed slot (hperm.subset hslot)
  serials := (hperm.map _).nodup_iff.mpr h.serials
  sum := h.sum.trans (hperm.map _).sum_eq.symm

lemma Addressed.bytes_le (h : Addressed entries registryBytes) {k : ℕ} {entry : Entry π}
    (hmem : (k,entry) ∈ entries) : entry.deviceBytes ≤ registryBytes := by
  rw [h.sum]
  exact List.le_sum_of_mem (List.mem_map.mpr ⟨_,hmem,rfl⟩)

lemma Addressed.pop (h : Addressed entries registryBytes) {k : ℕ} {entry : Entry π}
    (hmem : (k,entry) ∈ entries) :
    Addressed (Lru.pop entries k) (registryBytes-entry.deviceBytes) where
  distinct := h.distinct.pop k
  keyed := fun slot hslot => h.keyed slot (List.mem_of_mem_filter hslot)
  serials := h.serials.sublist (List.filter_sublist.map _)
  sum := by
    have hsum := ((h.distinct.perm_pop hmem).map fun slot => slot.2.deviceBytes).sum_eq
    rw [List.map_cons, List.sum_cons] at hsum
    rw [h.sum, hsum, Nat.add_sub_cancel_left]

/-- The least recently used entry is removed as if by its key. -/
lemma pop_oldest (h : Lru.Distinct entries) {k : ℕ} {entry : Entry π}
    {rest : List (ℕ × Entry π)} (hentries : entries = ((k,entry)::rest).reverse) :
    Lru.pop entries k = rest.reverse := by
  subst hentries
  rw [Lru.Distinct, List.map_reverse, List.nodup_reverse, List.map_cons, List.nodup_cons] at h
  rw [Lru.pop, List.filter_reverse, List.filter_cons_of_neg (by simp), List.filter_eq_self.mpr]
  intro slot hslot
  refine decide_eq_true fun heq => h.1 ?_
  exact List.mem_map.mpr ⟨slot,hslot,heq⟩

end Entries

lemma Inv.reorder (h : Inv whole) {entries : List (ℕ × Entry π)}
    (hperm : entries.Perm whole.entries) : Inv { whole with entries := entries } :=
  { h with
    addressed := h.addressed.perm hperm
    exclusive := fun permit hpermit slot hslot =>
      h.exclusive permit hpermit slot (hperm.subset hslot)
    entryLease := fun slot hslot => h.entryLease slot (hperm.subset hslot)
    owned := fun lease hlease => (h.owned lease hlease).imp_right fun hheld => by
      refine held_iff.mpr ((held_iff.mp hheld).imp_left (Exists.imp fun slot hslot => ?_))
      exact ⟨hperm.symm.subset hslot.1,hslot.2⟩ }

/-- Another handle on an entry that is addressable. -/
lemma Inv.share (h : Inv whole) {slot : ℕ × Entry π} (hslot : slot ∈ whole.entries) :
    Inv (whole.share slot.2) :=
  { h with
    handleLease := List.forall_mem_cons.mpr ⟨h.entryLease slot hslot,h.handleLease⟩
    owned := fun lease hlease => (h.owned lease hlease).imp_right fun hheld => by
      refine held_iff.mpr ((held_iff.mp hheld).imp_right (Exists.imp fun entry hentry => ?_))
      exact ⟨List.mem_cons_of_mem _ hentry.1,hentry.2⟩ }

/-- Entries leave the registry with their bytes, and their leases end unless a handle is left. -/
lemma remove_spec (h : Inv whole) {k : ℕ} {victim : Entry π} (hmem : (k,victim) ∈ whole.entries)
    (evictions staleRetirements : ℕ) :
    ∃ live leases, System.dropArc { whole with
        entries := Lru.pop whole.entries k
        registryBytes := whole.registryBytes-victim.deviceBytes
        evictions := evictions, staleRetirements := staleRetirements } victim.serial =
      some { whole with
        entries := Lru.pop whole.entries k
        registryBytes := whole.registryBytes-victim.deviceBytes
        evictions := evictions, staleRetirements := staleRetirements
        expertLiveBytes := live, leases := leases } ∧
      Inv { whole with
        entries := Lru.pop whole.entries k
        registryBytes := whole.registryBytes-victim.deviceBytes
        evictions := evictions, staleRetirements := staleRetirements
        expertLiveBytes := live, leases := leases } := by
  have hsub : ∀ slot ∈ Lru.pop whole.entries k, slot ∈ whole.entries :=
    fun slot hslot => List.mem_of_mem_filter hslot
  have hcore : Core { whole with
      entries := Lru.pop whole.entries k
      registryBytes := whole.registryBytes-victim.deviceBytes
      evictions := evictions, staleRetirements := staleRetirements } :=
    { h with
      addressed := h.addressed.pop hmem
      exclusive := fun permit hpermit slot hslot => h.exclusive permit hpermit slot (hsub slot hslot)
      entryLease := fun slot hslot => h.entryLease slot (hsub slot hslot) }
  refine dropArc_spec hcore (h.entryLease _ hmem).2 fun lease hlease hne => ?_
  refine (h.owned lease hlease).imp_right fun hheld => held_iff.mpr ?_
  refine (held_iff.mp hheld).imp_left (Exists.imp fun slot hslot => ⟨?_,hslot.2⟩)
  refine Lru.mem_pop.mpr ⟨hslot.1,fun hk => hne ?_⟩
  have hslot' : (k,slot.2) ∈ whole.entries := hk ▸ hslot.1
  rw [← hslot.2, h.addressed.distinct.eq hslot' hmem]

lemma retireEntryLocked_spec (h : Inv whole) {expertId : ℕ} {stale : Entry π}
    (hpeek : Lru.peek whole.entries expertId = some stale) :
    ∃ next, whole.retireEntryLocked expertId = some next ∧ Inv next ∧ SameInstalls whole next ∧
      next.entries = Lru.pop whole.entries expertId := by
  have hmem := Lru.peek_mem hpeek
  obtain ⟨live,leases,hdrop,hinv⟩ := remove_spec h hmem whole.evictions
    (saturatingAdd u64Max whole.staleRetirements 1)
  refine ⟨_,?_,hinv,⟨rfl,rfl,rfl,rfl,rfl⟩,rfl⟩
  rw [System.retireEntryLocked, hpeek]
  change (checkedSub whole.registryBytes stale.deviceBytes).bind _ = _
  rw [checkedSub_of_le (h.addressed.bytes_le hmem)]
  exact hdrop

/-- A lookup, by the generation of the entry it finds. -/
inductive LookupResult (whole next : System π) (key : PhysicalExpertKey) :
    PhysicalRegistryLookup π → Prop
  | hit {entry : Entry π} (hpeek : Lru.peek whole.entries key.expertId = some entry)
    (hkey : entry.physicalKey = key)
    (hmem : ∀ slot, slot ∈ next.entries ↔ slot ∈ whole.entries) :
    LookupResult whole next key (.hit entry)
  | staleRequester {entry : Entry π} (hpeek : Lru.peek whole.entries key.expertId = some entry)
    (hnewer : key.generation<entry.physicalKey.generation) (hsame : next = whole) :
    LookupResult whole next key .staleRequester
  | miss (habsent : ∀ slot ∈ next.entries, slot.1 ≠ key.expertId)
    (holder : ∀ entry, Lru.peek whole.entries key.expertId = some entry →
      entry.physicalKey.generation<key.generation)
    (hmem : ∀ slot, slot ∈ next.entries ↔ slot ∈ whole.entries ∧ slot.1 ≠ key.expertId) :
    LookupResult whole next key .miss

lemma lookupCurrentLocked_spec (h : Inv whole) (key : PhysicalExpertKey) :
    ∃ next found, whole.lookupCurrentLocked key = some (next,found) ∧ Inv next ∧
      SameInstalls whole next ∧ LookupResult whole next key found := by
  unfold System.lookupCurrentLocked
  cases hpeek : Lru.peek whole.entries key.expertId with
  | none =>
    have habsent : ∀ slot ∈ whole.entries, slot.1 ≠ key.expertId :=
      fun slot hslot heq => Lru.peek_eq_none.mp hpeek slot.2 (heq ▸ hslot)
    refine ⟨_,_,rfl,h,.refl _,.miss habsent (fun entry hentry => ?_) fun slot => ?_⟩
    · rw [hpeek] at hentry
      cases hentry
    · exact ⟨fun hslot => ⟨hslot,habsent slot hslot⟩,And.left⟩
  | some existing =>
    have hmem := Lru.peek_mem hpeek
    have hkeyed : existing.physicalKey.expertId = key.expertId := h.addressed.keyed _ hmem
    simp only [hkeyed, ne_eq, not_true_eq_false, if_false]
    split_ifs with hcurrent hstale
    · have hperm := h.addressed.distinct.perm_touch key.expertId
      have hkey : existing.physicalKey = key := by
        cases key
        cases hexisting : existing.physicalKey
        simp_all
      have htouched : (key.expertId,existing) ∈ Lru.touch whole.entries key.expertId :=
        hperm.symm.subset hmem
      exact ⟨_,_,rfl,(h.reorder hperm).share htouched,⟨rfl,rfl,rfl,rfl,rfl⟩,
        .hit hpeek hkey fun slot => hperm.mem_iff⟩
    · exact ⟨_,_,rfl,h,.refl _,.staleRequester hpeek hstale rfl⟩
    · obtain ⟨next,hretire,hinv,hsame,hentries⟩ := retireEntryLocked_spec h hpeek
      have hmem' : ∀ slot, slot ∈ next.entries ↔ slot ∈ whole.entries ∧ slot.1 ≠ key.expertId :=
        fun slot => by rw [hentries]; exact Lru.mem_pop
      refine ⟨next,.miss,?_,hinv,hsame,.miss (fun slot hslot => ((hmem' slot).mp hslot).2)
        (fun entry hentry => ?_) hmem'⟩
      · rw [hretire]
        rfl
      · obtain rfl := Option.some.inj (hpeek.symm.trans hentry)
        omega

/-- After the test of all keys no key is missing, and the touches reorder. -/
lemma touchAllCurrent_spec (h : Inv whole) (keys : List PhysicalExpertKey) :
    ∃ entries all, whole.touchAllCurrent keys = some ({ whole with entries := entries },all) ∧
      entries.Perm whole.entries := by
  unfold System.touchAllCurrent
  split_ifs with hall
  · have hkeys : ∀ key ∈ keys, ∃ entry, (key.expertId,entry) ∈ whole.entries := by
      intro key hkey
      have hcurrent := List.all_eq_true.mp hall key hkey
      unfold System.current at hcurrent
      cases hpeek : Lru.peek whole.entries key.expertId with
      | none => rw [hpeek] at hcurrent; cases hcurrent
      | some entry => exact ⟨entry,Lru.peek_mem hpeek⟩
    have htouches : ∀ (keys : List PhysicalExpertKey) (entries : List (ℕ × Entry π)),
        entries.Perm whole.entries →
        (∀ key ∈ keys, ∃ entry, (key.expertId,entry) ∈ whole.entries) →
        ∃ last, keys.foldlM (fun entries key => do
          let _ ← Lru.peek entries key.expertId
          return Lru.touch entries key.expertId) entries = some last ∧
          last.Perm whole.entries := by
      intro keys
      induction keys with
      | nil => exact fun entries hperm _ => ⟨entries,rfl,hperm⟩
      | cons key keys ih =>
        intro entries hperm hkeys
        obtain ⟨⟨entry,hentry⟩,hkeys⟩ := List.forall_mem_cons.mp hkeys
        have hdistinct : Lru.Distinct entries := (hperm.map _).nodup_iff.mpr h.addressed.distinct
        have hpeek := (Lru.peek_eq_some hdistinct).mpr (hperm.symm.subset hentry)
        rw [List.foldlM_cons, hpeek]
        exact ih _ ((hdistinct.perm_touch _).trans hperm) hkeys
    obtain ⟨last,hlast,hperm⟩ := htouches keys whole.entries (.refl _) hkeys
    rw [hlast]
    exact ⟨last,true,rfl,hperm⟩
  · exact ⟨whole.entries,false,rfl,.refl _⟩

lemma retireLogicalMiss_spec (h : Inv whole) (expertId : ℕ) :
    ∃ next, whole.retireLogicalMiss expertId = some next ∧ Inv next ∧ SameInstalls whole next ∧
      next.entries = Lru.pop whole.entries expertId := by
  unfold System.retireLogicalMiss
  split_ifs with hpeek
  · obtain ⟨stale,hpeek⟩ := Option.isSome_iff_exists.mp hpeek
    exact retireEntryLocked_spec h hpeek
  · have habsent := Option.not_isSome_iff_eq_none.mp hpeek
    exact ⟨whole,rfl,h,.refl _,(Lru.pop_of_absent (Lru.peek_eq_none.mp habsent)).symm⟩

lemma current_iff : whole.current key = true ↔
    ∃ entry, Lru.peek whole.entries key.expertId = some entry ∧ entry.physicalKey = key := by
  unfold System.current
  cases Lru.peek whole.entries key.expertId <;> simp

lemma retireKeyIfPresent_spec (h : Inv whole) (key : PhysicalExpertKey) :
    ∃ next, whole.retireKeyIfPresent key = some next ∧ Inv next ∧ SameInstalls whole next ∧
      (next.entries = if whole.current key then Lru.pop whole.entries key.expertId
        else whole.entries) := by
  unfold System.retireKeyIfPresent
  split_ifs with hcurrent
  · obtain ⟨entry,hpeek,-⟩ := current_iff.mp hcurrent
    exact retireEntryLocked_spec h hpeek
  · exact ⟨whole,rfl,h,.refl _,rfl⟩

/-- The room for an install, as the ledger counts it. -/
lemma installFits_spec {bytes : ℕ} (h : whole.installFits bytes = true) :
    whole.expertLiveBytes+whole.reservedBytes+bytes ≤ whole.expertCapacityBytes := by
  unfold System.installFits at h
  have hlive := (Bool.and_eq_true_iff.mp h).2
  cases hheld : checkedAdd u64Max whole.expertLiveBytes whole.reservedBytes with
  | none => simp [hheld] at hlive
  | some used =>
    obtain ⟨-,rfl⟩ := checkedAdd_eq_some.mp hheld
    simp only [hheld] at hlive
    cases hused : checkedAdd u64Max (whole.expertLiveBytes+whole.reservedBytes) bytes with
    | none => simp [hused] at hlive
    | some used =>
      obtain ⟨-,rfl⟩ := checkedAdd_eq_some.mp hused
      simpa [hused] using hlive

/-- Whatever is evicted and whatever other threads drop meanwhile. -/
lemma makeRoom_spec (h : Inv whole) (bytes : ℕ) {victims : List (ℕ × Entry π)}
    (hentries : whole.entries = victims.reverse) (drops : List (List ℕ)) :
    ∃ next fits, System.makeRoom bytes victims drops whole = some (next,fits) ∧ Inv next ∧
      SameInstalls whole next ∧ (∀ slot ∈ next.entries, slot ∈ whole.entries) ∧
      (fits = true → next.installFits bytes = true) := by
  induction victims generalizing whole drops with
  | nil =>
    obtain ⟨dropped,hdrop,hinv,hsame,hdropped⟩ := dropOwners_same h (drops.headD [])
    refine ⟨dropped,dropped.installFits bytes,?_,hinv,hsame,fun slot hslot => hdropped ▸ hslot,id⟩
    rw [System.makeRoom, hdrop]
    rfl
  | cons victim victims ih =>
    obtain ⟨k,victim⟩ := victim
    obtain ⟨dropped,hdrop,hinv,hsame,hdropped⟩ := dropOwners_same h (drops.headD [])
    rw [System.makeRoom, hdrop]
    cases hfits : dropped.installFits bytes with
    | true =>
      refine ⟨dropped,true,?_,hinv,hsame,fun slot hslot => hdropped ▸ hslot,fun _ => hfits⟩
      simp only [Option.bind_eq_bind, Option.bind_some, hfits, if_true]
      rfl
    | false =>
      have hmem : (k,victim) ∈ dropped.entries := by
        rw [hdropped, hentries]
        simp
      have hpop := pop_oldest hinv.addressed.distinct (hdropped.trans hentries)
      obtain ⟨live,leases,hremove,hinv'⟩ := remove_spec hinv hmem
        (saturatingAdd u64Max dropped.evictions 1) dropped.staleRetirements
      rw [hpop] at hremove hinv'
      obtain ⟨next,fits,hroom,hinv',hsame',hsub,hfits'⟩ := ih hinv' rfl drops.tail
      refine ⟨next,fits,?_,hinv',hsame.trans ⟨hsame'.1,hsame'.2,hsame'.3,hsame'.4,
        hsame'.5⟩,fun slot hslot => ?_,hfits'⟩
      · simp only [Option.bind_eq_bind, Option.bind_some, hfits, Bool.false_eq_true, if_false,
          checkedSub_of_le (hinv.addressed.bytes_le hmem)]
        rw [hremove]
        exact hroom
      · rw [hentries, List.reverse_cons]
        exact List.mem_append_left _ (hsub slot hslot)

end MicroExpertRouter.PhysicalRegistry
