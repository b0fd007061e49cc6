import MicroExpertRouter.PhysicalRegistry.Registry

/-! What each operation of the registry, whenever it returns, does to the addressable entries. -/
namespace MicroExpertRouter.PhysicalRegistry
variable {π : Type} {whole next : System π} {serial : ℕ} {key : PhysicalExpertKey}
  {permit : PhysicalInstallPermit}

/-- Each entry stands once, under its own expert. -/
structure Keyed (entries : List (ℕ × Entry π)) : Prop where
  distinct : Lru.Distinct entries
  expert : ∀ slot ∈ entries, slot.2.physicalKey.expertId = slot.1

lemma Keyed.subperm {entries rest : List (ℕ × Entry π)} (h : Keyed entries)
    (hrest : rest.Subperm entries) : Keyed rest where
  distinct := by
    obtain ⟨middle,hperm,hsub⟩ := hrest
    exact (hperm.map _).nodup_iff.mp (List.Nodup.sublist (hsub.map _) h.distinct)
  expert := fun slot hslot => h.expert slot (hrest.subset hslot)

section Drops

lemma dropLease_entries (h : whole.dropLease serial = some next) :
    next.entries = whole.entries := by
  unfold System.dropLease at h
  split at h
  · cases h
    rfl
  · obtain ⟨live,-,h⟩ := Option.bind_eq_some_iff.mp h
    cases h
    rfl

lemma dropArc_entries (h : whole.dropArc serial = some next) : next.entries = whole.entries := by
  unfold System.dropArc at h
  split_ifs at h
  · cases h
    rfl
  · exact dropLease_entries h

lemma dropHandle_entries (h : whole.dropHandle serial = some next) :
    next.entries = whole.entries := by
  unfold System.dropHandle at h
  split at h
  · cases h
    rfl
  · have hdrop := dropArc_entries h
    exact hdrop

lemma dropBuilt_entries (h : whole.dropBuilt serial = some next) :
    next.entries = whole.entries := by
  unfold System.dropBuilt at h
  split_ifs at h
  · have hdrop := dropLease_entries h
    exact hdrop
  · cases h
    rfl

lemma dropOwners_entries {serials : List ℕ} (h : whole.dropOwners serials = some next) :
    next.entries = whole.entries := by
  induction serials generalizing whole with
  | nil =>
    cases h
    rfl
  | cons serial serials ih =>
    rw [System.dropOwners, List.foldlM_cons] at h
    obtain ⟨middle,hdrop,h⟩ := Option.bind_eq_some_iff.mp h
    obtain ⟨handle,hhandle,hbuilt⟩ := Option.bind_eq_some_iff.mp hdrop
    rw [ih h, dropBuilt_entries hbuilt, dropHandle_entries hhandle]

lemma dropPermit_entries (h : whole.dropPermit permit = some next) :
    next.entries = whole.entries := by
  unfold System.dropPermit at h
  dsimp only at h
  split at h
  · cases h
    rfl
  · split_ifs at h
    · cases h
      rfl
    · obtain ⟨reserved,-,h⟩ := Option.bind_eq_some_iff.mp h
      cases h
      rfl

end Drops

section Retirements

lemma retireEntryLocked_entries {expertId : ℕ}
    (h : whole.retireEntryLocked expertId = some next) :
    next.entries = Lru.pop whole.entries expertId := by
  obtain ⟨stale,-,h⟩ := Option.bind_eq_some_iff.mp h
  obtain ⟨registryBytes,-,h⟩ := Option.bind_eq_some_iff.mp h
  exact dropArc_entries h

lemma retireLogicalMiss_entries {expertId : ℕ}
    (h : whole.retireLogicalMiss expertId = some next) : next.entries.Subperm whole.entries := by
  unfold System.retireLogicalMiss at h
  split_ifs at h
  · rw [retireEntryLocked_entries h]
    exact List.filter_sublist.subperm
  · cases h
    exact .refl _

/-- The key is gone, and any other entry stays. -/
lemma retireKeyIfPresent_entries (hkeyed : Keyed whole.entries)
    (h : whole.retireKeyIfPresent key = some next) :
    next.entries.Subperm whole.entries ∧
      (∀ slot ∈ next.entries, slot.2.physicalKey ≠ key) ∧
      ∀ slot ∈ whole.entries, slot.2.physicalKey ≠ key → slot ∈ next.entries := by
  have hpeek : ∀ slot ∈ whole.entries, slot.2.physicalKey = key →
      Lru.peek whole.entries key.expertId = some slot.2 := by
    rintro slot hslot rfl
    refine (Lru.peek_eq_some hkeyed.distinct).mpr ?_
    rw [hkeyed.expert slot hslot]
    exact hslot
  unfold System.retireKeyIfPresent System.current at h
  split_ifs at h with hcurrent
  · rw [retireEntryLocked_entries h]
    refine ⟨List.filter_sublist.subperm,fun slot hslot heq => ?_,fun slot hslot hne => ?_⟩
    · obtain ⟨hslot,hid⟩ := Lru.mem_pop.mp hslot
      exact hid (by rw [← hkeyed.expert slot hslot, heq])
    · refine Lru.mem_pop.mpr ⟨hslot,fun hid => hne ?_⟩
      have hslot : (key.expertId,slot.2) ∈ whole.entries := hid ▸ hslot
      rw [(Lru.peek_eq_some hkeyed.distinct).mpr hslot] at hcurrent
      exact of_decide_eq_true hcurrent
  · cases h
    refine ⟨.refl _,fun slot hslot heq => hcurrent ?_,fun slot hslot _ => hslot⟩
    rw [hpeek slot hslot heq]
    exact decide_eq_true heq

end Retirements

section Requests

/-- The hit of a lookup has exactly the key. -/
inductive Finds (whole : System π) (key : PhysicalExpertKey) : PhysicalRegistryLookup π → Prop
  | hit {entry : Entry π} (hkey : entry.physicalKey = key)
    (hmem : (key.expertId,entry) ∈ whole.entries) : Finds whole key (.hit entry)
  | miss : Finds whole key .miss
  | staleRequester : Finds whole key .staleRequester

/-- A lookup only removes. -/
lemma lookupCurrentLocked_entries (hkeyed : Keyed whole.entries)
    {found : PhysicalRegistryLookup π} (h : whole.lookupCurrentLocked key = some (next,found)) :
    next.entries.Subperm whole.entries ∧ Finds whole key found := by
  unfold System.lookupCurrentLocked at h
  split at h
  · cases h
    exact ⟨.refl _,.miss⟩
  · rename_i existing hpeek
    split_ifs at h with hexpert hgeneration hstale
    · cases h
      refine ⟨(hkeyed.distinct.perm_touch _).subperm,.hit ?_ (Lru.peek_mem hpeek)⟩
      cases key
      cases hexisting : existing.physicalKey
      simp_all
    · cases h
      exact ⟨.refl _,.staleRequester⟩
    · obtain ⟨retired,hretire,h⟩ := Option.bind_eq_some_iff.mp h
      cases h
      rw [retireEntryLocked_entries hretire]
      exact ⟨List.filter_sublist.subperm,.miss⟩

lemma makeRoom_entries {bytes : ℕ} {victims : List (ℕ × Entry π)} {drops : List (List ℕ)}
    {fits : Bool} (hentries : whole.entries = victims.reverse)
    (h : System.makeRoom bytes victims drops whole = some (next,fits)) :
    next.entries.Subperm whole.entries := by
  induction victims generalizing whole drops with
  | nil =>
    obtain ⟨dropped,hdrop,h⟩ := Option.bind_eq_some_iff.mp h
    cases h
    rw [dropOwners_entries hdrop]
  | cons victim victims ih =>
    obtain ⟨dropped,hdrop,h⟩ := Option.bind_eq_some_iff.mp h
    have hdropped := dropOwners_entries hdrop
    split_ifs at h
    · cases h
      rw [hdropped]
    · obtain ⟨registryBytes,-,h⟩ := Option.bind_eq_some_iff.mp h
      obtain ⟨evicted,harc,h⟩ := Option.bind_eq_some_iff.mp h
      have hevicted : evicted.entries = victims.reverse := dropArc_entries harc
      have hsub := ih hevicted h
      rw [hentries, List.reverse_cons]
      rw [hevicted] at hsub
      exact hsub.trans (List.sublist_append_left _ _).subperm

/-- A hit and a permit are for exactly the key. -/
inductive Acquires (whole : System π) (key : PhysicalExpertKey) :
    Except PhysicalCapacityError (PhysicalRegistryAcquire π) → Prop
  | error (e : PhysicalCapacityError) : Acquires whole key (.error e)
  | hit {entry : Entry π} (hkey : entry.physicalKey = key)
    (hmem : (key.expertId,entry) ∈ whole.entries) : Acquires whole key (.ok (.hit entry))
  | install {permit : PhysicalInstallPermit} (hkey : permit.key = key) :
    Acquires whole key (.ok (.install permit))
  | staleRequester : Acquires whole key (.ok .staleRequester)
  | waits : Acquires whole key (.ok .waits)

lemma acquireOrReserve_entries (hkeyed : Keyed whole.entries) {bytes : ℕ} {drops : List (List ℕ)}
    {result : Except PhysicalCapacityError (PhysicalRegistryAcquire π)}
    (h : whole.acquireOrReserve key bytes drops = some (next,result)) :
    next.entries.Subperm whole.entries ∧ Acquires whole key result := by
  unfold System.acquireOrReserve at h
  split_ifs at h
  · cases h
    exact ⟨.refl _,.error _⟩
  · obtain ⟨⟨looked,found⟩,hlookup,h⟩ := Option.bind_eq_some_iff.mp h
    obtain ⟨hsub,hfinds⟩ := lookupCurrentLocked_entries hkeyed hlookup
    cases hfinds with
    | hit hkey hmem =>
      cases h
      exact ⟨hsub,.hit hkey hmem⟩
    | staleRequester =>
      cases h
      exact ⟨hsub,.staleRequester⟩
    | miss =>
      dsimp only at h
      split_ifs at h
      · cases h
        exact ⟨hsub,.waits⟩
      · obtain ⟨⟨room,fits⟩,hroom,h⟩ := Option.bind_eq_some_iff.mp h
        have hroom := makeRoom_entries (List.reverse_reverse _).symm hroom
        dsimp only at h
        split_ifs at h
        · obtain ⟨⟨reserved,permit⟩,hreserve,h⟩ := Option.bind_eq_some_iff.mp h
          obtain ⟨reservedBytes,-,hreserve⟩ := Option.bind_eq_some_iff.mp hreserve
          split_ifs at hreserve
          cases hreserve
          cases h
          exact ⟨hroom.trans hsub,.install rfl⟩
        · cases h
          exact ⟨hroom.trans hsub,.error _⟩

lemma chargeAllocation_entries (whole : System π) (permit : PhysicalInstallPermit) :
    (whole.chargeAllocation permit).1.entries = whole.entries := by
  unfold System.chargeAllocation
  split_ifs
  · rfl
  · split
    · rfl
    · split_ifs
      · rfl
      · split
        · rfl
        · split
          · rfl
          · rfl

/-- A failed install leaves the entries; another one adds its entry, for the expert of its permit. -/
lemma install_entries {entry : Entry π} {result : Except String (Entry π)}
    (h : whole.install permit entry = some (next,result)) :
    (∃ e, result = .error e ∧ next.entries = whole.entries) ∨
      result = .ok entry ∧ entry.physicalKey = permit.key ∧
        next.entries = Lru.put whole.entries permit.key.expertId entry := by
  unfold System.install at h
  split at h
  · obtain ⟨dropped,hbuilt,h⟩ := Option.bind_eq_some_iff.mp h
    obtain ⟨cancelled,hpermit,h⟩ := Option.bind_eq_some_iff.mp h
    cases h
    refine .inl ⟨_,rfl,?_⟩
    rw [dropPermit_entries hpermit, dropBuilt_entries hbuilt]
  · rename_i newRegistryBytes hcheck
    cases h
    refine .inr ⟨rfl,?_,rfl⟩
    unfold System.checkInstall at hcheck
    split_ifs at hcheck with hcharged hentry
    all_goals exact not_not.mp (not_or.mp hentry).1

end Requests

end MicroExpertRouter.PhysicalRegistry
