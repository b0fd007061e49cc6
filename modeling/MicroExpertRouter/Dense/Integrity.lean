import MicroExpertRouter.Dense.Manifest

/-! The walk of the integrity check when it reports nothing: what each of its steps then says of the
entry, and what the whole walk says of the manifest. -/
namespace MicroExpertRouter.Dense

namespace Walk
variable {self : Walk} {entry : DenseTensorManifestEntry} {debug : String → String}
  {requireChecksums : Bool}

/-- Nothing is wrong so far. -/
def Clean (self : Walk) : Prop := self.problems = []

@[simp] lemma not_clean_report (problem : String) : ¬ (self.report problem).Clean := by
  simp [Clean, report]

lemma of_reportIf {bad : Bool} {problem : String} (h : (self.reportIf bad problem).Clean) :
    bad = false ∧ self.reportIf bad problem = self := by
  cases bad with
  | false => exact ⟨rfl,rfl⟩
  | true => exact absurd h (not_clean_report problem)

lemma of_insertName {name whenEmpty whenSeen : String}
    (h : (self.insertName name whenEmpty whenSeen).Clean) : name ∉ self.seenNames ∧
      self.insertName name whenEmpty whenSeen =
        { self with seenNames := name::self.seenNames } := by
  unfold insertName at h ⊢
  split_ifs at h ⊢ with hempty hseen
  · exact absurd h (not_clean_report _)
  · exact absurd h (not_clean_report _)
  · exact ⟨hseen,rfl⟩

/-- The walk took in these names and nothing is wrong. -/
structure Named (before walked : Walk) (names : List String) : Prop where
  clean : before.Clean
  eq : walked = { before with seenNames := names.reverse++before.seenNames }
  nodup : before.seenNames.Nodup → walked.seenNames.Nodup

lemma of_aliases (entry : DenseTensorManifestEntry) (names : List String) :
    ∀ {self : Walk}, (names.foldl (anAlias entry) self).Clean →
      self.Named (names.foldl (anAlias entry) self) names := by
  induction names with
  | nil => exact fun h => ⟨h,rfl,id⟩
  | cons name names ih =>
    intro self h
    rw [List.foldl_cons] at h ⊢
    obtain ⟨hclean,heq,hnodup⟩ := ih h
    obtain ⟨hfresh,hinsert⟩ := of_insertName hclean
    have hstep : anAlias entry self name = { self with seenNames := name::self.seenNames } := hinsert
    rw [hstep] at hclean heq hnodup ⊢
    exact ⟨hclean,by simp [heq],fun h => hnodup (List.nodup_cons.mpr ⟨hfresh,h⟩)⟩

lemma of_names (h : (entry.aliases.foldl (anAlias entry) (self.canonical entry)).Clean) :
    self.Named (entry.aliases.foldl (anAlias entry) (self.canonical entry)) entry.names := by
  obtain ⟨hclean,heq,hnodup⟩ := of_aliases entry entry.aliases h
  obtain ⟨hfresh,hinsert⟩ := of_insertName hclean
  have hstep : self.canonical entry =
      { self with seenNames := entry.canonicalName::self.seenNames } := hinsert
  rw [hstep] at hclean heq hnodup ⊢
  refine ⟨hclean,?_,fun h => hnodup (List.nodup_cons.mpr ⟨hfresh,h⟩)⟩
  simp [heq, DenseTensorManifestEntry.names]

/-- What an accepted entry says of itself. -/
def Accepted (entry : DenseTensorManifestEntry) : Prop :=
  entry.tiedTo = none → unsafeManifestFileName entry.file = none ∧
    if entry.dtype = .f32 then entry.byteLen = saturatingMul4 entry.elems
    else entry.elems%q8_0BlockElems = 0 ∧
      entry.byteLen = entry.elems/q8_0BlockElems*q8_0BlockBytes

/-- The walk took in an entry and nothing is wrong. -/
structure Stepped (before walked : Walk) (entry : DenseTensorManifestEntry) : Prop where
  clean : before.Clean
  names : walked.seenNames = entry.names.reverse++before.seenNames
  nodup : before.seenNames.Nodup → walked.seenNames.Nodup
  targets : walked.tiedTargets = before.tiedTargets++entry.tiedTo.toList.map fun t => (entry.who,t)
  accepted : Accepted entry

lemma of_tied {target : String} (h : (self.tied debug entry target).Clean) :
    self.Clean ∧ self.tied debug entry target =
      { self with tiedTargets := self.tiedTargets++[(entry.who,target)] } := by
  obtain ⟨-,hdims⟩ := of_reportIf h
  unfold tied at h ⊢
  dsimp only at h hdims ⊢
  rw [hdims] at h ⊢
  obtain ⟨-,hbytes⟩ := of_reportIf h
  rw [hbytes] at h ⊢
  obtain ⟨-,hfile⟩ := of_reportIf h
  rw [hfile] at h ⊢
  unfold Walk.target at h ⊢
  dsimp only at h ⊢
  split_ifs at h ⊢
  · exact absurd h (not_clean_report _)
  · exact ⟨h,rfl⟩

lemma of_file (h : (self.file debug entry).Clean) : unsafeManifestFileName entry.file = none ∧
    self.file debug entry = { self with seenFiles := entry.file::self.seenFiles } := by
  unfold file at h ⊢
  dsimp only at h ⊢
  cases hrefused : unsafeManifestFileName entry.file with
  | some reason =>
    rw [hrefused] at h
    exact absurd h (not_clean_report _)
  | none =>
    rw [hrefused] at h
    dsimp only at h ⊢
    split_ifs at h ⊢
    · exact absurd h (not_clean_report _)
    · exact ⟨rfl,rfl⟩

lemma of_size (h : (self.size entry).Clean) : self.size entry = self ∧
    if entry.dtype = .f32 then entry.byteLen = saturatingMul4 entry.elems
    else entry.elems%q8_0BlockElems = 0 ∧
      entry.byteLen = entry.elems/q8_0BlockElems*q8_0BlockBytes := by
  unfold size at h ⊢
  dsimp only at h ⊢
  by_cases hdims : entry.degenerate = true
  · rw [if_pos hdims] at h
    exact absurd h (not_clean_report _)
  · rw [if_neg hdims] at h ⊢
    cases hdtype : entry.dtype with
    | f32 =>
      rw [hdtype] at h
      obtain ⟨hbytes,heq⟩ := of_reportIf h
      exact ⟨heq,by simpa using hbytes⟩
    | q8_0 =>
      rw [hdtype] at h
      dsimp only at h ⊢
      by_cases hblocks : entry.elems%q8_0BlockElems = 0
      · rw [if_neg (not_not.mpr hblocks)] at h ⊢
        obtain ⟨hbytes,heq⟩ := of_reportIf h
        exact ⟨heq,hblocks,by simpa using hbytes⟩
      · rw [if_pos hblocks] at h
        exact absurd h (not_clean_report _)

/-- What one turn of the loop does when nothing is wrong after it. -/
lemma of_entry (h : (self.entry debug requireChecksums entry).Clean) :
    self.Stepped (self.entry debug requireChecksums entry) entry := by
  unfold Walk.entry at h ⊢
  dsimp only at h ⊢
  cases htied : entry.tiedTo with
  | some target =>
    rw [htied] at h
    obtain ⟨hnamed,heq⟩ := of_tied h
    obtain ⟨hclean,hnames,hnodup⟩ := of_names hnamed
    dsimp only
    rw [heq, hnames]
    rw [hnames] at hnodup
    refine ⟨hclean,rfl,hnodup,by rw [htied]; rfl,fun hnone => ?_⟩
    rw [htied] at hnone
    cases hnone
  | none =>
    rw [htied] at h
    obtain ⟨-,hchecksum⟩ := of_reportIf h
    dsimp only at h hchecksum ⊢
    rw [hchecksum] at h ⊢
    obtain ⟨hsize,hbytes⟩ := of_size h
    rw [hsize] at h ⊢
    obtain ⟨hsafe,hfile⟩ := of_file h
    rw [hfile] at h ⊢
    obtain ⟨hclean,hnames,hnodup⟩ := of_names h
    rw [hnames] at hnodup ⊢
    exact ⟨hclean,rfl,hnodup,by simp [htied],fun _ => ⟨hsafe,hbytes⟩⟩

/-- What the whole walk says when nothing is wrong at its end. -/
structure Finished (before walked : Walk) (entries : List DenseTensorManifestEntry) : Prop where
  clean : before.Clean
  names : walked.seenNames = (entries.flatMap (·.names)).reverse++before.seenNames
  nodup : before.seenNames.Nodup → walked.seenNames.Nodup
  targets : ∀ entry ∈ entries, ∀ target, entry.tiedTo = some target →
    (entry.who,target) ∈ walked.tiedTargets
  kept : before.tiedTargets ⊆ walked.tiedTargets
  accepted : ∀ entry ∈ entries, Accepted entry

lemma of_entries (entries : List DenseTensorManifestEntry) : ∀ {self : Walk},
    (entries.foldl (Walk.entry debug requireChecksums) self).Clean →
      self.Finished (entries.foldl (Walk.entry debug requireChecksums) self) entries := by
  induction entries with
  | nil => exact fun h => ⟨h,rfl,id,by simp,fun _ => id,by simp⟩
  | cons entry entries ih =>
    intro self h
    rw [List.foldl_cons] at h ⊢
    obtain ⟨hclean,hnames,hnodup,htargets,hkept,haccepted⟩ := ih h
    obtain ⟨hclean',hnames',hnodup',htargets',haccepted'⟩ := of_entry hclean
    refine ⟨hclean',by simp [hnames, hnames'],hnodup ∘ hnodup',?_,?_,?_⟩
    · intro other hmem target htied
      rcases List.mem_cons.mp hmem with rfl | hmem
      · apply hkept
        simp [htargets', htied]
      · exact htargets other hmem target htied
    · intro tie hmem
      apply hkept
      simp [htargets', hmem]
    · intro other hmem
      rcases List.mem_cons.mp hmem with rfl | hmem
      · exact haccepted'
      · exact haccepted other hmem

lemma of_resolve (ties : List (String × String)) : ∀ {self : Walk},
    (ties.foldl resolve self).Clean → self.Clean ∧ ∀ tie ∈ ties, tie.2 ∈ self.seenNames := by
  induction ties with
  | nil => exact fun h => ⟨h,by simp⟩
  | cons tie ties ih =>
    intro self h
    obtain ⟨hclean,hties⟩ := ih h
    obtain ⟨hknown,heq⟩ := of_reportIf hclean
    have hsame : self.resolve tie = self := heq
    rw [hsame] at hclean hties
    refine ⟨hclean,fun other hmem => ?_⟩
    rcases List.mem_cons.mp hmem with rfl | hmem
    · simpa using hknown
    · exact hties other hmem

end Walk

/-- What a manifest without problems says of its names and entries. -/
structure DenseTensorManifest.Passed (manifest : DenseTensorManifest) : Prop where
  nodup : (manifest.tensors.flatMap (·.names)).Nodup
  known : ∀ entry ∈ manifest.tensors, ∀ target, entry.tiedTo = some target →
    target ∈ manifest.tensors.flatMap (·.names)
  accepted : ∀ entry ∈ manifest.tensors, Walk.Accepted entry

/-- What `validate_integrity` has checked when it returns no problem. -/
theorem DenseTensorManifest.passed_of_validateIntegrity {debug : String → String}
    {manifest : DenseTensorManifest} {requireChecksums : Bool}
    (h : manifest.validateIntegrity debug requireChecksums = []) : manifest.Passed := by
  obtain ⟨hclean,hties⟩ := Walk.of_resolve _ h
  have hwalk := Walk.of_entries manifest.tensors hclean
  obtain ⟨-,hstart⟩ := Walk.of_reportIf hwalk.clean
  have hnames := hwalk.names
  have hnodup := hwalk.nodup
  have hempty : manifest.start = ⟨[],[],[],[]⟩ := hstart
  rw [hnames, hempty] at hnodup
  rw [hempty] at hnames
  simp only [List.append_nil] at hnames hnodup
  refine ⟨List.nodup_reverse.mp (hnodup List.nodup_nil),fun entry hmem target htied => ?_,
    hwalk.accepted⟩
  have hseen := hties _ (hwalk.targets entry hmem target htied)
  rw [hempty, hnames] at hseen
  exact List.mem_reverse.mp hseen

end MicroExpertRouter.Dense
