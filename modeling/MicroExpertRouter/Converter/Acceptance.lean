import MicroExpertRouter.Converter.Directory

/-! The check of the directory accepts what the converter wrote, with the histogram of its headers. -/
namespace MicroExpertRouter.Converter
open Quant (WeightDtype)
open Storage (TensorHeader MixedExpertHeader uthBytes uth2Bytes)

section Keys

lemma fromStrOpt_asStr (dtype : WeightDtype) : fromStrOpt dtype.asStr.toList = some dtype := by
  cases dtype <;> decide +kernel

/-- The label of a dtype in lower case. -/
def lowerLabel (dtype : WeightDtype) : List Char := (dtypeLabel dtype).toList.map Char.toLower

lemma fromStrOpt_label {dtype : WeightDtype} (h : fromStrOpt (lowerLabel dtype) = some .q4_0) :
    dtype = .q4_0 := by
  cases dtype
  case q4_0 => rfl
  all_goals exact absurd h (by decide +kernel)

lemma slash_notMem (dtype : WeightDtype) : '/' ∉ lowerLabel dtype := by
  cases dtype <;> decide +kernel

lemma layoutKey_eq (gate up down : WeightDtype) : layoutKey gate up down =
    List.intercalate ['/'] [lowerLabel gate,lowerLabel up,lowerLabel down] := by
  unfold layoutKey lowerLabel
  simp [List.intercalate, List.intersperse]

lemma splitOn_layoutKey (gate up down : WeightDtype) : (layoutKey gate up down).splitOn '/' =
    [lowerLabel gate,lowerLabel up,lowerLabel down] := by
  rw [layoutKey_eq]
  apply List.splitOn_intercalate
  · simp [slash_notMem]
  · simp

lemma mem_bump {key : List Char} {histogram : Histogram} {entry : List Char × ℕ}
    (h : entry ∈ bump key histogram) : entry.1 = key ∨ ∃ old ∈ histogram, old.1 = entry.1 := by
  induction histogram with
  | nil =>
    obtain rfl := List.mem_singleton.mp h
    exact .inl rfl
  | cons first rest ih =>
    unfold bump at h
    split_ifs at h with heq hlt
    · obtain rfl | h := List.mem_cons.mp h
      · exact .inl heq.symm
      · exact .inr ⟨entry,List.mem_cons_of_mem _ h,rfl⟩
    · obtain rfl | h := List.mem_cons.mp h
      · exact .inl rfl
      · exact .inr ⟨entry,h,rfl⟩
    · obtain rfl | h := List.mem_cons.mp h
      · exact .inr ⟨_,List.mem_cons_self,rfl⟩
      · obtain hkey | ⟨old,hold,hsame⟩ := ih h
        · exact .inl hkey
        · exact .inr ⟨old,List.mem_cons_of_mem _ hold,hsame⟩

/-- A histogram counts nothing but the keys. -/
lemma mem_tally {keys : List (List Char)} {entry : List Char × ℕ} (h : entry ∈ tally keys) :
    entry.1 ∈ keys := by
  induction keys using List.reverseRecOn generalizing entry with
  | nil => cases h
  | append_singleton keys key ih =>
    rw [tally, List.foldl_append] at h
    obtain hkey | ⟨old,hold,hsame⟩ := mem_bump h
    · simp [hkey]
    · rw [← hsame]
      exact List.mem_append_left _ (ih hold)

/-- The histogram names Q4_0 only if a projection has that dtype. -/
lemma contains_of_uses {layouts : List ProjectionQuantLayout} {slot expertSize : ℕ}
    {histogram : Histogram}
    (h : metadataUsesQ4_0 .mixed (some (tally (layouts.map (·.key)))) = true) :
    (NativeQuantPlan.mixed layouts slot expertSize histogram).containsQ4_0 = true := by
  have hany : ((tally (layouts.map (·.key))).any fun entry =>
      (entry.1.splitOn '/').any fun projection => fromStrOpt projection = some .q4_0) = true := by
    simpa [metadataUsesQ4_0] using h
  obtain ⟨entry,hentry,hsplit⟩ := List.any_eq_true.mp hany
  obtain ⟨layout,hlayout,hkey⟩ := List.mem_map.mp (mem_tally hentry)
  rw [← hkey, ProjectionQuantLayout.key, splitOn_layoutKey] at hsplit
  obtain ⟨label,hlabel,hq4⟩ := List.any_eq_true.mp hsplit
  have hq4 := of_decide_eq_true hq4
  refine List.any_eq_true.mpr ⟨layout,hlayout,?_⟩
  simp only [List.mem_cons, List.not_mem_nil, or_false] at hlabel
  obtain rfl | rfl | rfl := hlabel
  · simp [fromStrOpt_label hq4]
  · simp [fromStrOpt_label hq4]
  · simp [fromStrOpt_label hq4]

end Keys

section Heads
variable {geometry : Geometry} {plan : Option NativeQuantPlan} {id total written : ℕ}
  {writes : List Write} {file : List UInt8}

/-- The first bytes of a file begin with its header. -/
lemma take_of_prefix {header : List UInt8} (n : ℕ) (h : header <+: file) (hn : header.length ≤ n) :
    ∃ rest, file.take n = header++rest := by
  obtain ⟨rest,rfl⟩ := h
  refine ⟨rest.take (n-header.length),?_⟩
  rw [List.take_append, List.take_of_length_le hn]

lemma payloadSize_uniform (h : metadataDtype plan ≠ .mixed) : payloadSize geometry plan =
    alignUp (expertWeightBytesFor geometry.dModel geometry.dFf (metadataDtype plan))
      defaultBlockAlign := by
  cases plan with
  | none => rfl
  | some native =>
    cases native with
    | homogeneous dtype => rfl
    | mixed layouts slot expertSize histogram => exact absurd rfl h

/-- The metadata of a directory. -/
def writtenMetadata (geometry : Geometry) (plan : Option NativeQuantPlan) (total written : ℕ) :
    Metadata :=
  metadataOf geometry plan total (payloadSize geometry plan+defaultBlockAlign) written

/-- A header lies in the bytes that are read of a file. -/
lemma head_of_header {header : List UInt8} (h : header <+: file)
    (hheader : header.length ≤ max uth2Bytes uthBytes) : ∃ rest, file.take
      (min (writtenMetadata geometry plan total written).expertSize (max uth2Bytes uthBytes)) =
        header++rest := by
  apply take_of_prefix _ h
  apply le_min _ hheader
  change _ ≤ payloadSize geometry plan+defaultBlockAlign
  exact (hheader.trans (by decide : _ ≤ defaultBlockAlign)).trans (Nat.le_add_left _ _)

lemma checkedSub_expertSize : checkedSub (writtenMetadata geometry plan total written).expertSize
    defaultBlockAlign = some (payloadSize geometry plan) := by
  change checkedSub (payloadSize geometry plan+defaultBlockAlign) defaultBlockAlign = _
  rw [checkedSub_of_le (Nat.le_add_left _ _), Nat.add_sub_cancel]

/-- A file of one dtype passes, and counts for nothing. -/
lemma validateExpert_uniform (hdtype : metadataDtype plan ≠ .mixed)
    (hread : readFile writes (expertName id) = some file)
    (hlength : file.length = (writtenMetadata geometry plan total written).expertSize)
    (hhead : (forSwigluExpert (metadataDtype plan) geometry.dModel geometry.dFf).toBytes <+: file)
    (observed : Observed) :
    validateExpert writes (writtenMetadata geometry plan total written) (metadataDtype plan) observed
      id = .ok observed := by
  obtain ⟨rest,hrest⟩ := @head_of_header geometry plan total written file _ hhead (by
    rw [TensorHeader.length_toBytes]
    exact le_max_right _ _)
  have hflag := @forSwigluExpert_flag (metadataDtype plan) geometry.dModel geometry.dFf
  have hprefix : tensorHeaderPrefixLen uthBytes
      (forSwigluExpert (metadataDtype plan) geometry.dModel geometry.dFf).flags
        (writtenMetadata geometry plan total written).blockAlign = defaultBlockAlign := by
    change tensorHeaderPrefixLen uthBytes Storage.uthFlagPageAlignedPayload defaultBlockAlign = _
    decide
  have hsame : Quant.toWeight
      (forSwigluExpert (metadataDtype plan) geometry.dModel geometry.dFf).dtype = metadataDtype plan :=
    toWeight_fromWeight _
  have hroom : ¬ payloadSize geometry plan<alignUp (expertWeightBytesFor
      (writtenMetadata geometry plan total written).dModel
      (writtenMetadata geometry plan total written).dFf (metadataDtype plan))
      (writtenMetadata geometry plan total written).blockAlign :=
    Nat.not_lt.mpr (payloadSize_uniform hdtype).ge
  unfold validateExpert
  dsimp only
  rw [hread]
  dsimp only
  rw [if_neg (not_not.mpr hlength), if_neg hdtype, hrest]
  unfold validateUniformHead
  dsimp only
  rw [TensorHeader.probe_toBytes forSwigluExpert_supported rest]
  dsimp only
  rw [if_neg (not_not.mpr hsame), hprefix, checkedSub_expertSize]
  dsimp only
  rw [validatePayloadLen, if_neg hroom]
  rfl

/-- A mixed file passes, and counts for its layout. -/
lemma validateExpert_mixed {layouts : List ProjectionQuantLayout} {slot expertSize : ℕ}
    {histogram : Histogram} {layout : ProjectionQuantLayout} {matrices : Matrices UInt8}
    (hplan : plan = some (.mixed layouts slot expertSize histogram))
    (hfits : Fits geometry.dModel geometry.dFf) (hplaced : Placed matrices slot)
    (hread : readFile writes (expertName id) = some file)
    (hlength : file.length = (writtenMetadata geometry plan total written).expertSize)
    (hhead : (mixedHeader geometry.dModel geometry.dFf layout matrices).toBytes <+: file)
    (observed : Observed) :
    validateExpert writes (writtenMetadata geometry plan total written) .mixed observed id =
      .ok ⟨observed.mixed+1,bump layout.key observed.hist⟩ := by
  obtain ⟨rest,hrest⟩ := @head_of_header geometry plan total written file _ hhead (by
    rw [MixedExpertHeader.length_toBytes]
    exact le_max_left _ _)
  have hdims : ¬ ((mixedHeader geometry.dModel geometry.dFf layout matrices).dModel.toNat ≠
      (writtenMetadata geometry plan total written).dModel ∨
        (mixedHeader geometry.dModel geometry.dFf layout matrices).dFf.toNat ≠
          (writtenMetadata geometry plan total written).dFf) := by
    rw [not_or, not_not, not_not]
    exact ⟨toNat_ofNat32_of_lt hfits.dModel_lt,toNat_ofNat32_of_lt hfits.dFf_lt⟩
  have hprefix : tensorHeaderPrefixLen uth2Bytes
      (mixedHeader geometry.dModel geometry.dFf layout matrices).flags
        (writtenMetadata geometry plan total written).blockAlign = defaultBlockAlign := by
    change tensorHeaderPrefixLen uth2Bytes Storage.uthFlagPageAlignedPayload defaultBlockAlign = _
    decide
  have hslot : payloadSize geometry plan = slot := by
    rw [hplan]
    rfl
  have hvalid := @validate_mixedHeader geometry.dModel geometry.dFf slot layout matrices hfits hplaced
  have hkey : layoutKey (Quant.toWeight
        (mixedHeader geometry.dModel geometry.dFf layout matrices).gate.dtype)
      (Quant.toWeight (mixedHeader geometry.dModel geometry.dFf layout matrices).up.dtype)
      (Quant.toWeight (mixedHeader geometry.dModel geometry.dFf layout matrices).down.dtype) =
        layout.key := by
    change layoutKey (Quant.toWeight (fromWeight layout.gate.dtype))
      (Quant.toWeight (fromWeight layout.up.dtype)) (Quant.toWeight (fromWeight layout.down.dtype)) = _
    rw [toWeight_fromWeight, toWeight_fromWeight, toWeight_fromWeight]
    rfl
  unfold validateExpert
  dsimp only
  rw [hread]
  dsimp only
  rw [if_neg (not_not.mpr hlength), if_pos rfl, hrest]
  unfold validateMixedHead
  rw [MixedExpertHeader.probe_toBytes rfl rest]
  dsimp only
  rw [if_neg hdims, hprefix, checkedSub_expertSize, hslot]
  dsimp only
  rw [hvalid, hkey]

end Heads

/-- The headers are counted as the layouts are. -/
lemma foldl_observed (keys : List (List Char)) (observed : Observed) :
    keys.foldl (fun s key => Observed.mk (s.mixed+1) (bump key s.hist)) observed =
      ⟨observed.mixed+keys.length,keys.foldl (fun hist key => bump key hist) observed.hist⟩ := by
  induction keys generalizing observed with
  | nil => rfl
  | cons key keys ih =>
    rw [List.foldl_cons, ih, List.length_cons, List.foldl_cons, Nat.add_assoc, Nat.add_comm 1]

lemma map_getD_range (keys : List (List Char)) :
    (List.range keys.length).map (fun id => keys.getD id []) = keys := by
  apply List.ext_getElem?
  intro id
  obtain hid | hid := Nat.lt_or_ge id keys.length
  · rw [Chunks.getElem?_map_range _ hid, List.getElem?_eq_getElem hid,
      List.getD_eq_getElem _ _ hid]
  · rw [List.getElem?_eq_none (by simpa using hid), List.getElem?_eq_none hid]

end MicroExpertRouter.Converter
