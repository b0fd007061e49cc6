import MicroExpertRouter.Converter.Acceptance

/-! What the converter writes is what the engine reads: one file for each expert, in which the decoders
find the weights of the expert of the source, and a directory that passes its check. -/
namespace MicroExpertRouter.Converter
open Quant (WeightDtype)

variable {dequantize : Dequantize} {gguf : GgufSource} {geometry : Geometry} {native : Bool}
  {plan : Option NativeQuantPlan}

section Plan

lemma homogeneous_ne_mixed {layouts : List ProjectionQuantLayout} {dtype : WeightDtype}
    (h : homogeneousDtype layouts = some dtype) : dtype ≠ .mixed := by
  obtain ⟨first,hfirst,-⟩ := Option.bind_eq_some_iff.mp h
  have hspec := spec_of_homogeneous h (List.mem_of_head? hfirst)
    (by simp [ProjectionQuantLayout.specs] : first.gate ∈ first.specs)
  have hblock := first.gate.block_eq
  rw [hspec.1] at hblock
  rintro rfl
  cases hblock

lemma payloadSize_mod (h : Planned gguf geometry native plan) :
    payloadSize geometry plan % defaultBlockAlign = 0 := by
  cases h with
  | floats => exact alignUp_mod (by decide) _
  | homogeneous hlayouts hdtype => exact alignUp_mod (by decide) _
  | mixed hlayouts hpayloads => exact alignUp_mod (by decide) _

lemma marker_ok {requiresQ4_0 : Bool} {marker : Option String} {path : String}
    (h : requiresQ4_0 = true → marker = some q4_0LayoutStandardV1) :
    validateQ4_0LayoutMarker requiresQ4_0 marker path = .ok () := by
  unfold validateQ4_0LayoutMarker
  cases requiresQ4_0 with
  | false => rfl
  | true => rw [if_neg (by decide), if_pos (h rfl)]

/-- The marker is there when the metadata names Q4_0. -/
lemma marker_of_uses (hplanned : Planned gguf geometry native plan)
    (h : metadataUsesQ4_0 (metadataDtype plan) (plan.bind NativeQuantPlan.metadataHistogram) = true) :
    (plan.filter NativeQuantPlan.containsQ4_0).map (fun _ => q4_0LayoutStandardV1) =
      some q4_0LayoutStandardV1 := by
  cases hplanned with
  | floats => exact absurd h (by decide)
  | homogeneous hlayouts hdtype =>
    rename_i layouts dtype
    have hmixed := homogeneous_ne_mixed hdtype
    have hq4 : dtype = .q4_0 := by
      obtain h | h := Bool.or_eq_true_iff.mp h
      · exact of_decide_eq_true h
      · exact absurd (of_decide_eq_true (Bool.and_eq_true_iff.mp h).1) hmixed
    rw [hq4]
    rfl
  | mixed hlayouts hpayloads => simp [Option.filter, contains_of_uses h]

end Plan

section Check
variable {experts dense : List Write}

lemma validateMetadata_ok (hplanned : Planned gguf geometry native plan) {total : ℕ} :
    validateMetadata (writtenMetadata geometry plan total total) (metadataDtype plan) = .ok () := by
  have hmarker := @marker_ok (metadataUsesQ4_0 (metadataDtype plan)
    (plan.bind NativeQuantPlan.metadataHistogram)) _ "metadata.json" (marker_of_uses hplanned)
  refine bind_eq_ok.mpr ⟨(),hmarker,?_⟩
  have halign : ¬ ((writtenMetadata geometry plan total total).blockAlign = 0 ∨
      ¬ (writtenMetadata geometry plan total total).blockAlign.isPowerOfTwo) := by
    rw [not_or, not_not]
    exact ⟨by change defaultBlockAlign ≠ 0; decide,12,rfl⟩
  have hsize : ¬ ((writtenMetadata geometry plan total total).expertSize = 0 ∨
      (writtenMetadata geometry plan total total).expertSize %
        (writtenMetadata geometry plan total total).blockAlign ≠ 0) := by
    change ¬ (payloadSize geometry plan+defaultBlockAlign = 0 ∨
      (payloadSize geometry plan+defaultBlockAlign) % defaultBlockAlign ≠ 0)
    rw [Nat.add_mod_right, payloadSize_mod hplanned]
    simp [defaultBlockAlign]
  have hwritten : ¬ ((writtenMetadata geometry plan total total).expertsWritten.any
      (· ≠ (writtenMetadata geometry plan total total).numExperts)) = true := by
    simp [writtenMetadata, metadataOf]
  have hversion : ¬ (metadataDtype plan = .mixed ∧
      (writtenMetadata geometry plan total total).expertLayoutVersion ≠ some 2) := by
    rintro ⟨hmixed,hversion⟩
    cases hplanned with
    | floats => cases hmixed
    | homogeneous hlayouts hdtype => exact homogeneous_ne_mixed hdtype hmixed
    | mixed hlayouts hpayloads => exact hversion rfl
  rw [if_neg halign, if_neg hsize, if_neg hwritten, if_neg hversion]

/-- The writes of all experts have their size. -/
lemma ExpertFiles.sizes {expertSize : ℕ}
    (h : ExpertFiles dequantize gguf geometry native plan expertSize experts) :
    ∀ write ∈ experts, write.2.length = expertSize := by
  intro write hmem
  obtain ⟨id,hget⟩ := List.mem_iff_getElem?.mp hmem
  obtain ⟨layer,hlayer,expert,hexpert,rfl⟩ := Chunks.exists_place
    (h.length ▸ (List.getElem?_eq_some_iff.mp hget).1)
  obtain ⟨file,hfile,slices,-,hreadable⟩ := h.file layer hlayer expert hexpert
  rw [Option.some.inj (hget.symm.trans hfile)]
  exact hreadable.length

/-- Every id has a file with a header of its expert. -/
lemma ExpertFiles.head {expertSize id : ℕ}
    (h : ExpertFiles dequantize gguf geometry native plan expertSize experts)
    (hdense : ∀ write ∈ dense, Other write) (hid : id<geometry.numLayers*geometry.numExperts) :
    ∃ file, readFile (experts++dense) (expertName id) = some file ∧ file.length = expertSize ∧
      Head geometry id file plan := by
  obtain ⟨layer,hlayer,expert,hexpert,rfl⟩ := Chunks.exists_place hid
  obtain ⟨file,hfile,slices,-,hreadable⟩ := h.file layer hlayer expert hexpert
  exact ⟨file,h.read hdense hfile,hreadable.length,hreadable.head⟩

/-- A directory of one dtype passes. -/
lemma validate_uniform (hplanned : Planned gguf geometry native plan)
    (hdtype : metadataDtype plan ≠ .mixed)
    (h : ExpertFiles dequantize gguf geometry native plan (payloadSize geometry plan+defaultBlockAlign)
      experts) (hdense : ∀ write ∈ dense, Other write) :
    ∃ report, validateDataDir (experts++dense) (writtenMetadata geometry plan
      (geometry.numLayers*geometry.numExperts) (geometry.numLayers*geometry.numExperts)) =
        .ok report := by
  have hturn : ∀ id ∈ List.range (geometry.numLayers*geometry.numExperts), ∀ observed,
      validateExpert (experts++dense) (writtenMetadata geometry plan
        (geometry.numLayers*geometry.numExperts) (geometry.numLayers*geometry.numExperts))
          (metadataDtype plan) observed id = .ok observed := by
    intro id hid observed
    obtain ⟨file,hread,hlength,hhead⟩ := h.head hdense (List.mem_range.mp hid)
    cases hhead with
    | uniform hdtype hfile => exact validateExpert_uniform hdtype hread hlength hfile observed
    | mixed hlayout hplaced hfile => exact absurd rfl hdtype
  unfold validateDataDir
  rw [show (writtenMetadata geometry plan (geometry.numLayers*geometry.numExperts)
    (geometry.numLayers*geometry.numExperts)).dtype = (metadataDtype plan).asStr from rfl,
    fromStrOpt_asStr]
  dsimp only
  refine ⟨_,bind_eq_ok.mpr ⟨(),validateMetadata_ok hplanned,bind_eq_ok.mpr ⟨_,foldlM_ok hturn _,
    bind_eq_ok.mpr ⟨(),?_,rfl⟩⟩⟩⟩
  unfold validateHistogram
  rw [if_neg hdtype, if_neg fun hmixed => hdtype hmixed.1]

/-- A mixed directory passes, with the histogram of its headers. -/
lemma validate_mixed {layouts : List ProjectionQuantLayout} {payloads : List ℕ} {planned : ℕ}
    (hfits : Fits geometry.dModel geometry.dFf)
    (hplan : plan = some (.mixed layouts (alignUp (payloads.foldl max 0) defaultBlockAlign) planned
      (tally (layouts.map (·.key)))))
    (hplanned : Planned gguf geometry native plan)
    (hlength : layouts.length = geometry.numLayers*geometry.numExperts)
    (h : ExpertFiles dequantize gguf geometry native plan (payloadSize geometry plan+defaultBlockAlign)
      experts) (hdense : ∀ write ∈ dense, Other write) :
    ∃ report, validateDataDir (experts++dense) (writtenMetadata geometry plan
      (geometry.numLayers*geometry.numExperts) (geometry.numLayers*geometry.numExperts)) =
        .ok report := by
  have hdtype : metadataDtype plan = .mixed := by
    rw [hplan]
    rfl
  have hturn : ∀ id ∈ List.range (geometry.numLayers*geometry.numExperts), ∀ observed,
      validateExpert (experts++dense) (writtenMetadata geometry plan
        (geometry.numLayers*geometry.numExperts) (geometry.numLayers*geometry.numExperts)) .mixed
          observed id = .ok ⟨observed.mixed+1,
            bump ((layouts.map (·.key)).getD id []) observed.hist⟩ := by
    intro id hid observed
    obtain ⟨file,hread,hlength,hhead⟩ := h.head hdense (List.mem_range.mp hid)
    rw [hplan] at hhead
    cases hhead with
    | uniform hdtype hfile => exact absurd rfl hdtype
    | mixed hlayout hplaced hfile =>
      rename_i layout matrices
      have hkey : (layouts.map (·.key)).getD id [] = layout.key := by
        rw [List.getD_eq_getElem?_getD, List.getElem?_map, hlayout]
        rfl
      rw [hkey]
      exact validateExpert_mixed hplan hfits hplaced hread hlength hfile observed
  have hfold : (List.range (geometry.numLayers*geometry.numExperts)).foldl
      (fun observed id => Observed.mk (observed.mixed+1)
        (bump ((layouts.map (·.key)).getD id []) observed.hist)) ⟨0,[]⟩ =
      ⟨0+(layouts.map (·.key)).length,tally (layouts.map (·.key))⟩ := by
    have hkeys := map_getD_range (layouts.map (·.key))
    rw [List.length_map, hlength] at hkeys
    have hobserved := foldl_observed (layouts.map (·.key)) ⟨0,[]⟩
    rw [← hkeys, List.foldl_map, hkeys] at hobserved
    exact hobserved
  unfold validateDataDir
  rw [show (writtenMetadata geometry plan (geometry.numLayers*geometry.numExperts)
    (geometry.numLayers*geometry.numExperts)).dtype = (metadataDtype plan).asStr from rfl,
    fromStrOpt_asStr, hdtype]
  dsimp only
  have hmetadata := @validateMetadata_ok _ _ _ _ hplanned (geometry.numLayers*geometry.numExperts)
  rw [hdtype] at hmetadata
  refine ⟨_,bind_eq_ok.mpr ⟨(),hmetadata,bind_eq_ok.mpr ⟨_,foldlM_ok hturn _,
    bind_eq_ok.mpr ⟨(),?_,rfl⟩⟩⟩⟩
  have hhistogram : (writtenMetadata geometry plan (geometry.numLayers*geometry.numExperts)
      (geometry.numLayers*geometry.numExperts)).projectionDtypeHistogram =
        some (tally (layouts.map (·.key))) := by
    rw [hplan]
    rfl
  have hmarker := @marker_of_uses _ _ _ _ hplanned
  rw [hdtype] at hmarker
  unfold validateHistogram
  rw [hfold, if_pos rfl]
  dsimp only
  refine bind_eq_ok.mpr ⟨(),marker_ok fun huses => hmarker ?_,?_⟩
  · rw [← huses]
    exact congrArg (metadataUsesQ4_0 .mixed) hhistogram
  · rw [hhistogram]
    simp

end Check

section RoundTrip

/-- One file for each expert of the size of an expert, and no other file of such a name; in each the
decoders find the weights of the expert of the source; and the directory passes its check. -/
structure RoundTrip (dequantize : Dequantize) (gguf : GgufSource) (geometry : Geometry) (native : Bool)
    (writes : List Write) (metadata : Metadata) : Prop where
  files : ∃ experts dense, writes = experts++dense ∧
    experts.map Prod.fst = (List.range (geometry.numLayers*geometry.numExperts)).map expertName ∧
    (∀ write ∈ experts, write.2.length = metadata.expertSize) ∧
    ∀ write ∈ dense, ∀ id, write.1 ≠ expertName id
  weights : ∃ dtype, fromStrOpt metadata.dtype.toList = some dtype ∧
    ∀ layer, layer<geometry.numLayers → ∀ expert, expert<geometry.numExperts → ∃ file slices,
      readFile writes (expertName (layer*geometry.numExperts+expert)) = some file ∧
      FromSource dequantize gguf native geometry.numExperts layer expert slices ∧
      ∀ address, defaultBlockAlign ∣ address →
        expertSlices dtype (.newWithBlockAlign file defaultBlockAlign) address geometry.dModel
          geometry.dFf = some (.ok slices)
  accepted : ∃ report, validateDataDir writes metadata = .ok report

lemma roundTrip_written {experts dense : List Write} (hfits : Fits geometry.dModel geometry.dFf)
    (hplanned : Planned gguf geometry native plan)
    (h : ExpertFiles dequantize gguf geometry native plan (payloadSize geometry plan+defaultBlockAlign)
      experts) (hdense : ∀ write ∈ dense, Other write) :
    RoundTrip dequantize gguf geometry native (experts++dense) (writtenMetadata geometry plan
      (geometry.numLayers*geometry.numExperts) (geometry.numLayers*geometry.numExperts)) := by
  constructor
  · exact ⟨experts,dense,rfl,h.names,h.sizes,fun write hmem id => expertName_ne (hdense write hmem) id⟩
  · refine ⟨metadataDtype plan,fromStrOpt_asStr _,fun layer hlayer expert hexpert => ?_⟩
    obtain ⟨file,hfile,slices,hsource,hreadable⟩ := h.file layer hlayer expert hexpert
    exact ⟨file,slices,h.read hdense hfile,hsource,hreadable.slices⟩
  · obtain hdtype | hdtype := em (metadataDtype plan = .mixed)
    · have hplanned' := hplanned
      cases hplanned with
      | floats => cases hdtype
      | homogeneous hlayouts hhomogeneous => exact absurd hdtype (homogeneous_ne_mixed hhomogeneous)
      | mixed hlayouts hpayloads => exact validate_mixed hfits rfl hplanned' hlayouts.length h hdense
    · exact validate_uniform hplanned hdtype h hdense

/-- What the converter writes is what the engine reads. -/
theorem extract_experts_round_trip {numLayersHint numExpertsHint : ℕ} {opts : ExtractOptions}
    {out : Extracted} (hgeometry : resolveGeometry gguf numLayersHint numExpertsHint = .ok geometry)
    (hheaders : opts.emitUth = true) (hfits : Fits geometry.dModel geometry.dFf)
    (hrun : extractExperts dequantize gguf numLayersHint numExpertsHint opts = .ok out) :
    RoundTrip dequantize gguf geometry opts.nativeQuant out.writes out.metadata := by
  obtain ⟨geometry',hsame,hrun⟩ := bind_eq_ok.mp hrun
  obtain rfl := Except.ok.inj (hgeometry.symm.trans hsame)
  obtain ⟨plan,hplan,hrun⟩ := bind_eq_ok.mp hrun
  have hplanned := nativePlan_ok hplan
  dsimp only at hrun
  rw [if_pos hheaders, hheaders] at hrun
  cases hsize : checkedAdd usizeMax (payloadSize geometry plan) defaultBlockAlign with
  | none =>
    rw [hsize] at hrun
    cases hrun
  | some expertSize =>
    obtain ⟨hroom,rfl⟩ := checkedAdd_eq_some.mp hsize
    rw [hsize] at hrun
    dsimp only at hrun
    cases htotal : checkedMul usizeMax geometry.numExperts geometry.numLayers with
    | none =>
      rw [htotal] at hrun
      cases hrun
    | some total =>
      obtain ⟨-,rfl⟩ := checkedMul_eq_some.mp htotal
      rw [htotal] at hrun
      obtain ⟨layers,hlayers,hrun⟩ := bind_eq_ok.mp hrun
      have hfiles := expertFiles_ok hfits hplanned hroom hlayers
      have hround := fun dense (hdense : ∀ write ∈ dense, Other write) =>
        roundTrip_written hfits hplanned hfiles hdense
      rw [← hfiles.length, writtenMetadata] at hround
      rw [Nat.mul_comm, ← hfiles.length] at hrun
      obtain honly | hdense := em (opts.expertsOnly = true)
      · rw [if_pos honly] at hrun
        obtain ⟨dense,hdense,hrun⟩ := bind_eq_ok.mp hrun
        cases hdense
        cases hrun
        exact hround [] (List.forall_mem_nil _)
      · rw [if_neg hdense] at hrun
        obtain ⟨dense,hdense,hrun⟩ := bind_eq_ok.mp hrun
        cases hrun
        exact hround dense (other_dense hdense)

/-- Two experts of one layer, with blocks of two dtypes. -/
def mixedSource : GgufSource where
  metadata := [("llama.embedding_length",.u32 32),("llama.feed_forward_length",.u32 1)]
  tensorInfo := fun name =>
    if name = "blk.0.ffn_gate_exps.weight" then some ⟨name,[32,1,2],Gguf.GgmlDtype.q4_0,0,36⟩
    else if name = "blk.0.ffn_up_exps.weight" then some ⟨name,[32,1,2],Gguf.GgmlDtype.q8_0,0,68⟩
    else if name = "blk.0.ffn_down_exps.weight" then some ⟨name,[1,32,2],Gguf.GgmlDtype.q4_0,0,36⟩
    else none
  readTensorOwned := fun name =>
    .ok (some (List.replicate (if name = "blk.0.ffn_up_exps.weight" then 68 else 36) 7))

def mixedOptions : ExtractOptions := ⟨true,true,true,none⟩

lemma mixedSource_extracts : ∃ out,
    extractExperts (fun _ _ _ => []) mixedSource 1 2 mixedOptions = .ok out := by
  have hok : (extractExperts (fun _ _ _ => []) mixedSource 1 2 mixedOptions).toOption.isSome = true := by
    decide +kernel
  cases hrun : extractExperts (fun _ _ _ => []) mixedSource 1 2 mixedOptions with
  | error e =>
    rw [hrun] at hok
    cases hok
  | ok out => exact ⟨out,rfl⟩

/-- The two experts of mixed blocks are written and read back. -/
theorem extract_experts_round_trip_mixed : ∃ out,
    extractExperts (fun _ _ _ => []) mixedSource 1 2 mixedOptions = .ok out ∧
    RoundTrip (fun _ _ _ => []) mixedSource ⟨1,2,32,1⟩ true out.writes out.metadata := by
  obtain ⟨out,hrun⟩ := mixedSource_extracts
  have hfits : Fits 32 1 := ⟨by decide,by decide,by decide⟩
  have hgeometry : resolveGeometry mixedSource 1 2 = .ok ⟨1,2,32,1⟩ := by
    rfl
  exact ⟨out,hrun,extract_experts_round_trip hgeometry rfl hfits hrun⟩

end RoundTrip

end MicroExpertRouter.Converter
