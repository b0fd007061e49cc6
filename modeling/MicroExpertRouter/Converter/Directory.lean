import MicroExpertRouter.Converter.Layers
import MicroExpertRouter.Lib.Text

/-! The directory that the converter writes: the expert files come first, one of each id, and no dense
tensor has the name of one. -/
namespace MicroExpertRouter.Converter

section Names

lemma toList_expertName (id : ℕ) : (expertName id).toList =
    "expert_".toList++(Text.padded 0 id++".bin".toList) := by
  unfold expertName
  simp [Text.padded, toString, Nat.repr]

lemma expertName_inj {id id' : ℕ} (h : expertName id = expertName id') : id = id' := by
  have hlist := congrArg String.toList h
  rw [toList_expertName, toList_expertName, List.append_cancel_left_eq,
    List.append_cancel_right_eq] at hlist
  have hvalue := congrArg Text.value hlist
  rwa [Text.value_padded, Text.value_padded] at hvalue

/-- The names of expert files begin with a letter that no name of a dense tensor begins with. -/
lemma expertName_ne {name : String} (h : name.toList.head? ≠ some 'e') (id : ℕ) :
    name ≠ expertName id := by
  rintro rfl
  rw [toList_expertName] at h
  exact h rfl

end Names

section Dense
variable {dequantize : Dequantize} {gguf : GgufSource} {geometry : Geometry}

/-- The write is not one of an expert file. -/
def Other (write : Write) : Prop := write.1.toList.head? ≠ some 'e'

lemma other_manifest (canonical dtype : String) (bytes : List UInt8) :
    Other (denseManifestFileName canonical dtype,bytes) := by
  unfold Other denseManifestFileName
  simp [toString]

lemma other_tensor {canonical : String} {write : Write}
    (h : emitDenseManifestTensorReq dequantize gguf canonical = .ok write) : Other write := by
  unfold emitDenseManifestTensorReq at h
  cases hinfo : gguf.tensorInfo canonical with
  | none =>
    rw [hinfo] at h
    cases h
  | some info =>
    rw [hinfo] at h
    dsimp only at h
    split_ifs at h with hdims hdtype
    · obtain ⟨bytes,-,h⟩ := bind_eq_ok.mp h
      cases h
      exact other_manifest canonical "q8_0" bytes
    · split at h
      · cases h
        exact other_manifest canonical "f32" _
      · cases h
      · cases h

lemma other_required {requirement : Requirement} {write : Write}
    (h : emitRequired dequantize gguf requirement = .ok write) : Other write := by
  unfold emitRequired at h
  dsimp only at h
  cases hinfo : gguf.tensorInfo requirement.canonical with
  | none =>
    rw [hinfo] at h
    cases h
  | some info =>
    rw [hinfo] at h
    dsimp only at h
    cases hdims : denseManifestDims info with
    | none =>
      rw [hdims] at h
      cases h
    | some dims =>
      rw [hdims] at h
      dsimp only at h
      split_ifs at h
      exact other_tensor h

lemma other_legacy {canonical alias_ : String} {writes : List Write} (hname : Other (alias_,[]))
    (h : emitLegacyF32DenseTensor dequantize gguf canonical alias_ = .ok writes) :
    ∀ write ∈ writes, Other write := by
  unfold emitLegacyF32DenseTensor at h
  cases hinfo : gguf.tensorInfo canonical with
  | none =>
    rw [hinfo] at h
    cases h
    exact List.forall_mem_nil _
  | some info =>
    rw [hinfo] at h
    dsimp only at h
    split at h
    · cases h
      exact List.forall_mem_singleton.mpr hname
    · cases h
    · cases h
      exact List.forall_mem_nil _

lemma other_optional (layer : ℕ) : ∀ entry ∈ layerOptional layer, Other (entry.2,[]) := by
  unfold layerOptional Other
  simp [toString]

lemma other_output {profile : ConvArchProfile} {writes : List Write}
    (h : emitOutput dequantize gguf profile = .ok writes) : ∀ write ∈ writes, Other write := by
  unfold emitOutput at h
  split_ifs at h with hpresent htied
  · obtain ⟨write,hwrite,h⟩ := bind_eq_ok.mp h
    cases h
    exact List.forall_mem_singleton.mpr (other_required hwrite)
  · split at h
    · cases h
    · cases h
      exact List.forall_mem_nil _

lemma other_layer {headDim : Option ℕ} {layer : ℕ} {writes : List Write}
    (h : emitLayer dequantize gguf geometry headDim layer = .ok writes) :
    ∀ write ∈ writes, Other write := by
  obtain ⟨needed,hneeded,h⟩ := bind_eq_ok.mp h
  obtain ⟨optional,hoptional,h⟩ := bind_eq_ok.mp h
  cases h
  refine List.forall_mem_append.mpr ⟨fun write hmem => ?_,fun write hmem => ?_⟩
  · obtain ⟨requirement,-,hwrite⟩ := of_mapM_ok hneeded hmem
    exact other_required hwrite
  · obtain ⟨writes,hwrites,hmem⟩ := List.mem_flatten.mp hmem
    obtain ⟨entry,hentry,hwrite⟩ := of_mapM_ok hoptional hwrites
    exact other_legacy (other_optional layer entry hentry) hwrite write hmem

/-- No dense tensor is written to an expert file. -/
lemma other_dense {archOverride : Option String} {writes : List Write}
    (h : emitDense dequantize gguf geometry archOverride = .ok writes) :
    ∀ write ∈ writes, Other write := by
  unfold emitDense at h
  dsimp only at h
  split_ifs at h
  obtain ⟨headDim,-,h⟩ := bind_eq_ok.mp h
  obtain ⟨embedding,hembedding,h⟩ := bind_eq_ok.mp h
  obtain ⟨norm,hnorm,h⟩ := bind_eq_ok.mp h
  obtain ⟨head,hhead,h⟩ := bind_eq_ok.mp h
  obtain ⟨layers,hlayers,h⟩ := bind_eq_ok.mp h
  cases h
  rw [List.forall_mem_append, List.forall_mem_append, List.forall_mem_cons,
    List.forall_mem_singleton]
  refine ⟨⟨⟨other_required hembedding,other_required hnorm⟩,other_output hhead⟩,fun write hmem => ?_⟩
  obtain ⟨writes,hwrites,hmem⟩ := List.mem_flatten.mp hmem
  obtain ⟨layer,-,hlayer⟩ := of_mapM_ok hlayers hwrites
  exact other_layer hlayer write hmem

end Dense

section Experts
variable {dequantize : Dequantize} {gguf : GgufSource} {geometry : Geometry} {native : Bool}
  {plan : Option NativeQuantPlan} {expertSize : ℕ}

/-- One write of each id in order, each of the expert of its layer. -/
structure ExpertFiles (dequantize : Dequantize) (gguf : GgufSource) (geometry : Geometry)
    (native : Bool) (plan : Option NativeQuantPlan) (expertSize : ℕ) (writes : List Write) : Prop where
  names : writes.map Prod.fst =
    (List.range (geometry.numLayers*geometry.numExperts)).map expertName
  file : ∀ layer, layer<geometry.numLayers → ∀ expert, expert<geometry.numExperts → ∃ file,
    writes[layer*geometry.numExperts+expert]? =
      some (expertName (layer*geometry.numExperts+expert),file) ∧
    ExpertWritten dequantize gguf geometry native plan expertSize layer expert file

lemma layerWrites_names (numExperts layer : ℕ) (files : List (List UInt8)) :
    (layerWrites numExperts layer files).map Prod.fst =
      (List.range files.length).map fun expert => expertName (layer*numExperts+expert) := by
  rw [layerWrites, List.map_map, List.range_eq_range', ← List.zipIdx_map_snd 0 files, List.map_map]
  rfl

/-- The loop over the layers writes the files of all experts. -/
lemma expertFiles_ok (hfits : Fits geometry.dModel geometry.dFf)
    (hplanned : Planned gguf geometry native plan)
    (hsize : payloadSize geometry plan+defaultBlockAlign ≤ usizeMax) {layers : List (List Write)}
    (h : ((List.range geometry.numLayers).mapM fun layer => do
      let files ← layerFiles dequantize gguf geometry true plan
        (payloadSize geometry plan+defaultBlockAlign) layer
      return layerWrites geometry.numExperts layer files) = .ok layers) :
    ExpertFiles dequantize gguf geometry native plan (payloadSize geometry plan+defaultBlockAlign)
      layers.flatten := by
  obtain ⟨hlength,hturn⟩ := of_mapM_range h
  have hlayer : ∀ layer, layer<geometry.numLayers → ∃ files,
      layers[layer]? = some (layerWrites geometry.numExperts layer files) ∧
      files.length = geometry.numExperts ∧ ∀ expert, expert<geometry.numExperts →
        ∃ file, files[expert]? = some file ∧ ExpertWritten dequantize gguf geometry native plan
          (payloadSize geometry plan+defaultBlockAlign) layer expert file := by
    intro layer hlt
    obtain ⟨writes,hget,hwrites⟩ := hturn layer hlt
    obtain ⟨files,hfiles,hwrites⟩ := bind_eq_ok.mp hwrites
    cases hwrites
    exact ⟨files,hget,layerFiles_ok hfits hplanned hlt hsize hfiles⟩
  have hchunks : ∀ chunk ∈ layers, chunk.length = geometry.numExperts := by
    intro chunk hmem
    obtain ⟨layer,hget⟩ := List.mem_iff_getElem?.mp hmem
    obtain ⟨files,hsame,hcount,-⟩ := hlayer layer (hlength ▸ (List.getElem?_eq_some_iff.mp hget).1)
    rw [Option.some.inj (hget.symm.trans hsame), layerWrites, List.length_map, List.length_zipIdx,
      hcount]
  constructor
  · have hnames : layers.map (List.map Prod.fst) = (List.range geometry.numLayers).map fun layer =>
        (List.range geometry.numExperts).map fun expert =>
          expertName (layer*geometry.numExperts+expert) := by
      apply List.ext_getElem?
      intro layer
      obtain hlt | hge := Nat.lt_or_ge layer geometry.numLayers
      · obtain ⟨files,hget,hcount,-⟩ := hlayer layer hlt
        rw [List.getElem?_map, hget, Chunks.getElem?_map_range _ hlt, Option.map_some,
          layerWrites_names, hcount]
      · rw [List.getElem?_eq_none (by simpa [hlength] using hge),
          List.getElem?_eq_none (by simpa using hge)]
    rw [List.map_flatten, hnames, ← List.flatMap_def, ← Chunks.flatMap_range, List.map_flatMap]
    apply List.flatMap_congr
    intro layer _
    rw [List.map_map]
    rfl
  · intro layer hlt expert hexpert
    obtain ⟨files,hget,hcount,hfiles⟩ := hlayer layer hlt
    obtain ⟨file,hfile,hwritten⟩ := hfiles expert hexpert
    refine ⟨file,?_,hwritten⟩
    rw [Chunks.getElem?_flatten hchunks hget hexpert, layerWrites, List.getElem?_map,
      List.getElem?_zipIdx, hfile]
    simp

variable {experts dense : List Write}

lemma ExpertFiles.distinct
    (h : ExpertFiles dequantize gguf geometry native plan expertSize experts) :
    Lru.Distinct experts := by
  rw [Lru.Distinct, h.names]
  exact List.Nodup.map (fun _ _ hname => expertName_inj hname) List.nodup_range

lemma ExpertFiles.length
    (h : ExpertFiles dequantize gguf geometry native plan expertSize experts) :
    experts.length = geometry.numLayers*geometry.numExperts := by
  have hnames := congrArg List.length h.names
  rwa [List.length_map, List.length_map, List.length_range] at hnames

/-- The file of an expert is read back. -/
lemma ExpertFiles.read
    (h : ExpertFiles dequantize gguf geometry native plan expertSize experts)
    (hdense : ∀ write ∈ dense, Other write) {id : ℕ} {file : List UInt8}
    (hget : experts[id]? = some (expertName id,file)) :
    readFile (experts++dense) (expertName id) = some file := by
  have hmem := List.mem_of_getElem? hget
  unfold readFile
  cases hpeek : Lru.peek (experts++dense).reverse (expertName id) with
  | none =>
    have habsent := Lru.peek_eq_none.mp hpeek file
    exact absurd (List.mem_reverse.mpr (List.mem_append_left dense hmem)) habsent
  | some found =>
    have hfound := List.mem_reverse.mp (Lru.peek_mem hpeek)
    obtain hfound | hfound := List.mem_append.mp hfound
    · rw [h.distinct.eq hfound hmem]
    · exact absurd rfl (expertName_ne (hdense _ hfound) id)

end Experts

end MicroExpertRouter.Converter
