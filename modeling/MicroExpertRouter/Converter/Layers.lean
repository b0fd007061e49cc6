import MicroExpertRouter.Converter.Slices

/-! The files of a layer: each has the size of an expert, and the decoders find in it what the source
says of its expert. -/
namespace MicroExpertRouter.Converter
open Quant (WeightDtype divCeil)
open Storage (MixedExpertHeader)

section Sizes
variable {dModel dFf : ℕ}

lemma le_alignUp (n align : ℕ) : n ≤ alignUp n align := by
  unfold alignUp
  dsimp only
  split_ifs
  · exact le_rfl
  · exact Nat.le_add_right _ _

lemma alignUp_mod {align : ℕ} (h : 0<align) (n : ℕ) : alignUp n align % align = 0 := by
  unfold alignUp
  dsimp only
  split_ifs with hrem
  · exact hrem
  · have hlt := Nat.mod_lt n h
    have hdiv := Nat.div_add_mod n align
    have hsum : n+(align-n % align) = align*(n/align+1) := by
      rw [Nat.mul_add, Nat.mul_one]
      omega
    rw [hsum, Nat.mul_mod_right]

/-- The three matrices of whole blocks fill the payload of their dtype. -/
lemma expertWeightBytesFor_blocks (hfits : Fits dModel dFf) {dtype : WeightDtype}
    {elems blockBytes : ℕ} (hblock : nativeBlockSpec dtype = some (elems,blockBytes))
    (haligned : dFf*dModel % elems = 0) :
    expertWeightBytesFor dModel dFf dtype = 3*(divCeil (dFf*dModel) elems*blockBytes) := by
  have hlt := hfits.weights_lt
  rw [Nat.mul_comm] at hlt
  have hone : saturatingMul usizeMax dModel dFf = dFf*dModel := by
    rw [saturatingMul, Nat.mul_comm]
    exact Nat.min_eq_left hfits.usize
  have hblocks := divCeil_bounds (block_bounds hblock).1
    (Nat.mul_pos hfits.dFf_pos hfits.dModel_pos)
  have hthree : ∀ bytes, bytes<256 → threeBlockBytes dModel dFf elems bytes =
      3*(divCeil (dFf*dModel) elems*bytes) := by
    intro bytes hbytes
    have hproduct : divCeil (dFf*dModel) elems*3*bytes ≤ usizeMax := by
      calc divCeil (dFf*dModel) elems*3*bytes ≤ dFf*dModel*3*255 :=
            Nat.mul_le_mul (Nat.mul_le_mul_right 3 hblocks.2) (Nat.le_of_lt_succ hbytes)
        _ ≤ usizeMax := by unfold usizeMax; omega
    have hcount : divCeil (dFf*dModel) elems*3 ≤ usizeMax := by
      unfold usizeMax
      omega
    unfold threeBlockBytes
    dsimp only
    rw [hone, saturatingMul_of_le hcount, saturatingMul_of_le hproduct, Nat.mul_comm _ 3,
      Nat.mul_assoc]
  cases dtype <;> cases hblock
  · have hcount : divCeil (dFf*dModel*3) 256 = divCeil (dFf*dModel) 256*3 := by
      unfold divCeil
      omega
    unfold expertWeightBytesFor
    rw [hfits.count, hcount, saturatingMul_of_le (by unfold usizeMax; omega), Nat.mul_comm _ 3,
      Nat.mul_assoc]
  · exact hthree 18 (by decide)
  · exact hthree 34 (by decide)
  · exact hthree 176 (by decide)
  · exact hthree 210 (by decide)

lemma expertWeightBytesFor_f32 (hfits : Fits dModel dFf) :
    expertWeightBytesFor dModel dFf .f32 = dFf*dModel*3*4 := by
  have hlt := hfits.weights_lt
  rw [Nat.mul_comm] at hlt
  change saturatingMul usizeMax (expertWeightCount dModel dFf) 4 = _
  rw [hfits.count]
  apply saturatingMul_of_le
  unfold usizeMax
  omega

lemma le_foldl_max {xs : List ℕ} (start : ℕ) :
    start ≤ xs.foldl max start ∧ ∀ x ∈ xs, x ≤ xs.foldl max start := by
  induction xs generalizing start with
  | nil => exact ⟨le_rfl,List.forall_mem_nil _⟩
  | cons x xs ih =>
    obtain ⟨hstart,hrest⟩ := ih (max start x)
    exact ⟨(le_max_left start x).trans hstart,
      List.forall_mem_cons.mpr ⟨(le_max_right start x).trans hstart,hrest⟩⟩

lemma payload_le_slot {layouts : List ProjectionQuantLayout} {payloads : List ℕ}
    (hpayloads : layouts.mapM (·.payloadBytes) = some payloads) {layout : ProjectionQuantLayout}
    (hlayout : layout ∈ layouts) :
    layout.gate.payloadBytes+layout.up.payloadBytes+layout.down.payloadBytes ≤
      payloads.foldl max 0 := by
  obtain ⟨bytes,hbytes,hsome⟩ := of_mapM_some hpayloads hlayout
  obtain ⟨sum,hsum,hsome⟩ := Option.bind_eq_some_iff.mp hsome
  obtain ⟨-,rfl⟩ := checkedAdd_eq_some.mp hsum
  obtain ⟨-,rfl⟩ := checkedAdd_eq_some.mp hsome
  exact (le_foldl_max 0).2 _ hbytes

end Sizes

section Files
variable {dequantize : Dequantize} {gguf : GgufSource} {geometry : Geometry}
  {plan : Option NativeQuantPlan} {expertSize layer id : ℕ}

/-- The header that the check of the directory reads. -/
inductive Head (geometry : Geometry) (id : ℕ) (file : List UInt8) : Option NativeQuantPlan → Prop
  | uniform {plan : Option NativeQuantPlan} (hdtype : metadataDtype plan ≠ .mixed)
      (hfile : (forSwigluExpert (metadataDtype plan) geometry.dModel geometry.dFf).toBytes <+: file) :
      Head geometry id file plan
  | mixed {layouts : List ProjectionQuantLayout} {slot expertSize : ℕ} {histogram : Histogram}
      {layout : ProjectionQuantLayout} {matrices : Matrices UInt8}
      (hlayout : layouts[id]? = some layout) (hplaced : Placed matrices slot)
      (hfile : (mixedHeader geometry.dModel geometry.dFf layout matrices).toBytes <+: file) :
      Head geometry id file (some (.mixed layouts slot expertSize histogram))

/-- A file of an expert, with what the decoders find in it. -/
structure Readable (geometry : Geometry) (plan : Option NativeQuantPlan) (expertSize id : ℕ)
    (slices : ExpertSlices) (file : List UInt8) : Prop where
  length : file.length = expertSize
  slices : ∀ address, defaultBlockAlign ∣ address →
    expertSlices (metadataDtype plan) (.newWithBlockAlign file defaultBlockAlign) address
      geometry.dModel geometry.dFf = some (.ok slices)
  head : Head geometry id file plan

lemma uniformFile_eq (dtype : WeightDtype) (dModel dFf size : ℕ) (payload : List UInt8) :
    uniformFile true dtype dModel dFf (size+defaultBlockAlign) payload =
      (forSwigluExpert dtype dModel dFf).writePadded defaultBlockAlign []++padTo size payload := by
  unfold uniformFile
  dsimp only
  rw [if_pos rfl, padTo_append, length_uniformHeader, Nat.add_sub_cancel]

/-- A file of one dtype is read as its payload is. -/
lemma readable_uniform {payload : List UInt8} {slices : ExpertSlices}
    (hdtype : metadataDtype plan ≠ .mixed) (hpayload : payload.length ≤ payloadSize geometry plan)
    (hslices : ∀ header address, defaultBlockAlign ∣ address → header.length = defaultBlockAlign →
      expertSlices (metadataDtype plan)
        ⟨header++padTo (payloadSize geometry plan) payload,defaultBlockAlign,none⟩ address
        geometry.dModel geometry.dFf = some (.ok slices)) :
    Readable geometry plan (payloadSize geometry plan+defaultBlockAlign) id slices
      (uniformFile true (metadataDtype plan) geometry.dModel geometry.dFf
        (payloadSize geometry plan+defaultBlockAlign) payload) := by
  rw [uniformFile_eq]
  refine ⟨?_,fun address haddress => ?_,.uniform hdtype ?_⟩
  · rw [List.length_append, length_uniformHeader, length_padTo hpayload, Nat.add_comm]
  · rw [resident_uniform]
    exact hslices _ address haddress length_uniformHeader
  · unfold Storage.TensorHeader.writePadded
    rw [List.nil_append, List.append_assoc]
    exact List.prefix_append _ _

lemma floats_slices {matrices : Matrices UInt32} (hfits : Fits geometry.dModel geometry.dFf)
    (hdecoded : MatricesDecoded dequantize gguf (home gguf geometry.numExperts layer id)
      (geometry.dFf*geometry.dModel) matrices) {header : List UInt8} {address size : ℕ}
    (haddress : defaultBlockAlign ∣ address) (hheader : header.length = defaultBlockAlign) :
    expertSlices .f32 ⟨header++padTo size (f32ToLe matrices.join),defaultBlockAlign,none⟩ address
      geometry.dModel geometry.dFf = some (.ok matrices.floats) := by
  have hstart : (address+defaultBlockAlign) % 4 = 0 := by
    unfold defaultBlockAlign at haddress ⊢
    omega
  unfold expertSlices ExpertResident.data
  dsimp only
  rw [List.drop_left' hheader, fromBytes_padTo hfits hdecoded.gate.length hdecoded.up.length
    hdecoded.down.length hstart]
  rfl

lemma expertSlices_blocks {dtype : WeightDtype} {elems blockBytes : ℕ}
    (hblock : nativeBlockSpec dtype = some (elems,blockBytes)) (resident : ExpertResident)
    (address dModel dFf : ℕ) : expertSlices dtype resident address dModel dFf =
      some ((fromBlocks elems blockBytes resident.data dModel dFf).map (Matrices.blocks dtype)) := by
  cases dtype <;> cases hblock <;> rfl

section Blocks
variable {layouts : List ProjectionQuantLayout} {dtype : WeightDtype} {layout : ProjectionQuantLayout}
  {matrices : Matrices UInt8} {home : String → Home}

/-- Matrices of a plan of one dtype come from the source in that dtype. -/
lemma fromSource_blocks {numExperts expert : ℕ} (hdtype : homogeneousDtype layouts = some dtype)
    (hlayout : layout ∈ layouts)
    (hloaded : MatricesLoaded dequantize gguf (Converter.home gguf numExperts layer expert) layout
      matrices) :
    FromSource dequantize gguf true numExperts layer expert (matrices.blocks dtype) := by
  have hspec : ∀ spec ∈ layout.specs, spec.dtype = dtype :=
    fun spec hspec => (spec_of_homogeneous hdtype hlayout hspec).1
  have hgate := hloaded.gate.origin
  have hup := hloaded.up.origin
  have hdown := hloaded.down.origin
  rw [hspec _ (by simp [ProjectionQuantLayout.specs])] at hgate hup hdown
  exact ⟨hgate,hup,hdown⟩

/-- A file of blocks of one dtype. -/
lemma readable_blocks (hfits : Fits geometry.dModel geometry.dFf)
    (hdtype : homogeneousDtype layouts = some dtype) (hlayout : layout ∈ layouts)
    (hscanned : LayoutScanned gguf (geometry.dFf*geometry.dModel) home layout)
    (hloaded : MatricesLoaded dequantize gguf home layout matrices) :
    Readable geometry (some (.homogeneous dtype))
      (payloadSize geometry (some (.homogeneous dtype))+defaultBlockAlign) id (matrices.blocks dtype)
      (uniformFile true dtype geometry.dModel geometry.dFf
        (payloadSize geometry (some (.homogeneous dtype))+defaultBlockAlign) matrices.join) := by
  have hblock := layout.gate.block_eq
  have hspecs := fun spec (hspec : spec ∈ layout.specs) => spec_of_homogeneous hdtype hlayout hspec
  rw [(hspecs layout.gate (by simp [ProjectionQuantLayout.specs])).1] at hblock
  have hpayload : ∀ spec ∈ layout.specs, spec.weights = geometry.dFf*geometry.dModel →
      spec.payloadBytes =
        divCeil (geometry.dFf*geometry.dModel) layout.gate.blockElems*layout.gate.blockBytes := by
    intro spec hspec hweights
    have hsame := spec.block_eq
    rw [(hspecs spec hspec).1, hblock] at hsame
    obtain ⟨helems,hbytes⟩ := Prod.mk.inj (Option.some.inj hsame)
    rw [spec.payload_blocks, hweights, helems, hbytes]
  have hgate := hloaded.gate.length.trans
    (hpayload _ (by simp [ProjectionQuantLayout.specs]) hscanned.gate.weights)
  have hup := hloaded.up.length.trans
    (hpayload _ (by simp [ProjectionQuantLayout.specs]) hscanned.up.weights)
  have hdown := hloaded.down.length.trans
    (hpayload _ (by simp [ProjectionQuantLayout.specs]) hscanned.down.weights)
  have haligned : geometry.dFf*geometry.dModel % layout.gate.blockElems = 0 := by
    rw [← hscanned.gate.weights]
    exact (hspecs layout.gate (by simp [ProjectionQuantLayout.specs])).2
  have hmixed : dtype ≠ .mixed := by
    rintro rfl
    cases hblock
  refine @readable_uniform geometry (some (.homogeneous dtype)) id matrices.join _ hmixed ?_ ?_
  · have hjoin : matrices.join.length = expertWeightBytesFor geometry.dModel geometry.dFf dtype := by
      rw [expertWeightBytesFor_blocks hfits hblock haligned, length_join, hgate, hup, hdown]
      omega
    rw [hjoin]
    exact le_alignUp _ _
  · intro header address _ hheader
    change expertSlices dtype _ _ _ _ = _
    rw [expertSlices_blocks hblock, ExpertResident.data, List.drop_left' hheader,
      fromBlocks_padTo hfits hgate hup hdown]
    rfl

end Blocks

lemma readable_mixed (hfits : Fits geometry.dModel geometry.dFf) {slot planned : ℕ}
    {layouts : List ProjectionQuantLayout} {histogram : Histogram} {layout : ProjectionQuantLayout}
    {matrices : Matrices UInt8} {home : String → Home} {file : List UInt8}
    (hlayout : layouts[id]? = some layout) (hplaced : Placed matrices slot)
    (hscanned : LayoutScanned gguf (geometry.dFf*geometry.dModel) home layout)
    (hloaded : MatricesLoaded dequantize gguf home layout matrices)
    (h : mixedFile true geometry.dModel geometry.dFf (slot+defaultBlockAlign) layout matrices =
      .ok file) :
    Readable geometry (some (.mixed layouts slot planned histogram)) (slot+defaultBlockAlign) id
      (mixedMatrices layout matrices) file := by
  have hfile : file = (mixedHeader geometry.dModel geometry.dFf layout matrices).writePadded
      defaultBlockAlign []++padTo slot matrices.join := by
    have hroom : ¬ (true = true ∧ usizeMax < matrices.gate.length+matrices.up.length) := by
      have hsum := hplaced.fits
      have hlt := hplaced.payload_lt
      unfold usizeMax
      omega
    rw [mixedFile, if_neg hroom, if_pos rfl] at h
    rw [← Except.ok.inj h, padTo_append, length_mixedHeader, Nat.add_sub_cancel]
  rw [hfile]
  refine ⟨?_,fun address haddress => ?_,.mixed hlayout hplaced ?_⟩
  · rw [List.length_append, length_mixedHeader, length_padTo, Nat.add_comm]
    rw [length_join]
    exact hplaced.fits
  · have hdtype : metadataDtype (some (.mixed layouts slot planned histogram)) = .mixed := rfl
    rw [hdtype, expertSlices, mixedSlices_padTo hfits hplaced ⟨hscanned.gate.weights,hloaded.gate.length⟩
      ⟨hscanned.up.weights,hloaded.up.length⟩ ⟨hscanned.down.weights,hloaded.down.length⟩]
  · unfold MixedExpertHeader.writePadded
    rw [List.nil_append, List.append_assoc]
    exact List.prefix_append _ _

/-- Matrices that are loaded fit a slot that is long enough. -/
lemma placed_loaded (hfits : Fits geometry.dModel geometry.dFf) {slot : ℕ} {home : String → Home}
    {layout : ProjectionQuantLayout} {matrices : Matrices UInt8}
    (hscanned : LayoutScanned gguf (geometry.dFf*geometry.dModel) home layout)
    (hloaded : MatricesLoaded dequantize gguf home layout matrices)
    (hslot : layout.gate.payloadBytes+layout.up.payloadBytes+layout.down.payloadBytes ≤ slot)
    (hlt : slot<2^64) : Placed matrices slot := by
  have hpos : ∀ spec : ProjectionQuantSpec, spec.weights = geometry.dFf*geometry.dModel →
      0<spec.payloadBytes := by
    intro spec hweights
    refine (spec.payload_bounds ?_ ?_).1
    · rw [hweights]
      exact Nat.mul_pos hfits.dFf_pos hfits.dModel_pos
    · rw [hweights, Nat.mul_comm]
      exact hfits.weights_lt
  refine ⟨?_,?_,?_,?_,hlt⟩
  · rw [hloaded.gate.length]
    exact hpos _ hscanned.gate.weights
  · rw [hloaded.up.length]
    exact hpos _ hscanned.up.weights
  · rw [hloaded.down.length]
    exact hpos _ hscanned.down.weights
  · rwa [hloaded.gate.length, hloaded.up.length, hloaded.down.length]

/-- What a layer leaves of an expert. -/
def ExpertWritten (dequantize : Dequantize) (gguf : GgufSource) (geometry : Geometry) (native : Bool)
    (plan : Option NativeQuantPlan) (expertSize layer expert : ℕ) (file : List UInt8) : Prop :=
  ∃ slices, FromSource dequantize gguf native geometry.numExperts layer expert slices ∧
    Readable geometry plan expertSize (layer*geometry.numExperts+expert) slices file

/-- The files of a layer, for every plan. -/
lemma layerFiles_ok {native : Bool} (hfits : Fits geometry.dModel geometry.dFf)
    (hplanned : Planned gguf geometry native plan) (hlayer : layer<geometry.numLayers)
    (hsize : payloadSize geometry plan+defaultBlockAlign ≤ usizeMax) {files : List (List UInt8)}
    (h : layerFiles dequantize gguf geometry true plan
      (payloadSize geometry plan+defaultBlockAlign) layer = .ok files) :
    files.length = geometry.numExperts ∧ ∀ expert, expert<geometry.numExperts →
      ∃ file, files[expert]? = some file ∧ ExpertWritten dequantize gguf geometry native plan
        (payloadSize geometry plan+defaultBlockAlign) layer expert file := by
  cases hplanned with
  | floats =>
    obtain ⟨perExpert,hload,h⟩ := bind_eq_ok.mp h
    cases h
    obtain ⟨hlength,hexperts⟩ := loadMatrices_ok hload
    refine ⟨by rw [List.length_map, hlength],fun expert hexpert => ?_⟩
    obtain ⟨matrices,hget,hdecoded⟩ := hexperts expert hexpert
    refine ⟨_,by rw [List.getElem?_map, hget]; rfl,matrices.floats,
      ⟨hdecoded.gate.origin,hdecoded.up.origin,hdecoded.down.origin⟩,?_⟩
    refine readable_uniform (by decide) ?_ fun header address haddress hheader =>
      floats_slices hfits hdecoded haddress hheader
    have hjoin : (f32ToLe matrices.join).length = geometry.dFf*geometry.dModel*3*4 := by
      rw [length_f32ToLe, length_join, hdecoded.gate.length, hdecoded.up.length,
        hdecoded.down.length]
      omega
    rw [hjoin, ← expertWeightBytesFor_f32 hfits]
    exact le_alignUp _ _
  | homogeneous hlayouts hdtype =>
    obtain ⟨perExpert,hload,h⟩ := bind_eq_ok.mp h
    cases h
    obtain ⟨hlength,hexperts⟩ :=
      @loadNativeQuant_ok gguf dequantize _ _ _ hlayouts _ hdtype hlayer _ hload
    refine ⟨by rw [List.length_map, hlength],fun expert hexpert => ?_⟩
    obtain ⟨matrices,layout,hget,hlayout,hscanned,hloaded⟩ := hexperts expert hexpert
    refine ⟨_,by rw [List.getElem?_map, hget]; rfl,_,fromSource_blocks hdtype hlayout hloaded,?_⟩
    exact readable_blocks hfits hdtype hlayout hscanned hloaded
  | mixed hlayouts hpayloads =>
    obtain ⟨perExpert,hload,h⟩ := bind_eq_ok.mp h
    obtain ⟨hlength,hexperts⟩ := @loadNativeMixed_ok gguf dequantize _ _ _ hlayouts hlayer _ hload
    have hturns := mapM_eq_ok.mp h
    have hcount : files.length = geometry.numExperts := hturns.length_eq.symm.trans hlength
    refine ⟨hcount,fun expert hexpert => ?_⟩
    obtain ⟨matrices,layout,hget,hlayout,hscanned,hloaded⟩ := hexperts expert hexpert
    have hfile := hturns.get (by omega) (hcount.symm ▸ hexpert : expert<files.length)
    rw [List.get_eq_getElem, List.get_eq_getElem, (List.getElem?_eq_some_iff.mp hget).2] at hfile
    refine ⟨_,List.getElem?_eq_getElem (hcount.symm ▸ hexpert),mixedMatrices layout matrices,
      ⟨hloaded.gate.origin,hloaded.up.origin,hloaded.down.origin⟩,?_⟩
    refine readable_mixed hfits hlayout (placed_loaded hfits hscanned hloaded ?_ ?_) hscanned hloaded hfile
    · exact (payload_le_slot hpayloads (List.mem_of_getElem? hlayout)).trans (le_alignUp _ _)
    · change alignUp _ _+defaultBlockAlign ≤ usizeMax at hsize
      unfold defaultBlockAlign usizeMax at hsize
      unfold defaultBlockAlign
      omega

end Files

end MicroExpertRouter.Converter
