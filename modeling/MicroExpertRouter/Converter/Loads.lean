import MicroExpertRouter.Converter.Scans

/-! The matrices that the converter reads are the shares of the experts in the tensors of the source,
each as long as its dtype asks for. -/
namespace MicroExpertRouter.Converter
open Gguf (GgufTensorInfo)
open Quant (WeightDtype divCeil part projectionWeightBytesFor blockBytesFor)

section Sizes

lemma projectionWeightBytesFor_native {dtype : WeightDtype} {elems bytes : ℕ}
    (h : nativeBlockSpec dtype = some (elems,bytes)) (weights : ℕ) :
    projectionWeightBytesFor weights dtype = blockBytesFor weights elems bytes := by
  cases dtype <;> cases h <;> rfl

lemma block_bounds {dtype : WeightDtype} {elems bytes : ℕ}
    (h : nativeBlockSpec dtype = some (elems,bytes)) : 0<elems ∧ 0<bytes ∧ bytes<256 := by
  cases dtype <;> cases h <;> decide

lemma divCeil_of_dvd {n elems : ℕ} (helems : 0<elems) (h : n % elems = 0) :
    divCeil n elems = n/elems := by
  obtain ⟨k,rfl⟩ := Nat.dvd_of_mod_eq_zero h
  unfold divCeil
  rw [Nat.mul_div_cancel_left _ helems, Nat.add_sub_assoc helems, Nat.mul_add_div helems,
    Nat.div_eq_of_lt (by omega), Nat.add_zero]

lemma divCeil_bounds {n elems : ℕ} (helems : 0<elems) (hn : 0<n) :
    0<divCeil n elems ∧ divCeil n elems ≤ n := by
  unfold divCeil
  constructor
  · exact Nat.div_pos (by omega) helems
  · apply Nat.div_le_of_le_mul
    obtain ⟨e,rfl⟩ := Nat.exists_eq_succ_of_ne_zero helems.ne'
    have hmul : e*1 ≤ e*n := Nat.mul_le_mul_left e hn
    rw [Nat.succ_mul]
    omega

namespace ProjectionQuantSpec

lemma payload_blocks (spec : ProjectionQuantSpec) :
    spec.payloadBytes = divCeil spec.weights spec.blockElems*spec.blockBytes := by
  have hpayload := spec.payload_eq
  rw [projectionWeightBytesFor_native spec.block_eq] at hpayload
  exact (checkedMul_eq_some.mp hpayload).2

lemma payload_bounds (spec : ProjectionQuantSpec) (hpos : 0<spec.weights)
    (hlt : spec.weights<2^32) : 0<spec.payloadBytes ∧ spec.payloadBytes<2^40 := by
  obtain ⟨helems,hbytes,hsmall⟩ := block_bounds spec.block_eq
  obtain ⟨hblocks,hle⟩ := divCeil_bounds helems hpos
  rw [spec.payload_blocks]
  refine ⟨Nat.mul_pos hblocks hbytes,?_⟩
  calc divCeil spec.weights spec.blockElems*spec.blockBytes ≤ spec.weights*255 :=
        Nat.mul_le_mul hle (Nat.le_of_lt_succ hsmall)
    _ < 2^40 := by omega

end ProjectionQuantSpec

end Sizes

variable {gguf : GgufSource} {dequantize : Dequantize} {geometry : Geometry}
  {layouts : List ProjectionQuantLayout} {layer : ℕ}

section Bytes
variable {name : String} {weights copies index size : ℕ} {spec : ProjectionQuantSpec}
  {data bytes : List UInt8}

/-- All bytes of an expert in a tensor. -/
structure Loaded (dequantize : Dequantize) (gguf : GgufSource) (home : Home)
    (spec : ProjectionQuantSpec) (bytes : List UInt8) : Prop where
  length : bytes.length = spec.payloadBytes
  origin : Origin dequantize gguf home true (.blocks spec.dtype bytes)

lemma readTensor_ok (h : readTensor gguf name = .ok data) :
    ∃ info, gguf.tensorInfo name = some info ∧ tensorData gguf info = .ok data := by
  unfold readTensor at h
  cases hinfo : gguf.tensorInfo name with
  | none =>
    rw [hinfo] at h
    cases h
  | some info =>
    rw [hinfo] at h
    exact ⟨info,rfl,h⟩

/-- A part of the size that the scan found. -/
lemma loaded_part (hscanned : Scanned gguf weights copies name spec)
    (hdata : readTensor gguf name = .ok data) (hcopies : 0<copies)
    (hlength : index*spec.payloadBytes+spec.payloadBytes ≤ data.length) :
    Loaded dequantize gguf ⟨name,copies,index⟩ spec
      (part data (index*spec.payloadBytes) spec.payloadBytes) := by
  obtain ⟨info,hinfo,hdtype,hbytes⟩ := hscanned.tensor
  obtain ⟨info',hsame,hread⟩ := readTensor_ok hdata
  obtain rfl := Option.some.inj (hinfo.symm.trans hsame)
  have horigin : Origin dequantize gguf ⟨name,copies,index⟩ true _ := .native hinfo hdtype hread
  rw [hbytes, Nat.mul_div_cancel_left _ hcopies] at horigin
  refine ⟨?_,horigin⟩
  rw [Quant.length_part]
  omega

lemma readLayerTensor_ok (h : readLayerTensor gguf copies name size = .ok data) :
    readTensor gguf name = .ok data ∧ copies*size ≤ data.length := by
  obtain ⟨buf,hbuf,h⟩ := bind_eq_ok.mp h
  cases hneed : checkedMul usizeMax copies size with
  | none =>
    rw [hneed] at h
    cases h
  | some need =>
    obtain ⟨-,rfl⟩ := checkedMul_eq_some.mp hneed
    rw [hneed] at h
    dsimp only at h
    split_ifs at h with hshort
    cases h
    exact ⟨hbuf,Nat.not_lt.mp hshort⟩

lemma loaded_layer (hscanned : Scanned gguf weights copies name spec)
    (hsize : size = spec.payloadBytes) (h : readLayerTensor gguf copies name size = .ok data)
    (hindex : index<copies) :
    Loaded dequantize gguf ⟨name,copies,index⟩ spec (part data (index*size) size) := by
  subst hsize
  obtain ⟨hdata,hlength⟩ := readLayerTensor_ok h
  apply loaded_part hscanned hdata (Nat.zero_lt_of_lt hindex)
  rw [← Nat.succ_mul]
  exact (Nat.mul_le_mul_right _ hindex).trans hlength

lemma loaded_perExpert (hscanned : Scanned gguf weights 1 name spec)
    (hsize : size = spec.payloadBytes) (h : readPerExpert gguf name size = .ok bytes) :
    Loaded dequantize gguf ⟨name,1,0⟩ spec bytes := by
  subst hsize
  obtain ⟨data,hdata,h⟩ := bind_eq_ok.mp h
  split_ifs at h with hshort
  cases h
  have hloaded := @loaded_part gguf dequantize name weights 1 0 spec data hscanned hdata
    Nat.one_pos (by omega)
  rwa [Nat.zero_mul, part, List.drop_zero] at hloaded

lemma loaded_slice (hscanned : Scanned gguf weights copies name spec)
    (hread : readLayerTensor gguf copies name size = .ok data) (hcopies : 0<copies)
    (h : sliceBytes data index spec = .ok bytes) :
    Loaded dequantize gguf ⟨name,copies,index⟩ spec bytes := by
  unfold sliceBytes at h
  cases hstart : checkedMul usizeMax index spec.payloadBytes with
  | none =>
    rw [hstart] at h
    cases h
  | some start =>
    obtain ⟨-,rfl⟩ := checkedMul_eq_some.mp hstart
    rw [hstart] at h
    dsimp only at h
    cases hstop : checkedAdd usizeMax (index*spec.payloadBytes) spec.payloadBytes with
    | none =>
      rw [hstop] at h
      cases h
    | some stop =>
      obtain ⟨-,rfl⟩ := checkedAdd_eq_some.mp hstop
      rw [hstop] at h
      dsimp only at h
      split_ifs at h with hshort
      cases h
      rw [Nat.add_sub_cancel_left]
      exact loaded_part hscanned (readLayerTensor_ok hread).1 hcopies (Nat.not_lt.mp hshort)

/-- All bytes of an expert. -/
structure MatricesLoaded (dequantize : Dequantize) (gguf : GgufSource) (home : String → Home)
    (layout : ProjectionQuantLayout) (matrices : Matrices UInt8) : Prop where
  gate : Loaded dequantize gguf (home "gate") layout.gate matrices.gate
  up : Loaded dequantize gguf (home "up") layout.up matrices.up
  down : Loaded dequantize gguf (home "down") layout.down matrices.down

end Bytes

section Layers

/-- For a plan of one dtype the size that the loader computes is every projection's own. -/
lemma homogeneous_size (hlayouts : AllScanned gguf geometry layouts) {dtype : WeightDtype}
    (hdtype : homogeneousDtype layouts = some dtype) {block : ℕ × ℕ}
    (hblock : nativeBlockSpec dtype = some block)
    (haligned : block.1 ∣ geometry.dFf*geometry.dModel) (hlayer : layer<geometry.numLayers)
    {expert : ℕ} (hexpert : expert<geometry.numExperts) :
    ∃ layout, layout ∈ layouts ∧ LayoutScanned gguf (geometry.dFf*geometry.dModel)
        (home gguf geometry.numExperts layer expert) layout ∧
      ∀ spec ∈ layout.specs, spec.weights = geometry.dFf*geometry.dModel →
        geometry.dFf*geometry.dModel/block.1*block.2 = spec.payloadBytes := by
  obtain ⟨layout,hget,hscanned⟩ := hlayouts.layout layer hlayer expert hexpert
  have hlayout := List.mem_of_getElem? hget
  refine ⟨layout,hlayout,hscanned,fun spec hspec hw => ?_⟩
  have hsame := spec.block_eq
  rw [(spec_of_homogeneous hdtype hlayout hspec).1, hblock] at hsame
  cases Option.some.inj hsame
  rw [spec.payload_blocks, hw, divCeil_of_dvd (block_bounds spec.block_eq).1
    (Nat.mod_eq_zero_of_dvd haligned)]

/-- The bytes of every expert of a layer, for a plan of one dtype. -/
lemma loadNativeQuant_ok (hlayouts : AllScanned gguf geometry layouts) {dtype : WeightDtype}
    (hdtype : homogeneousDtype layouts = some dtype) (hlayer : layer<geometry.numLayers)
    {perExpert : List (Matrices UInt8)}
    (h : loadLayerExpertNativeQuant gguf layer geometry.numExperts geometry.dModel geometry.dFf dtype =
      .ok perExpert) : perExpert.length = geometry.numExperts ∧
      ∀ expert, expert<geometry.numExperts → ∃ matrices layout, perExpert[expert]? = some matrices ∧
        layout ∈ layouts ∧ LayoutScanned gguf (geometry.dFf*geometry.dModel)
          (home gguf geometry.numExperts layer expert) layout ∧
        MatricesLoaded dequantize gguf (home gguf geometry.numExperts layer expert) layout matrices := by
  unfold loadLayerExpertNativeQuant at h
  cases hblock : nativeBlockSpec dtype with
  | none =>
    rw [hblock] at h
    cases h
  | some block =>
    rw [hblock] at h
    dsimp only at h
    cases hweights : checkedMul usizeMax geometry.dFf geometry.dModel with
    | none =>
      rw [hweights] at h
      cases h
    | some weights =>
      obtain ⟨-,rfl⟩ := checkedMul_eq_some.mp hweights
      rw [hweights] at h
      dsimp only at h
      obtain hrest | haligned := em (geometry.dFf*geometry.dModel % block.1 ≠ 0)
      · rw [if_pos hrest] at h
        cases h
      rw [if_neg haligned] at h
      cases hsize : checkedMul usizeMax (geometry.dFf*geometry.dModel/block.1) block.2 with
      | none =>
        rw [hsize] at h
        cases h
      | some size =>
        obtain ⟨-,rfl⟩ := checkedMul_eq_some.mp hsize
        rw [hsize] at h
        dsimp only at h
        have hdvd := Nat.dvd_of_mod_eq_zero (not_not.mp haligned)
        have hsizes := fun expert => @homogeneous_size gguf geometry layouts layer hlayouts dtype
          hdtype block hblock hdvd hlayer expert
        split_ifs at h with hinterleaved
        · obtain ⟨gateAll,hgate,h⟩ := bind_eq_ok.mp h
          obtain ⟨upAll,hup,h⟩ := bind_eq_ok.mp h
          obtain ⟨downAll,hdown,h⟩ := bind_eq_ok.mp h
          cases h
          refine ⟨by simp,fun expert hexpert => ?_⟩
          obtain ⟨layout,hmem,hscanned,hsize⟩ := hsizes expert hexpert
          refine ⟨_,layout,Chunks.getElem?_map_range _ hexpert,hmem,hscanned,?_⟩
          rw [home_interleaved hinterleaved] at hscanned ⊢
          exact ⟨loaded_layer hscanned.gate (hsize _ (by simp [ProjectionQuantLayout.specs])
              hscanned.gate.weights) hgate hexpert,
            loaded_layer hscanned.up (hsize _ (by simp [ProjectionQuantLayout.specs])
              hscanned.up.weights) hup hexpert,
            loaded_layer hscanned.down (hsize _ (by simp [ProjectionQuantLayout.specs])
              hscanned.down.weights) hdown hexpert⟩
        · obtain ⟨hlength,hturn⟩ := of_mapM_range h
          refine ⟨hlength,fun expert hexpert => ?_⟩
          obtain ⟨layout,hmem,hscanned,hsize⟩ := hsizes expert hexpert
          obtain ⟨matrices,hget,hturn⟩ := hturn expert hexpert
          obtain ⟨gate,hgate,hturn⟩ := bind_eq_ok.mp hturn
          obtain ⟨up,hup,hturn⟩ := bind_eq_ok.mp hturn
          obtain ⟨down,hdown,hturn⟩ := bind_eq_ok.mp hturn
          cases hturn
          refine ⟨_,layout,hget,hmem,hscanned,?_⟩
          rw [home_perExpert hinterleaved] at hscanned ⊢
          exact ⟨loaded_perExpert hscanned.gate (hsize _ (by simp [ProjectionQuantLayout.specs])
              hscanned.gate.weights) hgate,
            loaded_perExpert hscanned.up (hsize _ (by simp [ProjectionQuantLayout.specs])
              hscanned.up.weights) hup,
            loaded_perExpert hscanned.down (hsize _ (by simp [ProjectionQuantLayout.specs])
              hscanned.down.weights) hdown⟩

lemma layoutAt_ok {index : ℕ} {what : String} {layout : ProjectionQuantLayout}
    (h : layoutAt layouts index what = .ok layout) : layouts[index]? = some layout := by
  unfold layoutAt at h
  cases hget : layouts[index]? with
  | none =>
    rw [hget] at h
    cases h
  | some found =>
    rw [hget] at h
    cases h
    rfl

/-- The turn for one expert: its layout, and a matrix for each of its projections. -/
lemma of_mixedTurn {index : ℕ} {layout : ProjectionQuantLayout}
    {loadGate loadUp loadDown : ProjectionQuantLayout → Except Failure (List UInt8)}
    {entry : ProjectionQuantLayout × Matrices UInt8} (hlayout : layouts[index]? = some layout)
    (h : (do
      let layout ← layoutAt layouts index "expert"
      let gate ← loadGate layout
      let up ← loadUp layout
      let down ← loadDown layout
      return (layout,⟨gate,up,down⟩)) = Except.ok entry) :
    entry.1 = layout ∧ loadGate layout = .ok entry.2.gate ∧ loadUp layout = .ok entry.2.up ∧
      loadDown layout = .ok entry.2.down := by
  obtain ⟨layout',hsame,h⟩ := bind_eq_ok.mp h
  obtain rfl := Option.some.inj (hlayout.symm.trans (layoutAt_ok hsame))
  obtain ⟨gate,hgate,h⟩ := bind_eq_ok.mp h
  obtain ⟨up,hup,h⟩ := bind_eq_ok.mp h
  obtain ⟨down,hdown,h⟩ := bind_eq_ok.mp h
  cases h
  exact ⟨rfl,hgate,hup,hdown⟩

/-- The bytes of every expert of a layer, for a plan of layouts. -/
lemma loadNativeMixed_ok (hlayouts : AllScanned gguf geometry layouts)
    (hlayer : layer<geometry.numLayers) {perExpert : List (ProjectionQuantLayout × Matrices UInt8)}
    (h : loadLayerExpertNativeMixed gguf layer geometry.numExperts layouts = .ok perExpert) :
    perExpert.length = geometry.numExperts ∧
      ∀ expert, expert<geometry.numExperts → ∃ matrices layout,
        perExpert[expert]? = some (layout,matrices) ∧
        layouts[layer*geometry.numExperts+expert]? = some layout ∧
        LayoutScanned gguf (geometry.dFf*geometry.dModel)
          (home gguf geometry.numExperts layer expert) layout ∧
        MatricesLoaded dequantize gguf (home gguf geometry.numExperts layer expert) layout matrices := by
  unfold loadLayerExpertNativeMixed at h
  cases hbase : checkedMul usizeMax layer geometry.numExperts with
  | none =>
    rw [hbase] at h
    cases h
  | some base =>
    obtain ⟨-,rfl⟩ := checkedMul_eq_some.mp hbase
    rw [hbase] at h
    dsimp only at h
    have hscan := hlayouts.layout layer hlayer
    split_ifs at h with hinterleaved
    · obtain ⟨first,hfirst,h⟩ := bind_eq_ok.mp h
      obtain ⟨gateAll,hgateAll,h⟩ := bind_eq_ok.mp h
      obtain ⟨upAll,hupAll,h⟩ := bind_eq_ok.mp h
      obtain ⟨downAll,hdownAll,h⟩ := bind_eq_ok.mp h
      obtain ⟨hlength,hturn⟩ := of_mapM_range h
      refine ⟨hlength,fun expert hexpert => ?_⟩
      obtain ⟨layout,hlayout,hscanned⟩ := hscan expert hexpert
      obtain ⟨⟨entryLayout,matrices⟩,hget,hturn⟩ := hturn expert hexpert
      obtain ⟨rfl,hgate,hup,hdown⟩ := of_mixedTurn hlayout hturn
      refine ⟨_,_,hget,hlayout,hscanned,?_⟩
      rw [home_interleaved hinterleaved] at hscanned ⊢
      have hcopies := Nat.zero_lt_of_lt hexpert
      exact ⟨loaded_slice hscanned.gate hgateAll hcopies hgate,
        loaded_slice hscanned.up hupAll hcopies hup,loaded_slice hscanned.down hdownAll hcopies hdown⟩
    · obtain ⟨hlength,hturn⟩ := of_mapM_range h
      refine ⟨hlength,fun expert hexpert => ?_⟩
      obtain ⟨layout,hlayout,hscanned⟩ := hscan expert hexpert
      obtain ⟨⟨entryLayout,matrices⟩,hget,hturn⟩ := hturn expert hexpert
      obtain ⟨rfl,hgate,hup,hdown⟩ := of_mixedTurn hlayout hturn
      refine ⟨_,_,hget,hlayout,hscanned,?_⟩
      rw [home_perExpert hinterleaved] at hscanned ⊢
      exact ⟨loaded_perExpert hscanned.gate rfl hgate,loaded_perExpert hscanned.up rfl hup,
        loaded_perExpert hscanned.down rfl hdown⟩

end Layers

section Values
variable {name shape : String} {expected index size copies : ℕ} {values : List UInt32}

/-- All values of an expert in a tensor. -/
structure Decoded (dequantize : Dequantize) (gguf : GgufSource) (home : Home) (size : ℕ)
    (values : List UInt32) : Prop where
  length : values.length = size
  origin : Origin dequantize gguf home false (.floats values)

structure MatricesDecoded (dequantize : Dequantize) (gguf : GgufSource) (home : String → Home)
    (size : ℕ) (matrices : Matrices UInt32) : Prop where
  gate : Decoded dequantize gguf (home "gate") size matrices.gate
  up : Decoded dequantize gguf (home "up") size matrices.up
  down : Decoded dequantize gguf (home "down") size matrices.down

lemma tensorF32_ok (h : tensorF32 dequantize gguf name shape expected = .ok values) :
    values.length = expected ∧ ∃ info, gguf.tensorInfo name = some info ∧
      denseTensorToF32 dequantize gguf info = .ok values := by
  unfold tensorF32 at h
  cases hinfo : gguf.tensorInfo name with
  | none =>
    rw [hinfo] at h
    cases h
  | some info =>
    rw [hinfo] at h
    obtain ⟨v,hv,h⟩ := bind_eq_ok.mp h
    split_ifs at h with hlength
    cases h
    exact ⟨not_not.mp hlength,info,rfl,hv⟩

lemma decoded_share (h : tensorF32 dequantize gguf name shape (copies*size) = .ok values)
    (hindex : index<copies) : Decoded dequantize gguf ⟨name,copies,index⟩ size
      (loadLayerExpertMatrices.slice values (index*size) size) := by
  obtain ⟨hlength,info,hinfo,hvalues⟩ := tensorF32_ok h
  have horigin : Origin dequantize gguf ⟨name,copies,index⟩ false _ := .decoded hinfo hvalues
  rw [hlength, Nat.mul_div_cancel_left _ (Nat.zero_lt_of_lt hindex)] at horigin
  exact ⟨Chunks.length_share hindex hlength.ge,horigin⟩

lemma decoded_all (h : tensorF32 dequantize gguf name shape size = .ok values) :
    Decoded dequantize gguf ⟨name,1,0⟩ size values := by
  obtain ⟨hlength,info,hinfo,hvalues⟩ := tensorF32_ok h
  have horigin : Origin dequantize gguf ⟨name,1,0⟩ false _ := .decoded hinfo hvalues
  rw [Nat.div_one, Chunks.share, Nat.zero_mul, List.drop_zero, List.take_length] at horigin
  exact ⟨hlength,horigin⟩

/-- The values of every expert of a layer. -/
lemma loadMatrices_ok {numExperts dModel dFf : ℕ} {perExpert : List (Matrices UInt32)}
    (h : loadLayerExpertMatrices dequantize gguf layer numExperts dModel dFf = .ok perExpert) :
    perExpert.length = numExperts ∧ ∀ expert, expert<numExperts → ∃ matrices,
      perExpert[expert]? = some matrices ∧
        MatricesDecoded dequantize gguf (home gguf numExperts layer expert) (dFf*dModel) matrices := by
  unfold loadLayerExpertMatrices at h
  split_ifs at h with hinterleaved hper
  · obtain ⟨gateAll,hgate,h⟩ := bind_eq_ok.mp h
    obtain ⟨upAll,hup,h⟩ := bind_eq_ok.mp h
    obtain ⟨downAll,hdown,h⟩ := bind_eq_ok.mp h
    cases h
    rw [Nat.mul_assoc] at hgate hup hdown
    rw [Nat.mul_comm dModel dFf] at hdown
    refine ⟨by simp,fun expert hexpert => ⟨_,Chunks.getElem?_map_range _ hexpert,?_⟩⟩
    rw [home_interleaved hinterleaved]
    refine ⟨decoded_share hgate hexpert,decoded_share hup hexpert,?_⟩
    rw [Nat.mul_comm dModel dFf]
    exact decoded_share hdown hexpert
  · obtain ⟨hlength,hturn⟩ := of_mapM_range h
    refine ⟨hlength,fun expert hexpert => ?_⟩
    obtain ⟨matrices,hget,hturn⟩ := hturn expert hexpert
    unfold loadExpertMatrices at hturn
    split_ifs at hturn
    obtain ⟨gate,hgate,hturn⟩ := bind_eq_ok.mp hturn
    obtain ⟨up,hup,hturn⟩ := bind_eq_ok.mp hturn
    obtain ⟨down,hdown,hturn⟩ := bind_eq_ok.mp hturn
    cases hturn
    rw [Nat.mul_comm dModel dFf] at hdown
    refine ⟨_,hget,?_⟩
    rw [home_perExpert hinterleaved]
    exact ⟨decoded_all hgate,decoded_all hup,decoded_all hdown⟩

end Values

end MicroExpertRouter.Converter
