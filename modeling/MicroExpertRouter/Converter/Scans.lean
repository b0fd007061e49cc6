import MicroExpertRouter.Converter.Readers

/-! What the scan of the dtypes and the plan say of the tensors of the source. -/
namespace MicroExpertRouter.Converter
open Gguf (GgufTensorInfo)
open Quant (WeightDtype projectionWeightBytesFor)

/-- A tensor holds so many experts of the specification. -/
structure Scanned (gguf : GgufSource) (weights copies : ℕ) (name : String)
    (spec : ProjectionQuantSpec) : Prop where
  weights : spec.weights = weights
  tensor : ∃ info, gguf.tensorInfo name = some info ∧
    ggmlToWeightDtype info.ggmlDtype = some spec.dtype ∧ info.byteLen = copies*spec.payloadBytes

/-- The layout is that of an expert. -/
structure LayoutScanned (gguf : GgufSource) (weights : ℕ) (home : String → Home)
    (layout : ProjectionQuantLayout) : Prop where
  gate : Scanned gguf weights (home "gate").copies (home "gate").name layout.gate
  up : Scanned gguf weights (home "up").copies (home "up").name layout.up
  down : Scanned gguf weights (home "down").copies (home "down").name layout.down

variable {gguf : GgufSource} {weights copies numLayers numExperts layer expert : ℕ} {aligned : Bool}

lemma home_interleaved (h : gguf.hasTensor (interleavedName layer "gate")) :
    home gguf numExperts layer expert =
      fun projection => ⟨interleavedName layer projection,numExperts,expert⟩ := by
  funext projection
  exact if_pos h

lemma home_perExpert (h : ¬ gguf.hasTensor (interleavedName layer "gate")) :
    home gguf numExperts layer expert = fun projection => ⟨perExpertName layer expert projection,1,0⟩ := by
  funext projection
  exact if_neg h

section Projections
variable {info : GgufTensorInfo} {spec : ProjectionQuantSpec} {label name : String}

lemma spec_of_tensor (h : nativeSpecForTensor info weights aligned label = .ok spec) :
    ggmlToWeightDtype info.ggmlDtype = some spec.dtype ∧ spec.weights = weights := by
  unfold nativeSpecForTensor at h
  cases hdtype : ggmlToWeightDtype info.ggmlDtype with
  | none =>
    rw [hdtype] at h
    cases h
  | some dtype =>
    rw [hdtype] at h
    dsimp only at h
    split at h
    · cases h
    · split_ifs at h
      split at h
      · cases h
      · cases h
        exact ⟨rfl,rfl⟩

/-- A projection without complaints is scanned. -/
lemma scanProjection_ok {found : Option ProjectionQuantSpec}
    (h : scanProjection gguf weights aligned copies label name = .ok (found,[])) :
    ∃ spec, found = some spec ∧ Scanned gguf weights copies name spec := by
  unfold scanProjection at h
  cases hinfo : gguf.tensorInfo name with
  | none =>
    rw [hinfo] at h
    cases h
  | some info =>
    rw [hinfo] at h
    dsimp only at h
    cases hspec : nativeSpecForTensor info weights aligned label with
    | error reason =>
      rw [hspec] at h
      cases h
    | ok spec =>
      rw [hspec] at h
      dsimp only at h
      obtain ⟨hdtype,hweights⟩ := spec_of_tensor hspec
      cases hexpected : checkedMul usizeMax copies spec.payloadBytes with
      | none =>
        rw [hexpected] at h
        cases h
      | some expected =>
        rw [hexpected] at h
        obtain ⟨rfl,hreasons⟩ := Prod.mk.inj (Except.ok.inj h)
        refine ⟨spec,rfl,hweights,info,hinfo,hdtype,?_⟩
        rw [(checkedMul_eq_some.mp hexpected).2.symm]
        by_contra hlen
        rw [if_pos hlen] at hreasons
        cases hreasons

end Projections

section Layers

lemma scanProjections_ok {label name : String → String} {found : Option ProjectionQuantLayout}
    (index : ℕ) (h : scanProjections gguf weights aligned copies label name = .ok (found,[])) :
    ∃ layout, found = some layout ∧
      LayoutScanned gguf weights (fun projection => ⟨name projection,copies,index⟩) layout := by
  obtain ⟨⟨gate,gateReasons⟩,hgate,h⟩ := bind_eq_ok.mp h
  obtain ⟨⟨up,upReasons⟩,hup,h⟩ := bind_eq_ok.mp h
  obtain ⟨⟨down,downReasons⟩,hdown,h⟩ := bind_eq_ok.mp h
  obtain ⟨hfound,hreasons⟩ := Prod.mk.inj (Except.ok.inj h)
  obtain ⟨rfl,rfl,rfl⟩ : gateReasons = [] ∧ upReasons = [] ∧ downReasons = [] := by
    simpa using hreasons
  obtain ⟨gateSpec,rfl,hgateSpec⟩ := scanProjection_ok hgate
  obtain ⟨upSpec,rfl,hupSpec⟩ := scanProjection_ok hup
  obtain ⟨downSpec,rfl,hdownSpec⟩ := scanProjection_ok hdown
  exact ⟨⟨gateSpec,upSpec,downSpec⟩,hfound.symm,hgateSpec,hupSpec,hdownSpec⟩

/-- A layer without complaints has the layout of every expert. -/
lemma scanLayer_ok {scan : ExpertQuantScan} (h : scanLayer gguf numExperts weights layer = .ok scan)
    (hreasons : scan.rejectionReasons = []) : scan.layouts.length = numExperts ∧
      ∀ expert, expert<numExperts → ∃ layout, scan.layouts[expert]? = some layout ∧
        LayoutScanned gguf weights (home gguf numExperts layer expert) layout := by
  unfold scanLayer at h
  split_ifs at h with hinterleaved hper
  · obtain ⟨⟨found,reasons⟩,hscan,h⟩ := bind_eq_ok.mp h
    cases h
    obtain rfl : reasons = [] := hreasons
    obtain ⟨layout,rfl,-⟩ := scanProjections_ok 0 hscan
    refine ⟨by simp,fun expert hexpert => ⟨layout,by simp [hexpert],?_⟩⟩
    obtain ⟨layout',hsame,hlayout⟩ := scanProjections_ok expert hscan
    cases hsame
    rw [home_interleaved hinterleaved]
    exact hlayout
  · obtain ⟨scanned,hscan,h⟩ := bind_eq_ok.mp h
    cases h
    obtain ⟨hlength,hturn⟩ := of_mapM_range hscan
    have hnone : ∀ entry ∈ scanned, entry.2 = [] := List.flatMap_eq_nil_iff.mp hreasons
    have hentry : ∀ expert, expert<numExperts → ∃ layout, scanned[expert]? = some (some layout,[]) ∧
        LayoutScanned gguf weights (home gguf numExperts layer expert) layout := by
      intro expert hexpert
      obtain ⟨⟨found,reasons⟩,hget,hturn⟩ := hturn expert hexpert
      obtain rfl : reasons = [] := hnone _ (List.mem_of_getElem? hget)
      obtain ⟨layout,rfl,hlayout⟩ := scanProjections_ok 0 hturn
      rw [home_perExpert hinterleaved]
      exact ⟨layout,hget,hlayout⟩
    have hsome : ∀ entry ∈ scanned, (Prod.fst entry).isSome := by
      intro entry hmem
      obtain ⟨expert,hget⟩ := List.mem_iff_getElem?.mp hmem
      obtain ⟨layout,hsame,-⟩ := hentry expert
        (hlength ▸ (List.getElem?_eq_some_iff.mp hget).1)
      rw [Option.some.inj (hget.symm.trans hsame)]
      rfl
    refine ⟨(List.filterMap_length_eq_length.mpr hsome).trans hlength,fun expert hexpert => ?_⟩
    obtain ⟨layout,hget,hlayout⟩ := hentry expert hexpert
    refine ⟨layout,?_,hlayout⟩
    change (scanned.filterMap Prod.fst)[expert]? = _
    rw [Chunks.getElem?_filterMap hsome, hget]
    rfl
  · cases h
    cases hreasons

/-- The layouts of all experts, by their global ids. -/
structure AllScanned (gguf : GgufSource) (geometry : Geometry)
    (layouts : List ProjectionQuantLayout) : Prop where
  length : layouts.length = geometry.numLayers*geometry.numExperts
  layout : ∀ layer, layer<geometry.numLayers → ∀ expert, expert<geometry.numExperts →
    ∃ layout, layouts[layer*geometry.numExperts+expert]? = some layout ∧
      LayoutScanned gguf (geometry.dFf*geometry.dModel)
        (home gguf geometry.numExperts layer expert) layout

lemma scanExpertQuantLayouts_ok {geometry : Geometry} {scan : ExpertQuantScan}
    (h : scanExpertQuantLayouts gguf geometry.numLayers geometry.numExperts geometry.dModel
      geometry.dFf = .ok scan) (hreasons : scan.rejectionReasons = []) :
    AllScanned gguf geometry scan.layouts := by
  unfold scanExpertQuantLayouts at h
  cases hweights : checkedMul usizeMax geometry.dFf geometry.dModel with
  | none =>
    rw [hweights] at h
    cases h
  | some weights =>
    obtain ⟨-,rfl⟩ := checkedMul_eq_some.mp hweights
    rw [hweights] at h
    obtain ⟨layers,hlayers,h⟩ := bind_eq_ok.mp h
    cases h
    obtain ⟨hlength,hturn⟩ := of_mapM_range hlayers
    have hnone : ∀ scan ∈ layers, scan.rejectionReasons = [] := List.flatMap_eq_nil_iff.mp hreasons
    have hlayer : ∀ layer, layer<geometry.numLayers → ∃ scan, layers[layer]? = some scan ∧
        scan.layouts.length = geometry.numExperts ∧ ∀ expert, expert<geometry.numExperts →
          ∃ layout, scan.layouts[expert]? = some layout ∧
            LayoutScanned gguf (geometry.dFf*geometry.dModel)
              (home gguf geometry.numExperts layer expert) layout := by
      intro layer hlt
      obtain ⟨scan,hget,hscan⟩ := hturn layer hlt
      exact ⟨scan,hget,scanLayer_ok hscan (hnone scan (List.mem_of_getElem? hget))⟩
    have hchunks : ∀ chunk ∈ layers.map (·.layouts), chunk.length = geometry.numExperts := by
      intro chunk hmem
      obtain ⟨scan,hscan,rfl⟩ := List.mem_map.mp hmem
      obtain ⟨layer,hget⟩ := List.mem_iff_getElem?.mp hscan
      obtain ⟨scan',hsame,hexperts,-⟩ := hlayer layer
        (hlength ▸ (List.getElem?_eq_some_iff.mp hget).1)
      rw [Option.some.inj (hget.symm.trans hsame), hexperts]
    constructor
    · change (layers.flatMap (·.layouts)).length = _
      rw [List.flatMap_def, Chunks.length_flatten hchunks, List.length_map, hlength]
    · intro layer hlt expert hexpert
      obtain ⟨scan,hget,-,hlayouts⟩ := hlayer layer hlt
      obtain ⟨layout,hlayout,hscanned⟩ := hlayouts expert hexpert
      refine ⟨layout,?_,hscanned⟩
      change (layers.flatMap (·.layouts))[_]? = _
      rw [List.flatMap_def, Chunks.getElem?_flatten hchunks (by rw [List.getElem?_map, hget]; rfl)
        hexpert, hlayout]

end Layers

section Plan

/-- What a plan is made of. -/
inductive Planned (gguf : GgufSource) (geometry : Geometry) : Bool → Option NativeQuantPlan → Prop
  | floats : Planned gguf geometry false none
  | homogeneous {layouts : List ProjectionQuantLayout} {dtype : WeightDtype}
      (hlayouts : AllScanned gguf geometry layouts) (hdtype : homogeneousDtype layouts = some dtype) :
      Planned gguf geometry true (some (.homogeneous dtype))
  | mixed {layouts : List ProjectionQuantLayout} {payloads : List ℕ} {expertSize : ℕ}
      (hlayouts : AllScanned gguf geometry layouts)
      (hpayloads : layouts.mapM (·.payloadBytes) = some payloads) :
      Planned gguf geometry true (some (.mixed layouts
        (alignUp (payloads.foldl max 0) defaultBlockAlign) expertSize (tally (layouts.map (·.key)))))

lemma nativePlan_ok {geometry : Geometry} {opts : ExtractOptions} {plan : Option NativeQuantPlan}
    (h : nativePlan gguf geometry opts = .ok plan) : Planned gguf geometry opts.nativeQuant plan := by
  unfold nativePlan at h
  split_ifs at h with hnative
  · obtain ⟨scan,hscan,h⟩ := bind_eq_ok.mp h
    split_ifs at h with hreasons
    obtain ⟨made,hmade,h⟩ := bind_eq_ok.mp h
    cases h
    have hlayouts := scanExpertQuantLayouts_ok hscan (not_not.mp hreasons)
    rw [hnative]
    unfold ExpertQuantScan.intoPlan at hmade
    obtain hempty | hfull := em (scan.layouts = [])
    · rw [if_pos hempty] at hmade
      cases hmade
    rw [if_neg hfull] at hmade
    cases hdtype : homogeneousDtype scan.layouts with
    | some dtype =>
      rw [hdtype] at hmade
      cases hmade
      exact .homogeneous hlayouts hdtype
    | none =>
      rw [hdtype] at hmade
      dsimp only at hmade
      split_ifs at hmade with huth
      cases hpayloads : scan.layouts.mapM (·.payloadBytes) with
      | none =>
        rw [hpayloads] at hmade
        cases hmade
      | some payloads =>
        rw [hpayloads] at hmade
        dsimp only at hmade
        cases hsize : checkedAdd usizeMax
            (alignUp (payloads.foldl max 0) defaultBlockAlign) defaultBlockAlign with
        | none =>
          rw [hsize] at hmade
          cases hmade
        | some expertSize =>
          rw [hsize] at hmade
          cases hmade
          exact .mixed hlayouts hpayloads
  · cases h
    rw [Bool.eq_false_iff.mpr hnative]
    exact .floats

/-- The projections of a layout. -/
def ProjectionQuantLayout.specs (self : ProjectionQuantLayout) : List ProjectionQuantSpec :=
  [self.gate,self.up,self.down]

lemma spec_of_homogeneous {layouts : List ProjectionQuantLayout} {dtype : WeightDtype}
    (h : homogeneousDtype layouts = some dtype) {layout : ProjectionQuantLayout}
    (hlayout : layout ∈ layouts) {spec : ProjectionQuantSpec} (hspec : spec ∈ layout.specs) :
    spec.dtype = dtype ∧ spec.weights % spec.blockElems = 0 := by
  obtain ⟨first,-,h⟩ := Option.bind_eq_some_iff.mp h
  obtain ⟨dtype',-,h⟩ := Option.bind_eq_some_iff.mp h
  obtain ⟨⟨hall,haligned⟩,h⟩ := Option.ite_none_right_eq_some.mp h
  cases h
  have hsame : layout.uniformDtype = some dtype := of_decide_eq_true (List.all_eq_true.mp hall _ hlayout)
  have hblocks := List.all_eq_true.mp haligned _ hlayout
  unfold ProjectionQuantLayout.uniformDtype at hsame
  obtain ⟨⟨hup,hdown⟩,hgate⟩ := Option.ite_none_right_eq_some.mp hsame
  refine ⟨?_,of_decide_eq_true (List.all_eq_true.mp hblocks _ hspec)⟩
  rw [← Option.some.inj hgate]
  simp only [ProjectionQuantLayout.specs, List.mem_cons, List.not_mem_nil, or_false] at hspec
  obtain rfl | rfl | rfl := hspec
  · rfl
  · exact hup.symm
  · exact hdown.symm

end Plan

end MicroExpertRouter.Converter
