import MicroExpertRouter.Residency.LruOracle

/-! Whole runs of the residency manager and of its LRU oracle over the same demand sets, from an
empty layer. -/
namespace MicroExpertRouter.Oracle.ProductionLruSimulation
open Residency

section Access
variable {self : ProductionLruSimulation} {ids : List ℕ}

/-- The scan in closed form. -/
lemma foldl_scan (hnodup : ids.Nodup) (scan : Scan (List ℕ)) :
    ids.foldl visit scan =
      { residents := (ids.filter (· ∈ scan.residents)).foldl (fun lru id => touch id lru)
          scan.residents
        everSeen := scan.everSeen ∪ (ids.filter (fun id => !decide (id ∈ scan.residents))).toFinset
        misses := scan.misses++ids.filter (fun id => !decide (id ∈ scan.residents))
        counts := { scan.counts with
          cacheHits := scan.counts.cacheHits+(ids.filter (· ∈ scan.residents)).length
          missingInstalls := scan.counts.missingInstalls+
            (ids.filter (fun id => !decide (id ∈ scan.residents))).length
          compulsoryColdInstalls := scan.counts.compulsoryColdInstalls+
            (ids.filter (fun id => !decide (id ∈ scan.residents) &&
              decide (id ∉ scan.everSeen))).length } } :=
  foldl_visit (fun (lru : List ℕ) id x (h : decide (id ∈ lru) = true) =>
    decide_eq_decide.mpr (mem_touch (of_decide_eq_true h) x)) ids hnodup scan

/-- The scan of an access, without the counters of the run. -/
def scanned (self : ProductionLruSimulation) (ids : List ℕ) : Scan (List ℕ) :=
  ids.foldl visit ⟨self.lru,self.everSeen,[],{}⟩

/-- After an access whose eviction loop leaves these residents. -/
structure Accessed (sim : ProductionLruSimulation) (counts : PolicyCounts) (ids left : List ℕ)
    (next : ProductionLruSimulation) (total : PolicyCounts) : Prop where
  access : sim.access counts ids = .ok (next,total)
  capacity : next.capacity = sim.capacity
  lru : next.lru = left++(sim.scanned ids).misses
  references : total.routeReferences = counts.routeReferences+ids.length
  hits : total.cacheHits = counts.cacheHits+(sim.observed ids).hits.length
  installs : total.missingInstalls = counts.missingInstalls+(sim.observed ids).misses.length

/-- An access that validation lets through fails on the reference counter only. -/
lemma serve_counted {accesses : List (List ℕ)} :
    ∀ {self : ProductionLruSimulation} {counts : PolicyCounts}, self.Good →
      (∀ ids ∈ accesses, ValidIds self.capacity self.experts ids) →
      counts.routeReferences+references accesses ≤ u64Max →
      ∃ last total, self.serve counts accesses = .ok (last,total) := by
  induction accesses with
  | nil => exact fun {self counts} _ _ _ => ⟨self,counts,rfl⟩
  | cons ids accesses ih =>
    intro self counts hgood hvalid hreferences
    obtain ⟨hfirst,hrest⟩ := List.forall_mem_cons.mp hvalid
    rw [references_cons] at hreferences
    obtain ⟨next,hnext,hcapacity,hexperts,-,-,haccess⟩ := access_eq hgood counts hfirst
    have hadd : addCount "route count overflow" counts.routeReferences ids.length =
        .ok (counts.routeReferences+ids.length) := addCount_eq_ok.mpr ⟨by omega,rfl⟩
    rw [hadd] at haccess
    unfold serve
    rw [haccess]
    refine ih hnext ?_ ?_
    · rw [hcapacity, hexperts]
      exact hrest
    · change counts.routeReferences+ids.length+_ ≤ u64Max
      omega

lemma accessed_of_loop {counts : PolicyCounts} {left : List ℕ} (hnodup : ids.Nodup)
    (hreferences : counts.routeReferences+ids.length ≤ u64Max)
    (hloop : evictUntil (fun lru => decide (lru.length+(self.scanned ids).misses.length ≤
      self.capacity)) (evict ids) (self.scanned ids).residents.length
      (self.scanned ids).residents = some left) :
    ∃ next total, self.Accessed counts ids left next total := by
  have hadd : addCount "route count overflow" counts.routeReferences ids.length =
      .ok (counts.routeReferences+ids.length) := addCount_eq_ok.mpr ⟨hreferences,rfl⟩
  set start : Scan (List ℕ) := ⟨self.lru,self.everSeen,[],
    { counts with routeReferences := counts.routeReferences+ids.length }⟩ with hstart
  have hresidents : (ids.foldl visit start).residents = (self.scanned ids).residents := by
    rw [scanned, foldl_scan hnodup, foldl_scan hnodup]
  have hmisses : (ids.foldl visit start).misses = (self.scanned ids).misses := by
    rw [scanned, foldl_scan hnodup, foldl_scan hnodup]
  have hhits : (self.observed ids).hits = ids.filter (· ∈ self.lru) := by
    change ids.filter (· ∉ (self.scanned ids).misses) = _
    rw [scanned, foldl_scan hnodup]
    apply List.filter_congr
    intro id hid
    simp [hid]
  have hinstalls : (self.observed ids).misses =
      ids.filter (fun id => !decide (id ∈ self.lru)) := by
    change (self.scanned ids).misses = _
    rw [scanned, foldl_scan hnodup]
    rfl
  have hboundary : (ids.foldl visit start).boundary.routeReferences =
        counts.routeReferences+ids.length ∧
      (ids.foldl visit start).boundary.cacheHits =
        counts.cacheHits+(ids.filter (· ∈ self.lru)).length ∧
      (ids.foldl visit start).boundary.missingInstalls = counts.missingInstalls+
        (ids.filter (fun id => !decide (id ∈ self.lru))).length := by
    unfold Scan.boundary
    rw [foldl_scan hnodup]
    split_ifs
    · exact ⟨rfl,rfl,rfl⟩
    · exact ⟨rfl,rfl,rfl⟩
  refine ⟨{ self with
    lru := left++(ids.foldl visit start).misses
    everSeen := (ids.foldl visit start).everSeen },(ids.foldl visit start).boundary,?_,rfl,?_,
    hboundary.1,?_,?_⟩
  · unfold access
    rw [hadd]
    dsimp only [bind, Except.bind]
    rw [← hstart, hmisses, hresidents, hloop]
    rfl
  · rw [← hmisses]
  · rw [hhits]
    exact hboundary.2.1
  · rw [hinstalls]
    exact hboundary.2.2

end Access

end MicroExpertRouter.Oracle.ProductionLruSimulation

namespace MicroExpertRouter.Residency
open Arena Oracle

/-- The demands of a valid call pass the checks before the lock. -/
lemma checkDemands_valid {space : Namespace} {env : Environment} {layerIndex base : ℕ}
    {seen : List ℕ} {experts : List (ℕ × Source)}
    (hidentity : ∀ expert ∈ experts, space.identity (base+expert.1) = .ok ⟨layerIndex,expert.1⟩)
    (hsource : ∀ expert ∈ experts, validateSource env (base+expert.1) expert.2 = .ok ())
    (hnodup : (experts.map Prod.fst).Nodup) (hseen : ∀ expert ∈ experts, base+expert.1 ∉ seen) :
    checkDemands space env layerIndex seen
      (experts.map fun expert => .install (base+expert.1) expert.2) = .ok () := by
  induction experts generalizing seen with
  | nil => rfl
  | cons expert experts ih =>
    obtain ⟨hnew,hnodup⟩ := List.nodup_cons.mp hnodup
    obtain ⟨hfirst,hidentity⟩ := List.forall_mem_cons.mp hidentity
    obtain ⟨hchecked,hsource⟩ := List.forall_mem_cons.mp hsource
    obtain ⟨hfresh,hseen⟩ := List.forall_mem_cons.mp hseen
    rw [List.map_cons]
    unfold checkDemands
    dsimp only [DemandExpert.globalId]
    rw [if_neg hfresh, hfirst]
    change (if layerIndex ≠ layerIndex then _ else _) = _
    rw [if_neg (not_not.mpr rfl)]
    change (do validateSource env (base+expert.1) expert.2; _) = _
    rw [hchecked]
    refine ih hidentity hsource hnodup fun other hother hmem => ?_
    rcases List.mem_cons.mp hmem with heq | hmem
    · exact hnew (List.mem_map.mpr ⟨other,hother,Nat.add_left_cancel heq⟩)
    · exact hseen other hother hmem

/-- The manager and the oracle between two demand sets, after these experts were demanded. -/
structure Tracks (layerIndex : ℕ) (m : Manager) (sim : ProductionLruSimulation)
    (layer : LayerResidency) (past : List (ℕ × Source)) : Prop where
  inStep : m.InStep
  found : m.layers[layerIndex]? = some layer
  geometry : layer.arena.geometry = m.geometry
  capacity : layer.arena.state.slotCapacity = sim.capacity
  metered : Metered layer.arena
  worn : wear layer.arena ≤ past.length
  latest : ∀ e generation, layer.arena.state.latestGenerations e = some generation →
    ∃ expert ∈ past, expert.1 = e ∧ expert.2.generation = generation
  mirrors : Mirrors (layerIndex*m.geometry.numExperts) layer sim.lru

/-- The generations of an expert do not go back. -/
def GenerationsInOrder (experts : List (ℕ × Source)) : Prop :=
  experts.Pairwise fun older newer => older.1 = newer.1 →
    older.2.generation ≤ newer.2.generation

section Step
variable {layerIndex : ℕ} {m : Manager} {sim : ProductionLruSimulation} {layer : LayerResidency}
  {past : List (ℕ × Source)} {call : DemandCall}

/-- One demand set served by both sides. -/
structure SetServed (layerIndex : ℕ) (m : Manager) (sim : ProductionLruSimulation)
    (layer : LayerResidency) (past : List (ℕ × Source)) (call : DemandCall) (counts : PolicyCounts)
    (next : Manager) (left : List ℕ) (nextSim : ProductionLruSimulation) (total : PolicyCounts)
    (nextLayer : LayerResidency) : Prop where
  geometry : next.geometry = m.geometry
  observed : m.observed layerIndex call.env
      (call.demands (layerIndex*m.geometry.numExperts)) =
    (sim.observed call.ids).map (layerIndex*m.geometry.numExperts+·)
  accessed : sim.Accessed counts call.ids left nextSim total
  worn : wear nextLayer.arena = wear layer.arena+(sim.scanned call.ids).misses.length
  tracks : Tracks layerIndex next nextSim nextLayer (past++call.experts)

/-- A valid demand set of a tracked layer gets past the checks and is served under its lock. -/
lemma Tracks.ensureDemandSet (h : Tracks layerIndex m sim layer past)
    (hvalid : call.Valid layer.arena.geometry (layerIndex*m.geometry.numExperts)
      layer.arena.state.slotCapacity) :
    m.ensureDemandSet call.env call.priority layerIndex
        (call.demands (layerIndex*m.geometry.numExperts)) .productionConcurrentDirectStaging =
      (m.setLayer layerIndex (demandLocked m.space call.env .productionConcurrentDirectStaging
          layer (call.demands (layerIndex*m.geometry.numExperts))).1,
        (demandLocked m.space call.env .productionConcurrentDirectStaging layer
          (call.demands (layerIndex*m.geometry.numExperts))).2) := by
  obtain ⟨hindex,hstep⟩ := h.inStep layerIndex layer h.found
  have hidentity : ∀ expert ∈ call.experts, m.space.identity
      (layerIndex*m.geometry.numExperts+expert.1) = .ok ⟨layerIndex,expert.1⟩ := by
    intro expert hexpert
    rw [← hindex]
    refine Namespace.identity_global hstep.valid hstep.inside ?_
    rw [← hstep.width]
    exact hvalid.inRange _ (List.mem_map_of_mem hexpert)
  have hchecked : checkDemands m.space call.env layerIndex []
      (call.demands (layerIndex*m.geometry.numExperts)) = .ok () := by
    refine checkDemands_valid hidentity (fun expert hexpert => ?_) hvalid.nodup
      fun expert _ => List.not_mem_nil
    unfold validateSource
    rw [if_neg, if_neg]
    · rw [hvalid.succeeds.source]
      exact nofun
    · rw [hvalid.resident expert hexpert, hvalid.admission expert hexpert]
      exact fun hne => hne.elim (absurd rfl) (absurd rfl)
  have hfits := hvalid.fits
  rw [DemandCall.ids, List.length_map] at hfits
  unfold Manager.ensureDemandSet
  rw [if_neg hvalid.priority, h.found]
  dsimp only
  rw [if_neg, hchecked]
  · rfl
  · rw [DemandCall.demands, List.length_map]
    exact Nat.not_lt.mpr hfits

/-- In a run whose generations do not go back, every demanded expert is current. -/
lemma Tracks.current (h : Tracks layerIndex m sim layer past)
    (hgenerations : GenerationsInOrder (past++call.experts))
    (hpositive : ∀ expert ∈ call.experts, expert.2.generation ≠ 0) :
    ∀ expert ∈ call.experts, Current layer.arena expert.1 expert.2.generation := by
  intro expert hexpert
  refine ⟨hpositive expert hexpert,fun latest hlatest => ?_⟩
  obtain ⟨older,holder,hsame,rfl⟩ := h.latest _ _ hlatest
  exact (List.pairwise_append.mp hgenerations).2.2 older holder expert hexpert hsame

/-- Both sides stay in step over a demand set that was served as the access was. -/
lemma Tracks.served {next : LayerResidency} {left : List ℕ} {nextSim : ProductionLruSimulation}
    {counts total : PolicyCounts} (h : Tracks layerIndex m sim layer past)
    (hmirrored : DemandMirrored m.space (layerIndex*m.geometry.numExperts) call layer
      (sim.scanned call.ids) next left)
    (haccessed : sim.Accessed counts call.ids left nextSim total)
    (hmisses : (sim.scanned call.ids).misses.length ≤ call.experts.length) :
    SetServed layerIndex m sim layer past call counts (m.setLayer layerIndex next) left nextSim
      total next := by
  obtain ⟨keys,hadvance,hkeys,hdemanded⟩ := hmirrored.advance
  refine ⟨rfl,?_,haccessed,?_,h.inStep.setLayer h.found hmirrored.inStep hmirrored.frame.layer,?_,
    hmirrored.frame.geometry.trans h.geometry,?_,hadvance.metered h.metered,?_,?_,?_⟩
  · unfold Manager.observed
    rw [h.found]
    dsimp only
    rw [hmirrored.observed, h.capacity]
    rfl
  · rw [hadvance.worn, hkeys]
  · rw [Manager.layers_setLayer h.found, if_pos rfl]
  · rw [hadvance.capacity, h.capacity, haccessed.capacity]
  · have hpast := h.worn
    rw [hadvance.worn, hkeys, List.length_append]
    omega
  · intro e generation hlatest
    rcases hadvance.latest e generation hlatest with hbefore | ⟨key,hkey,rfl,rfl⟩
    · obtain ⟨expert,hexpert,hsame⟩ := h.latest e generation hbefore
      exact ⟨expert,List.mem_append_left _ hexpert,hsame⟩
    · obtain ⟨expert,hexpert,hid,hgeneration⟩ := hdemanded key hkey
      exact ⟨expert,List.mem_append_right _ hexpert,hid.symm,hgeneration.symm⟩
  · rw [haccessed.lru]
    exact hmirrored.mirrors

lemma Tracks.step (h : Tracks layerIndex m sim layer past) (counts : PolicyCounts)
    (hvalid : call.Valid m.geometry (layerIndex*m.geometry.numExperts) sim.capacity)
    (hgenerations : GenerationsInOrder (past++call.experts))
    (hreferences : counts.routeReferences+call.ids.length ≤ u64Max) :
    (∃ next error, m.ensureDemandSet call.env call.priority layerIndex
        (call.demands (layerIndex*m.geometry.numExperts)) .productionConcurrentDirectStaging =
          (next,.error error) ∧ error.usedUp = true ∧ u32Max ≤ past.length+call.ids.length) ∨
    ∃ next residencies left nextSim total nextLayer, m.ensureDemandSet call.env call.priority
        layerIndex (call.demands (layerIndex*m.geometry.numExperts))
        .productionConcurrentDirectStaging = (next,.ok residencies) ∧
      SetServed layerIndex m sim layer past call counts next left nextSim total nextLayer := by
  obtain ⟨hindex,hstep⟩ := h.inStep layerIndex layer h.found
  have hbase : layerIndex*m.geometry.numExperts =
      layer.arena.layerIndex*m.space.expertsPerLayer := by
    rw [hindex]
    rfl
  have hcall : call.Valid layer.arena.geometry (layerIndex*m.geometry.numExperts)
      layer.arena.state.slotCapacity := by
    rw [h.geometry, h.capacity]
    exact hvalid
  have hmisses : (sim.scanned call.ids).misses.length ≤ call.ids.length := by
    rw [ProductionLruSimulation.scanned, ProductionLruSimulation.foldl_scan hvalid.nodup]
    exact List.length_filter_le _ _
  have hlength : call.ids.length = call.experts.length := List.length_map ..
  rcases @demandLocked_mirrors m.space layer _ call ⟨sim.lru,sim.everSeen,[],{}⟩ hstep h.mirrors
    rfl hbase h.metered hcall (h.current hgenerations hvalid.generation) with
    ⟨next,error,hnext,hused,hworn⟩ | ⟨next,residencies,left,hnext,hmirrored⟩
  · refine .inl ⟨m.setLayer layerIndex next,error,?_,hused,?_⟩
    · rw [h.ensureDemandSet hcall, hnext]
    · have hpast := h.worn
      change u32Max ≤ wear layer.arena+(sim.scanned call.ids).misses.length at hworn
      omega
  · change DemandMirrored m.space _ call layer (sim.scanned call.ids) next left at hmirrored
    have hloop := hmirrored.loop
    rw [h.capacity] at hloop
    obtain ⟨nextSim,total,haccessed⟩ :=
      ProductionLruSimulation.accessed_of_loop hvalid.nodup hreferences hloop
    refine .inr ⟨m.setLayer layerIndex next,residencies,left,nextSim,total,next,?_,
      h.served hmirrored haccessed (hlength ▸ hmisses)⟩
    rw [h.ensureDemandSet hcall, hnext]

end Step

section Runs
variable {layerIndex : ℕ}

/-- From two sides in step on, a run of the manager is one of the oracle, or ends with the arena
used up. -/
lemma Tracks.run (calls : List DemandCall) :
    ∀ {m : Manager} {sim : ProductionLruSimulation} {layer : LayerResidency}
      {past : List (ℕ × Source)} {counts : PolicyCounts}, Tracks layerIndex m sim layer past →
      (∀ call ∈ calls,
        call.Valid m.geometry (layerIndex*m.geometry.numExperts) sim.capacity) →
      GenerationsInOrder (past++calls.flatMap DemandCall.experts) →
      counts.routeReferences+references (calls.map DemandCall.ids) ≤ u64Max →
      (∃ error, m.demandRun layerIndex calls = .error error ∧ error.usedUp = true ∧
        u32Max ≤ past.length+references (calls.map DemandCall.ids)) ∨
      ∃ sets last total,
        m.demandRun layerIndex calls =
            .ok (sets.map (ServedSet.map (layerIndex*m.geometry.numExperts+·))) ∧
          sim.servedSets counts (calls.map DemandCall.ids) = .ok sets ∧
          sim.serve counts (calls.map DemandCall.ids) = .ok (last,total) ∧
          total.cacheHits = counts.cacheHits+(sets.map fun set => set.trace.hits.length).sum ∧
          total.missingInstalls =
            counts.missingInstalls+(sets.map fun set => set.trace.misses.length).sum := by
  induction calls with
  | nil =>
    intro m sim layer past counts h hvalid hgenerations hreferences
    exact .inr ⟨[],sim,counts,rfl,rfl,rfl,rfl,rfl⟩
  | cons call calls ih =>
    intro m sim layer past counts h hvalid hgenerations hreferences
    obtain ⟨hfirst,hrest⟩ := List.forall_mem_cons.mp hvalid
    rw [List.flatMap_cons, ← List.append_assoc] at hgenerations
    rw [List.map_cons, references_cons] at hreferences ⊢
    have hlength : call.ids.length = call.experts.length := List.length_map ..
    unfold Manager.demandRun
    dsimp only
    rcases h.step counts hfirst (List.pairwise_append.mp hgenerations).1 (by omega) with
      ⟨next,error,hcall,hused,hworn⟩ |
        ⟨next,residencies,left,nextSim,total,nextLayer,hcall,hserved⟩
    · rw [hcall]
      exact .inl ⟨error,rfl,hused,by omega⟩
    rw [hcall]
    dsimp only
    have haccessed := hserved.accessed
    have hvalid' : ∀ call ∈ calls,
        call.Valid next.geometry (layerIndex*next.geometry.numExperts) nextSim.capacity := by
      rw [hserved.geometry, haccessed.capacity]
      exact hrest
    have hcounted : total.routeReferences+references (calls.map DemandCall.ids) ≤ u64Max := by
      rw [haccessed.references]
      omega
    rcases ih hserved.tracks hvalid' hgenerations hcounted with
      ⟨error,hrun,hused,hworn⟩ | ⟨sets,last,final,hrun,hsets,hserve,hhits,hinstalls⟩
    · rw [hrun]
      rw [List.length_append] at hworn
      exact .inl ⟨error,rfl,hused,by omega⟩
    · have hrecency : next.recency layerIndex =
          nextSim.lru.map (layerIndex*m.geometry.numExperts+·) := by
        unfold Manager.recency
        rw [hserved.tracks.found, ← hserved.geometry]
        exact hserved.tracks.mirrors
      refine .inr ⟨⟨sim.observed call.ids,nextSim.lru⟩::sets,last,final,?_,?_,?_,?_,?_⟩
      · rw [hrun, hserved.observed, hrecency, hserved.geometry]
        rfl
      · unfold ProductionLruSimulation.servedSets
        rw [haccessed.access]
        change (do let rest ← nextSim.servedSets total (calls.map DemandCall.ids); _) = _
        rw [hsets]
        rfl
      · unfold ProductionLruSimulation.serve
        rw [haccessed.access]
        exact hserve
      · rw [hhits, haccessed.hits, List.map_cons, List.sum_cons, Nat.add_assoc]
      · rw [hinstalls, haccessed.installs, List.map_cons, List.sum_cons, Nat.add_assoc]

/-- What an empty layer starts with. -/
lemma emptyLayer_fresh {geometry : ExpertGeometry} {limits : DeviceLimits} {slotCapacity : ℕ}
    {layer : LayerResidency}
    (h : Manager.emptyLayer geometry limits slotCapacity layerIndex = .ok layer) :
    layer.arena.geometry = geometry ∧ layer.residents = [] ∧
      layer.arena.state.slotCapacity = slotCapacity ∧ layer.arena.state.nextInstallTicket = 1 ∧
      wear layer.arena = 0 ∧ layer.arena.state.latestGenerations = fun _ => none := by
  obtain ⟨layout,hlayout,h⟩ := bind_eq_ok.mp h
  obtain ⟨prepared,hprepared,h⟩ := bind_eq_ok.mp h
  cases h
  have hcapacity := (ArenaLayout.tryNew_wellFormed (liftBackend_eq_ok hlayout)).2
  have hprepared := liftBackend_eq_ok hprepared
  unfold validateUploads at hprepared
  rw [List.length_nil, if_neg (Nat.not_lt_zero _)] at hprepared
  obtain ⟨state,hstate,hprepared⟩ := bind_eq_ok.mp hprepared
  cases hprepared
  obtain ⟨hslots,-,hfree,-,hlatest,hticket,-⟩ := ArenaState.new_ok hstate
  refine ⟨rfl,rfl,hslots.trans hcapacity,hticket,?_,hlatest⟩
  exact Finset.sum_eq_zero fun s _ => (hfree s).2

lemma Tracks.initial {geometry : ExpertGeometry} {limits : DeviceLimits} {capacities : List ℕ}
    {m : Manager} {sim : ProductionLruSimulation} {capacity experts : ℕ}
    (hnew : Manager.tryNew geometry limits capacities = .ok m)
    (hcapacity : capacities[layerIndex]? = some capacity)
    (hsim : ProductionLruSimulation.tryNew capacity experts = .ok sim) :
    m.geometry = geometry ∧ sim.capacity = capacity ∧ sim.experts = experts ∧
      0<capacity ∧ capacity ≤ experts ∧ ∃ layer, Tracks layerIndex m sim layer [] := by
  have hstep := Manager.tryNew_inStep hnew
  obtain ⟨_,-,hnew⟩ := bind_eq_ok.mp hnew
  obtain ⟨layers,hlayers,hnew⟩ := bind_eq_ok.mp hnew
  cases hnew
  obtain ⟨_,hlegal,hsim⟩ := bind_eq_ok.mp hsim
  cases hsim
  obtain ⟨hpos,hle,-⟩ := (validateAccesses_ok_iff capacity experts []).mp hlegal
  have hplan : capacities.zipIdx[layerIndex]? = some (capacity,layerIndex) := by
    rw [List.getElem?_zipIdx, hcapacity, Nat.zero_add]
    rfl
  obtain ⟨layer,hlayer,hempty⟩ := getElem_mapM_ok hlayers layerIndex hplan
  obtain ⟨hgeometry,hresidents,hslots,hticket,hworn,hlatest⟩ := emptyLayer_fresh hempty
  refine ⟨rfl,rfl,rfl,hpos,hle,layer,hstep,hlayer,hgeometry,hslots,?_,hworn.le,?_,?_⟩
  · unfold Metered
    rw [hticket, hworn]
  · intro e generation hsome
    rw [hlatest] at hsome
    cases hsome
  · unfold Mirrors
    rw [hresidents]
    rfl

/-- The LRU oracle simulates production exactly. On an empty layer, demand sets of distinct experts
with their bytes, and nothing failing outside: set by set the manager and the oracle meet the same
hits, misses and victims and leave the same residents in the same order, and the oracle counts
what the manager met. Otherwise a call failed because its arena has no epoch or no ticket left,
which takes at least `u32::MAX` references. -/
theorem demandRun_matches_oracle {geometry : ExpertGeometry} {limits : DeviceLimits}
    {capacities : List ℕ} {m : Manager} {sim : ProductionLruSimulation} {capacity : ℕ}
    (hnew : Manager.tryNew geometry limits capacities = .ok m)
    (hcapacity : capacities[layerIndex]? = some capacity)
    (hsim : ProductionLruSimulation.tryNew capacity geometry.numExperts = .ok sim)
    {calls : List DemandCall}
    (hvalid : ∀ call ∈ calls,
      call.Valid geometry (layerIndex*geometry.numExperts) capacity)
    (hgenerations : GenerationsInOrder (calls.flatMap DemandCall.experts))
    (hreferences : references (calls.map DemandCall.ids) ≤ u64Max) :
    (∃ sets last counts,
      m.demandRun layerIndex calls =
          .ok (sets.map (ServedSet.map (layerIndex*geometry.numExperts+·))) ∧
        sim.servedSets {} (calls.map DemandCall.ids) = .ok sets ∧
        sim.run (calls.map DemandCall.ids) = .ok (last,counts) ∧
        counts.cacheHits = (sets.map fun set => set.trace.hits.length).sum ∧
        counts.missingInstalls = (sets.map fun set => set.trace.misses.length).sum) ∨
    ∃ error, m.demandRun layerIndex calls = .error error ∧ error.usedUp = true ∧
      u32Max ≤ references (calls.map DemandCall.ids) := by
  obtain ⟨rfl,rfl,hexperts,hpos,hle,layer,htracks⟩ := Tracks.initial hnew hcapacity hsim
  have hlegal : validateAccesses sim.capacity sim.experts (calls.map DemandCall.ids) = .ok () := by
    rw [validateAccesses_ok_iff, hexperts]
    refine ⟨hpos,hle,fun ids hids => ?_⟩
    obtain ⟨call,hcall,rfl⟩ := List.mem_map.mp hids
    exact ⟨(hvalid call hcall).fits,(hvalid call hcall).nodup,(hvalid call hcall).inRange⟩
  have hcounted : ({} : PolicyCounts).routeReferences+references (calls.map DemandCall.ids) ≤
      u64Max := by
    rw [Nat.zero_add]
    exact hreferences
  rcases htracks.run calls hvalid hgenerations hcounted with
    ⟨error,hrun,hused,hworn⟩ | ⟨sets,last,total,hrun,hsets,hserve,hhits,hinstalls⟩
  · rw [List.length_nil, Nat.zero_add] at hworn
    exact .inr ⟨error,hrun,hused,hworn⟩
  · rw [Nat.zero_add] at hhits hinstalls
    refine .inl ⟨sets,last,total,hrun,hsets,?_,hhits,hinstalls⟩
    unfold ProductionLruSimulation.run
    rw [hlegal]
    exact hserve

/-- One expert of a small model, always in its first generation. -/
def oneExpert (id : ℕ) : DemandCall :=
  ⟨Manager.smallEnvironment [],.demand,[(id,Manager.smallSource id)]⟩

lemma smallEnvironment_succeeds : (Manager.smallEnvironment []).Succeeds :=
  { commit := fun _ => rfl
    upload := rfl
    copies := rfl
    admission := fun _ => rfl
    source := fun _ => rfl
    acquire := fun _ => rfl
    stage := fun _ => rfl
    retire := fun _ => rfl
    write := fun _ => rfl }

lemma oneExpert_valid {id : ℕ} (hid : id<2) :
    (oneExpert id).Valid smallGeometry (0*smallGeometry.numExperts) 1 := by
  have hexpert : ∀ {p : ℕ × Source → Prop}, p (id,Manager.smallSource id) →
      ∀ expert ∈ (oneExpert id).experts, p expert := fun hp _ hmem => by
    rw [List.mem_singleton.mp hmem]
    exact hp
  refine ⟨nofun,List.nodup_singleton id,fun other hother => ?_,le_rfl,smallEnvironment_succeeds,
    hexpert ?_,hexpert ?_,hexpert ?_,hexpert nofun⟩
  · rw [List.mem_singleton.mp hother]
    exact hid
  · rw [Nat.zero_mul, Nat.zero_add]
    rfl
  · rw [Nat.zero_mul, Nat.zero_add]
    rfl
  · rfl

lemma oneExpert_generations {experts : List (ℕ × Source)}
    (h : ∀ expert ∈ experts, expert.2.generation = 1) : GenerationsInOrder experts := by
  refine List.pairwise_of_forall_mem_list fun older holder newer hnewer _ => ?_
  rw [h older holder, h newer hnewer]

/-- Expert 0 is installed, expert 1 takes its place and is then found. -/
theorem demandRun_matches_oracle_replaced :
    ∃ m sim, Manager.tryNew smallGeometry ⟨64,64⟩ [1] = .ok m ∧
      ProductionLruSimulation.tryNew 1 2 = .ok sim ∧
      sim.servedSets {} [[0],[1],[1]] =
        .ok [⟨⟨[],[0],[]⟩,[0]⟩,⟨⟨[],[1],[0]⟩,[1]⟩,⟨⟨[1],[],[]⟩,[1]⟩] ∧
      m.demandRun 0 [oneExpert 0,oneExpert 1,oneExpert 1] =
        .ok [⟨⟨[],[0],[]⟩,[0]⟩,⟨⟨[],[1],[0]⟩,[1]⟩,⟨⟨[1],[],[]⟩,[1]⟩] := by
  obtain ⟨m,hm⟩ : ∃ m, Manager.tryNew smallGeometry ⟨64,64⟩ [1] = .ok m := ⟨_,rfl⟩
  obtain ⟨sim,hsim⟩ : ∃ sim, ProductionLruSimulation.tryNew 1 2 = .ok sim := ⟨_,rfl⟩
  have hsets : sim.servedSets {} [[0],[1],[1]] =
      .ok [⟨⟨[],[0],[]⟩,[0]⟩,⟨⟨[],[1],[0]⟩,[1]⟩,⟨⟨[1],[],[]⟩,[1]⟩] := by
    cases hsim
    decide +kernel
  refine ⟨m,sim,hm,hsim,hsets,?_⟩
  rcases @demandRun_matches_oracle 0 smallGeometry ⟨64,64⟩ [1] m sim 1 hm rfl hsim
    [oneExpert 0,oneExpert 1,oneExpert 1] (by
      simp only [List.forall_mem_cons]
      exact ⟨oneExpert_valid (by decide),oneExpert_valid (by decide),oneExpert_valid (by decide),
        List.forall_mem_nil _⟩)
    (oneExpert_generations (by decide)) (by decide) with
    ⟨sets,last,counts,hrun,hsame,-⟩ | ⟨error,-,-,hworn⟩
  · obtain rfl := Except.ok.inj (hsets.symm.trans hsame)
    exact hrun
  · exact absurd hworn (by decide)

/-- The two experts of a small model in turn, beginning with this one. -/
def alternating : ℕ → ℕ → List DemandCall
  | _, 0 => []
  | id, n+1 => oneExpert id::alternating (1-id) n

lemma alternating_all {p : DemandCall → Prop} (h : ∀ id<2, p (oneExpert id)) (n : ℕ) :
    ∀ id<2, ∀ call ∈ alternating id n, p call := by
  induction n with
  | zero => exact fun _ _ => List.forall_mem_nil _
  | succ n ih =>
    intro id hid
    exact List.forall_mem_cons.mpr ⟨h id hid,ih (1-id) (by omega)⟩

lemma alternating_references (n : ℕ) :
    ∀ id, references ((alternating id n).map DemandCall.ids) = n := by
  induction n with
  | zero => exact fun _ => rfl
  | succ n ih =>
    intro id
    rw [alternating, List.map_cons, references_cons, ih]
    exact Nat.add_comm 1 n

/-- With one slot every call of an alternating run is an install, until the slot is used up. -/
lemma alternating_usedUp (n : ℕ) :
    ∀ {m : Manager} {sim : ProductionLruSimulation} {layer : LayerResidency}
      {past : List (ℕ × Source)} {id : ℕ}, id<2 → Tracks 0 m sim layer past →
      m.geometry = smallGeometry → sim.capacity = 1 →
      (∀ expert ∈ past, expert.2.generation = 1) → id ∉ sim.lru →
      u32Max<wear layer.arena+n →
      ∃ error, m.demandRun 0 (alternating id n) = .error error ∧ error.usedUp = true := by
  induction n with
  | zero =>
    intro m sim layer past id hid h hgeometry hcapacity hpast hmiss hworn
    have hle := wear_le (h.inStep 0 layer h.found).2
    rw [h.capacity, hcapacity] at hle
    omega
  | succ n ih =>
    intro m sim layer past id hid h hgeometry hcapacity hpast hmiss hworn
    have hgenerations : ∀ expert ∈ past++(oneExpert id).experts, expert.2.generation = 1 := by
      rw [List.forall_mem_append]
      refine ⟨hpast,fun expert hexpert => ?_⟩
      rw [List.mem_singleton.mp hexpert]
      rfl
    have hscanned : (sim.scanned (oneExpert id).ids).misses = [id] := by
      change (ProductionLruSimulation.visit _ id).misses = _
      rw [ProductionLruSimulation.visit, Scan.visit, if_neg (by simpa using hmiss)]
      rfl
    unfold alternating Manager.demandRun
    dsimp only
    have hvalid : (oneExpert id).Valid m.geometry (0*m.geometry.numExperts) sim.capacity := by
      rw [hgeometry, hcapacity]
      exact oneExpert_valid hid
    have hcounted : ({} : PolicyCounts).routeReferences+(oneExpert id).ids.length ≤ u64Max := by
      change 0+1 ≤ u64Max
      decide
    rcases h.step {} hvalid (oneExpert_generations hgenerations) hcounted with
      ⟨next,error,hcall,hused,-⟩ | ⟨next,residencies,left,nextSim,total,nextLayer,hcall,hserved⟩
    · rw [hcall]
      exact ⟨error,rfl,hused⟩
    · rw [hcall]
      dsimp only
      have htracks := hserved.tracks
      have hlru := hserved.accessed.lru
      rw [hscanned] at hlru
      -- One slot holds the expert just installed and no other.
      have hleft : left = [] := by
        have hle := (htracks.inStep 0 nextLayer htracks.found).2.residents_le
        rw [← htracks.mirrors.length, htracks.capacity, hserved.accessed.capacity, hcapacity, hlru,
          List.length_append, List.length_singleton] at hle
        exact List.length_eq_zero_iff.mp (by omega)
      have hworn' := hserved.worn
      rw [hscanned, List.length_singleton] at hworn'
      obtain ⟨error,herror,hused⟩ := @ih next nextSim nextLayer _ (1-id) (by omega) htracks
        (hserved.geometry.trans hgeometry) (hserved.accessed.capacity.trans hcapacity) hgenerations
        (by
          rw [hlru, hleft, List.nil_append, List.mem_singleton]
          omega)
        (by omega)
      rw [herror]
      exact ⟨error,rfl,hused⟩

/-- The oracle goes on where production has to stop: with one slot and two experts in turn, the
slot has no epoch left for the call number `2^32`. -/
theorem oracle_outlives_slot_epochs :
    ∃ m sim last counts, Manager.tryNew smallGeometry ⟨64,64⟩ [1] = .ok m ∧
      ProductionLruSimulation.tryNew 1 smallGeometry.numExperts = .ok sim ∧
      (∀ call ∈ alternating 0 (u32Max+1),
        call.Valid smallGeometry (0*smallGeometry.numExperts) 1) ∧
      GenerationsInOrder ((alternating 0 (u32Max+1)).flatMap DemandCall.experts) ∧
      sim.run ((alternating 0 (u32Max+1)).map DemandCall.ids) = .ok (last,counts) ∧
      ∃ error, m.demandRun 0 (alternating 0 (u32Max+1)) = .error error ∧ error.usedUp = true := by
  obtain ⟨m,hm⟩ : ∃ m, Manager.tryNew smallGeometry ⟨64,64⟩ [1] = .ok m := ⟨_,rfl⟩
  obtain ⟨sim,hsim⟩ : ∃ sim, ProductionLruSimulation.tryNew 1 smallGeometry.numExperts = .ok sim :=
    ⟨_,rfl⟩
  have hvalid := alternating_all (fun id hid => oneExpert_valid hid) (u32Max+1) 0 (by decide)
  have hgenerations : ∀ expert ∈ (alternating 0 (u32Max+1)).flatMap DemandCall.experts,
      expert.2.generation = 1 := by
    intro expert hexpert
    obtain ⟨call,hcall,hmem⟩ := List.mem_flatMap.mp hexpert
    refine alternating_all (p := fun call => ∀ expert ∈ call.experts, expert.2.generation = 1)
      (fun id _ expert hexpert => ?_) (u32Max+1) 0 (by decide) call hcall expert hmem
    rw [List.mem_singleton.mp hexpert]
    rfl
  obtain ⟨hgeometry,hcapacity,hexperts,hpos,hle,layer,htracks⟩ :=
    @Tracks.initial 0 smallGeometry ⟨64,64⟩ [1] m sim 1 _ hm rfl hsim
  have hids : ∀ ids ∈ (alternating 0 (u32Max+1)).map DemandCall.ids,
      ValidIds sim.capacity sim.experts ids := by
    intro ids hids
    obtain ⟨call,hcall,rfl⟩ := List.mem_map.mp hids
    rw [hcapacity, hexperts]
    exact ⟨(hvalid call hcall).fits,(hvalid call hcall).nodup,(hvalid call hcall).inRange⟩
  have hempty : sim.lru = [] ∧ sim.Good := by
    cases hsim
    exact ⟨rfl,List.nodup_nil,by simp⟩
  have hcounted : ({} : PolicyCounts).routeReferences+
      references ((alternating 0 (u32Max+1)).map DemandCall.ids) ≤ u64Max := by
    rw [alternating_references]
    decide
  obtain ⟨last,counts,hserve⟩ := ProductionLruSimulation.serve_counted hempty.2 hids hcounted
  have hlegal : validateAccesses sim.capacity sim.experts
      ((alternating 0 (u32Max+1)).map DemandCall.ids) = .ok () := by
    rw [validateAccesses_ok_iff]
    refine ⟨?_,?_,hids⟩
    · rw [hcapacity]
      exact hpos
    · rw [hcapacity, hexperts]
      exact hle
  refine ⟨m,sim,last,counts,hm,hsim,hvalid,oneExpert_generations hgenerations,?_,?_⟩
  · unfold ProductionLruSimulation.run
    rw [hlegal]
    exact hserve
  · refine alternating_usedUp (u32Max+1) (by decide) htracks hgeometry hcapacity
      (List.forall_mem_nil _) ?_ (by omega)
    rw [hempty.1]
    exact List.not_mem_nil

end Runs

end MicroExpertRouter.Residency
