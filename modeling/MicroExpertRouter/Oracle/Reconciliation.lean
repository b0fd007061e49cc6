import MicroExpertRouter.Oracle.Belady

/-! LRU and MIN side by side over one window. Access by access the MIN residents stay ahead of
the LRU residents, so MIN misses no more in any counter scope, and the reconciliation checks
of the analysis cannot fire. -/
namespace MicroExpertRouter.Oracle
open Paging

/-- Counters of both policies over one phase of `refs` references in `records` accesses. -/
structure Reconciled (refs records : ℕ) (lru minimum : PolicyCounts) : Prop where
  lruBalanced : lru.Balanced
  minBalanced : minimum.Balanced
  lruReferences : lru.routeReferences = refs
  minReferences : minimum.routeReferences = refs
  compulsory : lru.compulsoryColdInstalls = minimum.compulsoryColdInstalls
  missing : minimum.missingInstalls ≤ lru.missingInstalls
  lruBoundaries : lru.missBoundaries ≤ records
  minBoundaries : minimum.missBoundaries ≤ records

lemma Reconciled.zero : Reconciled 0 0 {} {} :=
  ⟨⟨rfl,le_rfl,le_rfl⟩,⟨rfl,le_rfl,le_rfl⟩,rfl,rfl,rfl,le_rfl,le_rfl,le_rfl⟩

lemma Reconciled.plus {r1 b1 r2 b2 : ℕ} {l1 m1 l2 m2 : PolicyCounts}
    (h1 : Reconciled r1 b1 l1 m1) (h2 : Reconciled r2 b2 l2 m2) :
    Reconciled (r1+r2) (b1+b2) (l1.plus l2) (m1.plus m2) := by
  refine ⟨h1.lruBalanced.plus h2.lruBalanced,h1.minBalanced.plus h2.minBalanced,?_,?_,?_,?_,?_,?_⟩
  · exact congrArg₂ _ h1.lruReferences h2.lruReferences
  · exact congrArg₂ _ h1.minReferences h2.minReferences
  · exact congrArg₂ _ h1.compulsory h2.compulsory
  · exact Nat.add_le_add h1.missing h2.missing
  · exact Nat.add_le_add h1.lruBoundaries h2.lruBoundaries
  · exact Nat.add_le_add h1.minBoundaries h2.minBoundaries

/-- The two simulations after the same accesses. -/
structure Paired (lru : ProductionLruSimulation) (minimum : BeladyMinSimulation) : Prop where
  lruGood : lru.Good
  minGood : minimum.Good
  capacity : minimum.capacity = lru.capacity
  experts : minimum.experts = lru.experts
  legal : 0<lru.capacity ∧ lru.capacity ≤ lru.experts
  seen : minimum.everSeen = lru.everSeen
  level : Level lru.capacity minimum.residents lru.lru.toFinset
  ahead : Ahead (demandSets (minimum.plannedAccesses.drop minimum.nextPosition))
    minimum.residents lru.lru
  position : minimum.nextPosition ≤ minimum.plannedAccesses.length

/-- Both policies charge one access; MIN is charged no more. -/
lemma Paired.charge {lru : ProductionLruSimulation} {minimum : BeladyMinSimulation}
    (h : Paired lru minimum) {ids : List ℕ} {rest : List (List ℕ)} (hnd : ids.Nodup)
    (hnext : minimum.plannedAccesses.drop minimum.nextPosition = ids::rest) :
    Reconciled ids.length 1 (accessCounts lru.lru.toFinset lru.everSeen ids)
      (accessCounts minimum.residents minimum.everSeen ids) := by
  have hboundary : ∀ held seen, (accessCounts held seen ids).missBoundaries ≤ 1 := by
    intro held seen
    simp only [accessCounts]
    split_ifs <;> omega
  refine ⟨accessCounts_balanced h.lruGood.seen ids,accessCounts_balanced h.minGood.seen ids,
    rfl,rfl,?_,?_,hboundary _ _,hboundary _ _⟩
  · rw [h.seen]
    rfl
  · rw [accessCounts_missing _ _ hnd, accessCounts_missing _ _ hnd]
    have hahead := h.ahead
    rw [hnext, demandSets_cons] at hahead
    exact hahead.misses_le h.level.card_eq

/-- One access keeps the pairing. -/
lemma Paired.access {lru : ProductionLruSimulation} {minimum : BeladyMinSimulation}
    (h : Paired lru minimum) {ids : List ℕ} {rest : List (List ℕ)}
    (hnext : minimum.plannedAccesses.drop minimum.nextPosition = ids::rest)
    {lruCounts minCounts : PolicyCounts} (hl : lruCounts.routeReferences+ids.length ≤ u64Max)
    (hm : minCounts.routeReferences+ids.length ≤ u64Max) :
    ∃ lru' minimum', Paired lru' minimum' ∧
      minimum'.plannedAccesses = minimum.plannedAccesses ∧
      minimum'.plannedAccesses.drop minimum'.nextPosition = rest ∧
      lru.access lruCounts ids = .ok (lru',
        lruCounts.plus (accessCounts lru.lru.toFinset lru.everSeen ids)) ∧
      minimum.access minCounts ids = .ok (minimum',
        minCounts.plus (accessCounts minimum.residents minimum.everSeen ids)) := by
  have hmem : ids ∈ minimum.plannedAccesses :=
    List.mem_of_mem_drop (by rw [hnext]; exact List.mem_cons_self)
  have hv : ValidIds lru.capacity lru.experts ids := by
    rw [← h.capacity, ← h.experts]
    exact h.minGood.planned ids hmem
  obtain ⟨lru',hlg,hlc,hle,hls,hrec,hlaccess⟩ :=
    ProductionLruSimulation.access_eq h.lruGood lruCounts hv
  obtain ⟨minimum',hmg,hmc,hme,hmp,hmn,hms,hfar,hmaccess⟩ :=
    BeladyMinSimulation.access_eq h.minGood minCounts hnext
  rw [addCount_eq_ok.mpr ⟨hl,rfl⟩] at hlaccess
  rw [addCount_eq_ok.mpr ⟨hm,rfl⟩] at hmaccess
  have hdrop : minimum'.plannedAccesses.drop minimum'.nextPosition = rest := by
    rw [hmp, hmn, ← List.drop_drop, hnext]
    rfl
  rw [h.capacity] at hfar
  refine ⟨lru',minimum',⟨hlg,hmg,?_,?_,?_,?_,?_,?_,?_⟩,hmp,hdrop,hlaccess,hmaccess⟩
  · rw [hmc, hlc, h.capacity]
  · rw [hme, hle, h.experts]
  · rw [hlc, hle]
    exact h.legal
  · rw [hms, hls, h.seen]
  · rw [hlc]
    exact h.level.step hfar.toLazyStep hrec.lazyStep
  · rw [hdrop]
    have hahead := h.ahead
    rw [hnext, demandSets_cons] at hahead
    exact hahead.step hfar hrec
  · have hlen := congrArg List.length hnext
    rw [List.length_drop, List.length_cons] at hlen
    rw [hmn, hmp]
    omega

/-- A whole counter scope keeps the pairing and reconciles. -/
theorem Paired.serve {lru : ProductionLruSimulation} {minimum : BeladyMinSimulation}
    (h : Paired lru minimum) {accesses later : List (List ℕ)}
    (hnext : minimum.plannedAccesses.drop minimum.nextPosition = accesses++later)
    {refs records : ℕ} {lruCounts minCounts : PolicyCounts}
    (hcounts : Reconciled refs records lruCounts minCounts)
    (hbound : refs+references accesses ≤ u64Max) :
    ∃ lru' minimum' lruTotal minTotal, Paired lru' minimum' ∧
      minimum'.plannedAccesses = minimum.plannedAccesses ∧
      minimum'.plannedAccesses.drop minimum'.nextPosition = later ∧
      lru.serve lruCounts accesses = .ok (lru',lruTotal) ∧
      minimum.serve minCounts accesses = .ok (minimum',minTotal) ∧
      Reconciled (refs+references accesses) (records+accesses.length) lruTotal minTotal := by
  induction accesses generalizing lru minimum refs records lruCounts minCounts with
  | nil => exact ⟨lru,minimum,lruCounts,minCounts,h,rfl,hnext,rfl,rfl,hcounts⟩
  | cons ids accesses ih =>
    rw [List.cons_append] at hnext
    rw [references_cons] at hbound
    have hmem : ids ∈ minimum.plannedAccesses :=
      List.mem_of_mem_drop (by rw [hnext]; exact List.mem_cons_self)
    have hcharge := h.charge (h.minGood.planned ids hmem).nodup hnext
    obtain ⟨lru',minimum',hpair,hplan,hdrop,hla,hma⟩ := h.access hnext
      (show lruCounts.routeReferences+ids.length ≤ u64Max by rw [hcounts.lruReferences]; omega)
      (show minCounts.routeReferences+ids.length ≤ u64Max by rw [hcounts.minReferences]; omega)
    obtain ⟨lru2,min2,lruTotal,minTotal,hpair2,hplan2,hdrop2,hl2,hm2,htotal⟩ :=
      ih hpair hdrop (hcounts.plus hcharge) (by omega)
    refine ⟨lru2,min2,lruTotal,minTotal,hpair2,hplan2.trans hplan,hdrop2,?_,?_,?_⟩
    · rw [ProductionLruSimulation.serve, hla]
      exact hl2
    · rw [BeladyMinSimulation.serve, hma]
      exact hm2
    · rw [references_cons, List.length_cons]
      convert htotal using 1 <;> omega

lemma Paired.run {lru : ProductionLruSimulation} {minimum : BeladyMinSimulation}
    (h : Paired lru minimum) {accesses later : List (List ℕ)}
    (hnext : minimum.plannedAccesses.drop minimum.nextPosition = accesses++later)
    (hbound : references accesses ≤ u64Max) :
    ∃ lru' minimum' lruTotal minTotal, Paired lru' minimum' ∧
      minimum'.plannedAccesses = minimum.plannedAccesses ∧
      minimum'.plannedAccesses.drop minimum'.nextPosition = later ∧
      lru.run accesses = .ok (lru',lruTotal) ∧
      minimum.run accesses = .ok (minimum',minTotal) ∧
      Reconciled (references accesses) accesses.length lruTotal minTotal := by
  obtain ⟨lru',minimum',lruTotal,minTotal,hpair,hplan,hdrop,hl,hm,htotal⟩ :=
    h.serve hnext Reconciled.zero (by omega)
  have hvalid : validateAccesses lru.capacity lru.experts accesses = .ok () := by
    rw [validateAccesses_ok_iff]
    refine ⟨h.legal.1,h.legal.2,fun ids hids => ?_⟩
    rw [← h.capacity, ← h.experts]
    have hmem : ids ∈ minimum.plannedAccesses.drop minimum.nextPosition := by
      rw [hnext]
      exact List.mem_append_left _ hids
    exact h.minGood.planned ids (List.mem_of_mem_drop hmem)
  refine ⟨lru',minimum',lruTotal,minTotal,hpair,hplan,hdrop,?_,?_,by simpa using htotal⟩
  · rw [ProductionLruSimulation.run, hvalid]
    exact hl
  · rw [BeladyMinSimulation.run_eq h.minGood (by rw [h.capacity, h.experts]; exact h.legal) hnext
      h.position]
    exact hm

/-- Repeated measured scopes accumulate reconciled counters. -/
theorem Paired.accumulateRuns {lru : ProductionLruSimulation} {minimum : BeladyMinSimulation}
    (h : Paired lru minimum) {measured later : List (List ℕ)} {runs : ℕ}
    (hnext : minimum.plannedAccesses.drop minimum.nextPosition =
      (List.replicate runs measured).flatten++later)
    {refs records : ℕ} {lruCounts minCounts : PolicyCounts}
    (hcounts : Reconciled refs records lruCounts minCounts)
    (hbound : refs+runs*references measured ≤ u64Max) :
    ∃ lru' minimum' lruTotal minTotal, Paired lru' minimum' ∧
      minimum'.plannedAccesses = minimum.plannedAccesses ∧
      minimum'.plannedAccesses.drop minimum'.nextPosition = later ∧
      Oracle.accumulateRuns (·.run measured) runs lru lruCounts = .ok (lru',lruTotal) ∧
      Oracle.accumulateRuns (·.run measured) runs minimum minCounts = .ok (minimum',minTotal) ∧
      Reconciled (refs+runs*references measured) (records+runs*measured.length)
        lruTotal minTotal := by
  induction runs generalizing lru minimum refs records lruCounts minCounts with
  | zero =>
    refine ⟨lru,minimum,lruCounts,minCounts,h,rfl,?_,rfl,rfl,by simpa using hcounts⟩
    simpa using hnext
  | succ runs ih =>
    rw [Nat.succ_mul] at hbound
    rw [List.replicate_succ, List.flatten_cons, List.append_assoc] at hnext
    obtain ⟨lru1,min1,l1,m1,hpair,hplan,hdrop,hl,hm,hscope⟩ := h.run hnext (by omega)
    have hla : lruCounts.checkedAccumulate l1 = .ok (lruCounts.plus l1) :=
      checkedAccumulate_of_balanced hcounts.lruBalanced hscope.lruBalanced
        (by rw [hcounts.lruReferences, hscope.lruReferences]; omega)
    have hma : minCounts.checkedAccumulate m1 = .ok (minCounts.plus m1) :=
      checkedAccumulate_of_balanced hcounts.minBalanced hscope.minBalanced
        (by rw [hcounts.minReferences, hscope.minReferences]; omega)
    obtain ⟨lru2,min2,lruTotal,minTotal,hpair2,hplan2,hdrop2,hl2,hm2,htotal⟩ :=
      ih hpair hdrop (hcounts.plus hscope) (by omega)
    refine ⟨lru2,min2,lruTotal,minTotal,hpair2,hplan2.trans hplan,hdrop2,?_,?_,?_⟩
    · simp only [Oracle.accumulateRuns, hl, hla, bind, Except.bind]
      exact hl2
    · simp only [Oracle.accumulateRuns, hm, hma, bind, Except.bind]
      exact hm2
    · convert htotal using 1 <;> rw [Nat.succ_mul] <;> omega

lemma addCount_eq_error {detail : String} {a b : ℕ} {e : OracleTraceError}
    (h : addCount detail a b = .error e) : e.code = "analysis-overflow" := by
  unfold addCount at h
  cases hc : checkedAdd u64Max a b with
  | none =>
    rw [hc] at h
    cases h
    rfl
  | some c =>
    rw [hc] at h
    cases h

namespace ProductionLruSimulation

lemma tryNew_eq {capacity experts : ℕ} (hpos : 0<capacity) (hle : capacity ≤ experts) :
    tryNew capacity experts = .ok ⟨capacity,experts,[],∅⟩ := by
  rw [tryNew, (validateAccesses_ok_iff capacity experts []).mpr ⟨hpos,hle,by simp⟩]
  rfl

/-- A scope that ends well kept its reference counter in range. -/
lemma serve_ok {self next : ProductionLruSimulation} (hgood : self.Good)
    {counts total : PolicyCounts} {accesses : List (List ℕ)}
    (hvalid : ∀ ids ∈ accesses, ValidIds self.capacity self.experts ids)
    (hin : counts.routeReferences ≤ u64Max)
    (h : self.serve counts accesses = .ok (next,total)) :
    next.Good ∧ next.capacity = self.capacity ∧ next.experts = self.experts ∧
      total.routeReferences = counts.routeReferences+references accesses ∧
      counts.routeReferences+references accesses ≤ u64Max := by
  induction accesses generalizing self counts with
  | nil =>
    obtain ⟨rfl,rfl⟩ := Prod.mk.inj (Except.ok.inj h)
    exact ⟨hgood,rfl,rfl,rfl,hin⟩
  | cons ids accesses ih =>
    obtain ⟨hids,hrest⟩ := List.forall_mem_cons.mp hvalid
    obtain ⟨mid,hmid,hcap,hexp,_,_,haccess⟩ := access_eq hgood counts hids
    rw [serve, haccess] at h
    cases hadd : addCount "route count overflow" counts.routeReferences ids.length with
    | error e =>
      rw [hadd] at h
      cases h
    | ok c =>
      rw [hadd] at h
      have hle := (addCount_eq_ok.mp hadd).1
      have hrefs : (counts.plus (accessCounts self.lru.toFinset self.everSeen ids)).routeReferences =
          counts.routeReferences+ids.length := rfl
      obtain ⟨hg,hc,he,ht,hb⟩ := ih hmid (by rw [hcap, hexp]; exact hrest) (by omega) h
      refine ⟨hg,hc.trans hcap,he.trans hexp,?_,?_⟩
      · rw [ht, hrefs, references_cons, Nat.add_assoc]
      · rw [references_cons]
        omega

lemma run_ok {self next : ProductionLruSimulation} (hgood : self.Good) {total : PolicyCounts}
    {accesses : List (List ℕ)}
    (hvalid : validateAccesses self.capacity self.experts accesses = .ok ())
    (h : self.run accesses = .ok (next,total)) :
    next.Good ∧ next.capacity = self.capacity ∧ next.experts = self.experts ∧
      total.routeReferences = references accesses ∧ references accesses ≤ u64Max := by
  rw [run, hvalid] at h
  have := serve_ok hgood ((validateAccesses_ok_iff _ _ _).mp hvalid).2.2 (Nat.zero_le _) h
  simpa using this

end ProductionLruSimulation

/-- Measured scopes that end well kept the accumulated reference counter in range. -/
lemma accumulateRuns_ok {lru lru' : ProductionLruSimulation} (hgood : lru.Good)
    {measured : List (List ℕ)} {runs : ℕ}
    (hvalid : validateAccesses lru.capacity lru.experts measured = .ok ())
    {counts total : PolicyCounts} (hin : counts.routeReferences ≤ u64Max)
    (h : accumulateRuns (·.run measured) runs lru counts = .ok (lru',total)) :
    counts.routeReferences+runs*references measured ≤ u64Max := by
  induction runs generalizing lru counts with
  | zero => simpa using hin
  | succ runs ih =>
    obtain ⟨⟨next,scope⟩,hrun,h⟩ := bind_eq_ok.mp h
    obtain ⟨sum,hacc,h⟩ := bind_eq_ok.mp h
    obtain ⟨hg,hc,he,hrefs,_⟩ := ProductionLruSimulation.run_ok hgood hvalid hrun
    obtain ⟨refs,hadd,hacc⟩ := bind_eq_ok.mp hacc
    obtain ⟨_,_,hacc⟩ := bind_eq_ok.mp hacc
    obtain ⟨_,_,hacc⟩ := bind_eq_ok.mp hacc
    obtain ⟨_,_,hacc⟩ := bind_eq_ok.mp hacc
    obtain ⟨_,_,hacc⟩ := bind_eq_ok.mp hacc
    obtain ⟨hle,rfl⟩ := addCount_eq_ok.mp hadd
    have hsum : sum.routeReferences = counts.routeReferences+scope.routeReferences := by
      rw [← Except.ok.inj hacc]
    have := ih hg (by rw [hc, he]; exact hvalid) (by omega) h
    rw [Nat.succ_mul]
    omega

lemma completeWindowAccesses_eq_ok {warmup measured complete : List (List ℕ)} {measuredRuns : ℕ}
    (h : completeWindowAccesses warmup measured measuredRuns = .ok complete) :
    complete = warmup++(List.replicate measuredRuns measured).flatten ∧
      warmup.length+measured.length*measuredRuns ≤ usizeMax := by
  unfold completeWindowAccesses at h
  split_ifs at h with hzero
  cases hmul : checkedMul usizeMax measured.length measuredRuns with
  | none => simp [hmul] at h
  | some product =>
    have hproduct : product = measured.length*measuredRuns := by
      unfold checkedMul at hmul
      split_ifs at hmul with hle
      exact (Option.some.inj hmul).symm
    cases hadd : checkedAdd usizeMax warmup.length product with
    | none => simp [hmul,hadd] at h
    | some total =>
      have := (checkedAdd_eq_some.mp hadd).1
      rw [hmul, Option.bind_some, hadd] at h
      exact ⟨(Except.ok.inj h).symm,by rw [← hproduct]; exact this⟩

lemma completeWindowAccesses_of_le {warmup measured : List (List ℕ)} {measuredRuns : ℕ}
    (hruns : 1 ≤ measuredRuns) (h : warmup.length+measured.length*measuredRuns ≤ usizeMax) :
    completeWindowAccesses warmup measured measuredRuns =
      .ok (warmup++(List.replicate measuredRuns measured).flatten) := by
  rw [completeWindowAccesses, if_neg (by omega), checkedMul_of_le (by omega), Option.bind_some,
    checkedAdd_of_le h]

lemma references_replicate (runs : ℕ) (measured : List (List ℕ)) :
    references (List.replicate runs measured).flatten = runs*references measured := by
  induction runs with
  | zero => simp [references]
  | succ runs ih => rw [List.replicate_succ, List.flatten_cons, references_append, ih, Nat.succ_mul,
      Nat.add_comm]

/-- Both windows of one layer, in both phases. -/
structure WindowReconciled (warmup measured : List (List ℕ)) (measuredRuns : ℕ)
    (lru minimum : WindowPolicyCounts) : Prop where
  warmup : Reconciled (references warmup) warmup.length lru.uncountedWarmup minimum.uncountedWarmup
  measurement : Reconciled (measuredRuns*references measured) (measuredRuns*measured.length)
    lru.countedMeasurement minimum.countedMeasurement

section
variable {capacity experts measuredRuns : ℕ} {warmup measured : List (List ℕ)}

/-- Windows whose counters and positions fit their widths are simulated, and reconcile. -/
theorem simulateWindows_ok (hwarmup : validateAccesses capacity experts warmup = .ok ())
    (hmeasured : validateAccesses capacity experts measured = .ok ()) (hruns : 1 ≤ measuredRuns)
    (hlength : warmup.length+measured.length*measuredRuns ≤ usizeMax)
    (hwarm : references warmup ≤ u64Max) (hmeas : measuredRuns*references measured ≤ u64Max) :
    ∃ lru minimum,
      simulateProductionLruWindow capacity experts warmup measured measuredRuns = .ok lru ∧
      simulateBeladyMinWindow capacity experts warmup measured measuredRuns = .ok minimum ∧
      WindowReconciled warmup measured measuredRuns lru minimum := by
  obtain ⟨hpos,hle,hwarmIds⟩ := (validateAccesses_ok_iff _ _ _).mp hwarmup
  obtain ⟨_,_,hmeasIds⟩ := (validateAccesses_ok_iff _ _ _).mp hmeasured
  set complete := warmup++(List.replicate measuredRuns measured).flatten with hcomplete
  have hvalid : validateAccesses capacity experts complete = .ok () := by
    rw [validateAccesses_ok_iff]
    refine ⟨hpos,hle,fun ids hids => ?_⟩
    rcases List.mem_append.mp hids with hids | hids
    · exact hwarmIds ids hids
    · obtain ⟨l,hl,hids⟩ := List.mem_flatten.mp hids
      rw [List.eq_of_mem_replicate hl] at hids
      exact hmeasIds ids hids
  have hlen : complete.length ≤ usizeMax := by
    have hsum : complete.length = warmup.length+measured.length*measuredRuns := by
      simp [hcomplete,Nat.mul_comm]
    omega
  obtain ⟨minimum,hnew,hgood,hcap,hexp,hres,hseen,hplan,hzero⟩ :=
    BeladyMinSimulation.tryNew_good hvalid hlen
  have hnewLru := ProductionLruSimulation.tryNew_eq hpos hle
  have hpair : Paired ⟨capacity,experts,[],∅⟩ minimum := by
    refine ⟨⟨List.nodup_nil,subset_rfl⟩,hgood,hcap,hexp,⟨hpos,hle⟩,hseen,Or.inl hres,?_,?_⟩
    · intro older e newer hsplit
      simp at hsplit
    · rw [hzero]
      exact Nat.zero_le _
  have hnext : minimum.plannedAccesses.drop minimum.nextPosition =
      warmup++(List.replicate measuredRuns measured).flatten := by
    rw [hplan, hzero, List.drop_zero]
  obtain ⟨lru1,min1,l1,m1,hpair1,hplan1,hdrop1,hl1,hm1,hphase1⟩ := hpair.run hnext hwarm
  obtain ⟨lru2,min2,l2,m2,hpair2,hplan2,hdrop2,hl2,hm2,hphase2⟩ :=
    hpair1.accumulateRuns (by rw [hdrop1, List.append_nil]) Reconciled.zero (by omega)
  rw [Nat.zero_add, Nat.zero_add] at hphase2
  have hfinish : min2.finish = .ok () := by
    apply BeladyMinSimulation.finish_of_end hpair2.minGood
    have hend := List.drop_eq_nil_iff.mp hdrop2
    have := hpair2.position
    omega
  refine ⟨⟨l1,l2⟩,⟨m1,m2⟩,?_,?_,hphase1,hphase2⟩
  · rw [simulateProductionLruWindow, if_neg (by omega)]
    simp only [bind, Except.bind, hnewLru, hl1, hl2]
    rfl
  · rw [simulateBeladyMinWindow, completeWindowAccesses_of_le hruns hlength]
    simp only [bind, Except.bind, hnew, hm1, hm2, hfinish, ← hcomplete]
    rfl

/-- Simulations that both returned counters reconcile. -/
theorem simulateWindows_reconciled (hwarmup : validateAccesses capacity experts warmup = .ok ())
    (hmeasured : validateAccesses capacity experts measured = .ok ()) (hruns : 1 ≤ measuredRuns)
    {lru minimum : WindowPolicyCounts}
    (hlru : simulateProductionLruWindow capacity experts warmup measured measuredRuns = .ok lru)
    (hmin : simulateBeladyMinWindow capacity experts warmup measured measuredRuns = .ok minimum) :
    WindowReconciled warmup measured measuredRuns lru minimum ∧
      warmup.length+measured.length*measuredRuns ≤ usizeMax := by
  obtain ⟨complete,hcomplete,_⟩ := bind_eq_ok.mp hmin
  have hlength := (completeWindowAccesses_eq_ok hcomplete).2
  obtain ⟨hpos,hle,_⟩ := (validateAccesses_ok_iff _ _ _).mp hwarmup
  have hrun := hlru
  rw [simulateProductionLruWindow, if_neg (by omega),
    ProductionLruSimulation.tryNew_eq hpos hle] at hrun
  obtain ⟨_,hnew,hrun⟩ := bind_eq_ok.mp hrun
  obtain rfl := Except.ok.inj hnew
  obtain ⟨⟨lru1,l1⟩,hl1,hrun⟩ := bind_eq_ok.mp hrun
  obtain ⟨⟨lru2,l2⟩,hl2,_⟩ := bind_eq_ok.mp hrun
  obtain ⟨hg,hc,he,_,hwarm⟩ := ProductionLruSimulation.run_ok
    ⟨List.nodup_nil,subset_rfl⟩ hwarmup hl1
  have hmeas := accumulateRuns_ok hg (by rw [hc, he]; exact hmeasured) (Nat.zero_le _) hl2
  obtain ⟨lru',minimum',hlru',hmin',hrec⟩ := simulateWindows_ok hwarmup hmeasured hruns hlength hwarm
    (by simpa using hmeas)
  obtain rfl : lru = lru' := Except.ok.inj (hlru.symm.trans hlru')
  obtain rfl : minimum = minimum' := Except.ok.inj (hmin.symm.trans hmin')
  exact ⟨hrec,hlength⟩

end

/-- The fold of reference counts is exact, or overflows. -/
lemma expectedReferences_cases (total : ℕ) (accesses : List (List ℕ)) :
    expectedReferences total accesses = .ok (total+references accesses) ∨
      ∃ e, expectedReferences total accesses = .error e ∧ e.code = "analysis-overflow" := by
  induction accesses generalizing total with
  | nil => exact Or.inl rfl
  | cons ids accesses ih =>
    cases hadd : addCount "counter overflow" total ids.length with
    | error e =>
      refine Or.inr ⟨e,?_,addCount_eq_error hadd⟩
      rw [expectedReferences, hadd]
      rfl
    | ok sum =>
      obtain ⟨_,rfl⟩ := addCount_eq_ok.mp hadd
      have hstep : expectedReferences total (ids::accesses) =
          expectedReferences (total+ids.length) accesses := by
        rw [expectedReferences, hadd]
        rfl
      rw [hstep, references_cons, ← Nat.add_assoc]
      exact ih (total+ids.length)

/-- Balanced counters pass the checks of one policy; only an overflow can stop it. -/
lemma analyzePolicy_error {counts : PolicyCounts} (hbal : counts.Balanced)
    {slotStrideBytes layerBoundaries : ℕ} (hbound : counts.missBoundaries ≤ layerBoundaries)
    {e : OracleTraceError} (h : analyzePolicy counts slotStrideBytes layerBoundaries = .error e) :
    e.code = "analysis-overflow" := by
  rcases bind_eq_error.mp h with hadd | ⟨refs,hadd,h⟩
  · exact addCount_eq_error hadd
  · obtain ⟨_,rfl⟩ := addCount_eq_ok.mp hadd
    rw [if_neg (by rw [hbal.references]; simp), if_neg (by omega),
      checkedSub_of_le hbal.compulsory] at h
    rcases bind_eq_error.mp h with hbytes | ⟨_,_,h⟩
    · unfold checkedTransferBytes at hbytes
      cases hmul : checkedMul u64Max counts.missingInstalls slotStrideBytes with
      | none =>
        rw [hmul] at hbytes
        cases hbytes
        rfl
      | some total =>
        rw [hmul] at hbytes
        cases hbytes
    · cases h

/-- Reconciled counters pass every reconciliation check of the analysis. -/
lemma analyzeLayerPhase_error {accesses : List (List ℕ)} {lru minimum : PolicyCounts}
    (hrec : Reconciled (references accesses) accesses.length lru minimum)
    {layerIndex physicalExpertSlots slotStrideBytes : ℕ} {e : OracleTraceError}
    (h : analyzeLayerPhase layerIndex physicalExpertSlots accesses lru minimum slotStrideBytes =
      .error e) : e.code = "analysis-overflow" := by
  rcases bind_eq_error.mp h with href | ⟨refs,href,h⟩
  · rcases expectedReferences_cases 0 accesses with hok | ⟨e',herr,hcode⟩
    · rw [hok] at href
      cases href
    · rw [herr] at href
      cases href
      exact hcode
  · rcases expectedReferences_cases 0 accesses with hok | ⟨e',herr,_⟩
    · rw [hok, Nat.zero_add] at href
      obtain rfl := Except.ok.inj href
      have hpass : ¬ (lru.routeReferences ≠ references accesses
          ∨ minimum.routeReferences ≠ references accesses
          ∨ lru.compulsoryColdInstalls ≠ minimum.compulsoryColdInstalls
          ∨ lru.missingInstalls < minimum.missingInstalls) := by
        simp [hrec.lruReferences,hrec.minReferences,hrec.compulsory,hrec.missing]
      rw [if_neg hpass] at h
      rcases bind_eq_error.mp h with hl | ⟨_,_,h⟩
      · exact analyzePolicy_error hrec.lruBalanced hrec.lruBoundaries hl
      · rcases bind_eq_error.mp h with hm | ⟨_,_,h⟩
        · exact analyzePolicy_error hrec.minBalanced hrec.minBoundaries hm
        · cases h
    · rw [herr] at href
      cases href

/-- What the analysis requires of the counters of one phase. -/
structure PhaseAgrees (lru minimum : PolicyCounts) : Prop where
  compulsory : lru.compulsoryColdInstalls = minimum.compulsoryColdInstalls
  missing : minimum.missingInstalls ≤ lru.missingInstalls
  lruReferences : lru.cacheHits+lru.missingInstalls = lru.routeReferences
  minReferences : minimum.cacheHits+minimum.missingInstalls = minimum.routeReferences
  lruCompulsory : lru.compulsoryColdInstalls ≤ lru.missingInstalls
  minCompulsory : minimum.compulsoryColdInstalls ≤ minimum.missingInstalls

lemma Reconciled.phaseAgrees {refs records : ℕ} {lru minimum : PolicyCounts}
    (h : Reconciled refs records lru minimum) : PhaseAgrees lru minimum :=
  ⟨h.compulsory,h.missing,h.lruBalanced.references,h.minBalanced.references,
    h.lruBalanced.compulsory,h.minBalanced.compulsory⟩

/-- The oracle never rejects a valid analysis. Accepted sequences whose complete window fits in
memory are simulated by both policies; and whenever both simulations return, in the warmup
phase and in the accumulated counted phase the counters agree and no reconciliation check of
the analysis fails. -/
theorem reconciliation_accepts (capacity experts measuredRuns : ℕ) (warmup measured : List (List ℕ))
    (hwarmup : validateAccesses capacity experts warmup = .ok ())
    (hmeasured : validateAccesses capacity experts measured = .ok ()) (hruns : 1 ≤ measuredRuns) :
    (∀ window : AccessSequence,
      window.accesses = warmup++(List.replicate measuredRuns measured).flatten →
      ∃ lru minimum,
        simulateProductionLruWindow capacity experts warmup measured measuredRuns = .ok lru ∧
        simulateBeladyMinWindow capacity experts warmup measured measuredRuns = .ok minimum) ∧
    ∀ lru minimum,
      simulateProductionLruWindow capacity experts warmup measured measuredRuns = .ok lru →
      simulateBeladyMinWindow capacity experts warmup measured measuredRuns = .ok minimum →
      PhaseAgrees lru.uncountedWarmup minimum.uncountedWarmup ∧
      PhaseAgrees lru.countedMeasurement minimum.countedMeasurement ∧
      (∀ layerIndex physicalExpertSlots slotStrideBytes e,
        analyzeLayerPhase layerIndex physicalExpertSlots warmup lru.uncountedWarmup
          minimum.uncountedWarmup slotStrideBytes = .error e →
        e.code ≠ "analysis-reconciliation") ∧
      ∃ counted, completeWindowAccesses [] measured measuredRuns = .ok counted ∧
        ∀ layerIndex physicalExpertSlots slotStrideBytes e,
          analyzeLayerPhase layerIndex physicalExpertSlots counted lru.countedMeasurement
            minimum.countedMeasurement slotStrideBytes = .error e →
          e.code ≠ "analysis-reconciliation" := by
  constructor
  · intro window hwindow
    have hfit := window.addressable
    rw [hwindow, references_append, references_replicate] at hfit
    have hlen : (warmup++(List.replicate measuredRuns measured).flatten).length =
        warmup.length+measured.length*measuredRuns := by
      simp [Nat.mul_comm]
    have hwidth : usizeMax = u64Max := rfl
    obtain ⟨lru,minimum,hlru,hmin,_⟩ := simulateWindows_ok hwarmup hmeasured hruns (by omega)
      (by omega) (by omega)
    exact ⟨lru,minimum,hlru,hmin⟩
  · intro lru minimum hlru hmin
    obtain ⟨hrec,hlength⟩ := simulateWindows_reconciled hwarmup hmeasured hruns hlru hmin
    have hcounted : Reconciled
        (references ([]++(List.replicate measuredRuns measured).flatten))
        ([]++(List.replicate measuredRuns measured).flatten).length
        lru.countedMeasurement minimum.countedMeasurement := by
      have hlen : ([]++(List.replicate measuredRuns measured).flatten).length =
          measuredRuns*measured.length := by
        simp
      rw [hlen, List.nil_append, references_replicate]
      exact hrec.measurement
    refine ⟨hrec.warmup.phaseAgrees,hrec.measurement.phaseAgrees,?_,_,
      completeWindowAccesses_of_le hruns (by simp only [List.length_nil]; omega),?_⟩
    · intro layerIndex slots stride e herr
      rw [analyzeLayerPhase_error hrec.warmup herr]
      decide
    · intro layerIndex slots stride e herr
      rw [analyzeLayerPhase_error hcounted herr]
      decide

/-- Two warmup accesses and two passes over three measured ones, capacity two of three experts. -/
theorem reconciliation_accepts_small_window :
    ∃ lru minimum,
      simulateProductionLruWindow 2 3 [[0,1],[2]] [[0],[1,2],[0,2]] 2 = .ok lru ∧
      simulateBeladyMinWindow 2 3 [[0,1],[2]] [[0],[1,2],[0,2]] 2 = .ok minimum ∧
      PhaseAgrees lru.uncountedWarmup minimum.uncountedWarmup ∧
      PhaseAgrees lru.countedMeasurement minimum.countedMeasurement := by
  obtain ⟨hok,hagree⟩ := reconciliation_accepts 2 3 2 [[0,1],[2]] [[0],[1,2],[0,2]]
    (by decide) (by decide) (by decide)
  obtain ⟨lru,minimum,hlru,hmin⟩ := hok ⟨_,by decide⟩ rfl
  obtain ⟨hwarm,hmeas,_⟩ := hagree lru minimum hlru hmin
  exact ⟨lru,minimum,hlru,hmin,hwarm,hmeas⟩

end MicroExpertRouter.Oracle
