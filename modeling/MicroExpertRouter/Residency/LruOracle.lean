import MicroExpertRouter.Oracle.Policies
import MicroExpertRouter.Residency.Wear

/-! The LRU oracle beside the residency manager it stands for. Both serve the same demand sets of
one layer, the manager with experts numbered over the whole model and the oracle with experts
numbered within the layer; loop for loop they do the same to their recency lists. -/
namespace MicroExpertRouter.Residency
open Arena Oracle

/-- What a demand set meets: the experts found, those installed and those evicted for them. -/
structure Trace where
  hits : List ℕ
  misses : List ℕ
  victims : List ℕ
  deriving DecidableEq, Repr

namespace Trace

def empty : Trace := ⟨[],[],[]⟩

def map (f : ℕ → ℕ) (a : Trace) : Trace := ⟨a.hits.map f,a.misses.map f,a.victims.map f⟩

end Trace

/-- A demand set that was served: what it met, and the residents after it from least to most
recently used. -/
structure ServedSet where
  trace : Trace
  residents : List ℕ
  deriving DecidableEq, Repr

def ServedSet.map (f : ℕ → ℕ) (set : ServedSet) : ServedSet := ⟨set.trace.map f,set.residents.map f⟩

/-- A demand in which every expert of the layer comes with its bytes. -/
structure DemandCall where
  env : Environment
  priority : Priority
  experts : List (ℕ × Source)

namespace DemandCall

def ids (self : DemandCall) : List ℕ := self.experts.map Prod.fst

/-- The demands as the manager gets them, with the first expert of the layer. -/
def demands (self : DemandCall) (base : ℕ) : List DemandExpert :=
  self.experts.map fun expert => .install (base+expert.1) expert.2

end DemandCall

namespace LayerResidency

/-- The victims that the eviction loop reports, one for each turn. -/
def victims (env : Environment) (protect : ℕ → Bool) (wanted : ℕ) : ℕ → LayerResidency → List ℕ
  | 0, _ => []
  | turns+1, self =>
    if self.residents.length+wanted ≤ self.arena.state.slotCapacity then []
    else match Lru.oldest self.residents (fun globalId => !protect globalId) with
    | none => []
    | some victim =>
      match self.evict env victim with
      | (_,.error _) => []
      | (layer,.ok _) => victim::victims env protect wanted turns layer

/-- What a demand meets on the layer. -/
def observed (self : LayerResidency) (space : Namespace) (env : Environment)
    (demands : List DemandExpert) : Trace :=
  match self.resolveHits space demands (fun _ => none) [] with
  | (_,.error _) => .empty
  | (layer,.ok (resolved,misses)) =>
    let ids := demands.map DemandExpert.globalId
    { hits := ids.filter fun globalId => (resolved globalId).isSome
      misses := misses.map Prod.fst
      victims := layer.victims env (fun globalId => decide (globalId ∈ ids)) misses.length
        layer.residents.length }

end LayerResidency

namespace Manager

/-- What a demand meets. -/
def observed (self : Manager) (layerIndex : ℕ) (env : Environment) (demands : List DemandExpert) :
    Trace :=
  match self.layers[layerIndex]? with
  | none => .empty
  | some layer => layer.observed self.space env demands

/-- The residents of a layer from least to most recently used. -/
def recency (self : Manager) (layerIndex : ℕ) : List ℕ :=
  match self.layers[layerIndex]? with
  | none => []
  | some layer => Lru.recency layer.residents

/-- `ensure_demand_set` on one layer, up to the first call that fails. -/
def demandRun (layerIndex : ℕ) :
    Manager → List DemandCall → Except TieredResidencyError (List ServedSet)
  | _, [] => .ok []
  | self, call::calls =>
    let demands := call.demands (layerIndex*self.geometry.numExperts)
    match self.ensureDemandSet call.env call.priority layerIndex demands
      .productionConcurrentDirectStaging with
    | (_,.error e) => .error e
    | (next,.ok _) => do
      let rest ← demandRun layerIndex next calls
      return ⟨self.observed layerIndex call.env demands,next.recency layerIndex⟩::rest

end Manager

end MicroExpertRouter.Residency

namespace MicroExpertRouter.Oracle.ProductionLruSimulation
open Residency

/-- The victims of the eviction loop. -/
def victims (requested : List ℕ) (wanted capacity : ℕ) : ℕ → List ℕ → List ℕ
  | 0, _ => []
  | fuel+1, lru =>
    if lru.length+wanted ≤ capacity then []
    else match lru.find? (· ∉ requested), evict requested lru with
    | some victim, some rest => victim::victims requested wanted capacity fuel rest
    | _, _ => []

/-- What an access meets. -/
def observed (self : ProductionLruSimulation) (ids : List ℕ) : Trace :=
  let scan := ids.foldl visit ⟨self.lru,self.everSeen,[],{}⟩
  { hits := ids.filter (· ∉ scan.misses)
    misses := scan.misses
    victims := victims ids scan.misses.length self.capacity scan.residents.length scan.residents }

/-- The accesses of `serve`, with what they meet. -/
def servedSets (self : ProductionLruSimulation) (counts : PolicyCounts) :
    List (List ℕ) → Except OracleTraceError (List ServedSet)
  | [] => .ok []
  | ids::accesses => do
    let (next,counts) ← self.access counts ids
    let rest ← next.servedSets counts accesses
    return ⟨self.observed ids,next.lru⟩::rest

end MicroExpertRouter.Oracle.ProductionLruSimulation

namespace MicroExpertRouter.Residency
open Arena Oracle

section Loops
variable {space : Namespace} {env : Environment} {layer : LayerResidency} {base : ℕ}
  {lru : List ℕ}

/-- The recency list of the layer is that of the oracle. -/
def Mirrors (base : ℕ) (layer : LayerResidency) (lru : List ℕ) : Prop :=
  Lru.recency layer.residents = lru.map (base+·)

lemma global_injective (base : ℕ) : Function.Injective (base+·) := fun _ _ h =>
  Nat.add_left_cancel h

lemma Mirrors.mem (h : Mirrors base layer lru) {id : ℕ} :
    id ∈ lru ↔ ∃ record, (base+id,record) ∈ layer.residents := by
  rw [← Lru.mem_recency, h, List.mem_map_of_injective (global_injective base)]

lemma Mirrors.length (h : Mirrors base layer lru) : lru.length = layer.residents.length := by
  have hlength := congrArg List.length h
  rw [Lru.recency, List.length_reverse, List.length_map, List.length_map] at hlength
  exact hlength.symm

lemma Mirrors.touch (h : Mirrors base layer lru) (hdistinct : Lru.Distinct layer.residents)
    {id : ℕ} {record : PhysicalRecord} (hmem : (base+id,record) ∈ layer.residents) :
    Lru.recency (Lru.touch layer.residents (base+id)) =
      (ProductionLruSimulation.touch id lru).map (base+·) := by
  rw [Lru.recency_touch hdistinct hmem, h, ProductionLruSimulation.touch, List.map_append,
    List.map_erase (global_injective base)]
  rfl

/-- After the hit loops: the same touches, the same misses. -/
structure HitsMirrored (space : Namespace) (base : ℕ) (layer : LayerResidency)
    (experts : List (ℕ × Source)) (scan : Scan (List ℕ)) (resolved : ℕ → Option ExpertResidency)
    (next : LayerResidency) (found : ℕ → Option ExpertResidency) (fresh : List (ℕ × Source)) :
    Prop where
  touched : Touched space layer next
  mirrors : Mirrors base next
    ((experts.map Prod.fst).foldl ProductionLruSimulation.visit scan).residents
  misses : ((experts.map Prod.fst).foldl ProductionLruSimulation.visit scan).misses =
    scan.misses++fresh.map Prod.fst
  sublist : fresh.Sublist experts
  missed : ∀ id ∈ fresh.map Prod.fst, found (base+id) = resolved (base+id)
  hit : ∀ id ∈ experts.map Prod.fst, id ∉ fresh.map Prod.fst → (found (base+id)).isSome = true
  other : ∀ id, id ∉ experts.map Prod.fst → found (base+id) = resolved (base+id)

section HitLoop
variable {next : LayerResidency} {scan : Scan (List ℕ)} {resolved found : ℕ → Option ExpertResidency}
  {expert : ℕ × Source} {experts fresh : List (ℕ × Source)}

/-- An expert that is not resident is a miss of the oracle, and a fresh one of the layer. -/
lemma HitsMirrored.miss
    (hloop : HitsMirrored space base layer experts (scan.miss expert.1) resolved next found fresh)
    (hmirrors : Mirrors base layer scan.residents) (hnew : expert.1 ∉ experts.map Prod.fst)
    (habsent : ∀ record, (base+expert.1,record) ∉ layer.residents) :
    HitsMirrored space base layer (expert::experts) scan resolved next found (expert::fresh) := by
  have hvisit : ProductionLruSimulation.visit scan expert.1 = scan.miss expert.1 := by
    rw [ProductionLruSimulation.visit, Scan.visit, if_neg]
    rw [decide_eq_true_iff, hmirrors.mem]
    rintro ⟨record,hmem⟩
    exact habsent record hmem
  refine ⟨hloop.touched,?_,?_,hloop.sublist.cons_cons _,?_,?_,?_⟩
  · rw [List.map_cons, List.foldl_cons, hvisit]
    exact hloop.mirrors
  · rw [List.map_cons, List.foldl_cons, hvisit, hloop.misses, List.map_cons, List.append_cons]
    rfl
  · rw [List.map_cons]
    exact List.forall_mem_cons.mpr ⟨hloop.other _ hnew,hloop.missed⟩
  · rw [List.map_cons]
    refine List.forall_mem_cons.mpr ⟨fun hnot => ?_,fun id hid hnot => ?_⟩
    · exact absurd (List.mem_cons_self ..) hnot
    · exact hloop.hit id hid fun hmem => hnot (List.mem_cons_of_mem _ hmem)
  · intro id hid
    rw [List.map_cons, List.mem_cons, not_or] at hid
    exact hloop.other id hid.2

/-- A resident expert is touched by both. -/
lemma HitsMirrored.touch {touched : LayerResidency} {record : PhysicalRecord}
    (hloop : HitsMirrored space base touched experts
      (scan.hit (ProductionLruSimulation.touch expert.1))
      (Function.update resolved (base+expert.1) (some record.residency)) next found fresh)
    (hmirrors : Mirrors base layer scan.residents) (hnew : expert.1 ∉ experts.map Prod.fst)
    (hmem : (base+expert.1,record) ∈ layer.residents) (htouched : Touched space layer touched) :
    HitsMirrored space base layer (expert::experts) scan resolved next found fresh := by
  have hvisit : ProductionLruSimulation.visit scan expert.1 =
      scan.hit (ProductionLruSimulation.touch expert.1) := by
    rw [ProductionLruSimulation.visit, Scan.visit, if_pos]
    rw [decide_eq_true_iff, hmirrors.mem]
    exact ⟨record,hmem⟩
  have hupdate : ∀ id, id ≠ expert.1 → Function.update resolved (base+expert.1)
      (some record.residency) (base+id) = resolved (base+id) := fun id hne =>
    Function.update_of_ne (fun heq => hne (global_injective base heq)) _ _
  have hmissed : expert.1 ∉ fresh.map Prod.fst := fun hmem =>
    hnew ((hloop.sublist.map Prod.fst).subset hmem)
  refine ⟨htouched.trans hloop.touched,?_,?_,hloop.sublist.cons _,?_,?_,?_⟩
  · rw [List.map_cons, List.foldl_cons, hvisit]
    exact hloop.mirrors
  · rw [List.map_cons, List.foldl_cons, hvisit]
    exact hloop.misses
  · intro id hid
    rw [hloop.missed id hid, hupdate id fun heq => hmissed (heq ▸ hid)]
  · rw [List.map_cons]
    refine List.forall_mem_cons.mpr ⟨fun _ => ?_,hloop.hit⟩
    rw [hloop.other _ hnew, Function.update_self]
    rfl
  · intro id hid
    rw [List.map_cons, List.mem_cons, not_or] at hid
    rw [hloop.other id hid.2, hupdate id hid.1]

end HitLoop

lemma resolveHits_mirrors (experts : List (ℕ × Source)) :
    ∀ {layer : LayerResidency} {scan : Scan (List ℕ)} (resolved : ℕ → Option ExpertResidency)
      (misses : List (ℕ × Source)), InStep space layer [] → (experts.map Prod.fst).Nodup →
      Mirrors base layer scan.residents →
      ∃ next found fresh, layer.resolveHits space
          (experts.map fun expert => .install (base+expert.1) expert.2) resolved misses =
            (next,.ok (found,misses++fresh.map fun expert => (base+expert.1,expert.2))) ∧
        HitsMirrored space base layer experts scan resolved next found fresh := by
  induction experts with
  | nil =>
    intro layer scan resolved misses h hnodup hmirrors
    refine ⟨layer,resolved,[],?_,⟨h,rfl,fun _ _ => Iff.rfl⟩,hmirrors,?_,.slnil,
      List.forall_mem_nil _,List.forall_mem_nil _,fun _ _ => rfl⟩
    · rw [List.map_nil, List.map_nil, List.append_nil]
      rfl
    · exact (List.append_nil _).symm
  | cons expert experts ih =>
    intro layer scan resolved misses h hnodup hmirrors
    obtain ⟨hnew,hnodup⟩ := List.nodup_cons.mp hnodup
    rw [List.map_cons]
    unfold LayerResidency.resolveHits
    simp only [DemandExpert.globalId]
    rcases currentRecord_spec h (base+expert.1) with
      ⟨hlookup,habsent⟩ | ⟨touched,record,hlookup,hmem,htouched,hresidents⟩
    · simp only [hlookup]
      obtain ⟨next,found,fresh,hnext,hloop⟩ := @ih layer (scan.miss expert.1) resolved
        (misses++[(base+expert.1,expert.2)]) h hnodup hmirrors
      refine ⟨next,found,expert::fresh,?_,hloop.miss hmirrors hnew habsent⟩
      rw [hnext, List.map_cons, ← List.append_cons]
    · simp only [hlookup]
      have hmirrors' : Mirrors base touched
          (scan.hit (ProductionLruSimulation.touch expert.1)).residents := by
        unfold Mirrors
        rw [hresidents]
        exact hmirrors.touch h.distinct hmem
      obtain ⟨next,found,fresh,hnext,hloop⟩ := @ih touched
        (scan.hit (ProductionLruSimulation.touch expert.1))
        (Function.update resolved (base+expert.1) (some record.residency)) misses htouched.inStep
        hnodup hmirrors'
      exact ⟨next,found,fresh,hnext,hloop.touch hmirrors hnew hmem htouched⟩

/-- The victim of the oracle goes. -/
lemma evict_of_find {requested : List ℕ} {victim : ℕ}
    (hfind : lru.find? (· ∉ requested) = some victim) :
    ProductionLruSimulation.evict requested lru = some (lru.erase victim) := by
  obtain ⟨hvictim,before,after,rfl,hbefore⟩ := List.find?_eq_some_iff_append.mp hfind
  have hnone : before.findIdx? (fun x => decide (x ∉ requested)) = none := by
    rw [List.findIdx?_eq_none_iff]
    intro x hx
    have hx := hbefore x hx
    rwa [Bool.not_eq_true'] at hx
  have hnew : victim ∉ before := by
    intro hmem
    have hx := hbefore victim hmem
    rw [hvictim] at hx
    cases hx
  rw [ProductionLruSimulation.evict, List.findIdx?_append, hnone, List.findIdx?_cons, hvictim,
    List.erase_append_right _ hnew, List.erase_cons_head]
  simp [List.eraseIdx_append_of_length_le]

/-- After the eviction loops: the same victims. -/
structure RoomMirrored (space : Namespace) (base : ℕ) (env : Environment) (protect : ℕ → Bool)
    (requested : List ℕ) (wanted turns : ℕ) (layer : LayerResidency) (lru : List ℕ)
    (next : LayerResidency) (left : List ℕ) : Prop where
  spared : Spared space protect layer next
  mirrors : Mirrors base next left
  victims : layer.victims env protect wanted turns =
    (ProductionLruSimulation.victims requested wanted layer.arena.state.slotCapacity turns
      lru).map (base+·)
  loop : evictUntil (fun lru => decide (lru.length+wanted ≤ layer.arena.state.slotCapacity))
    (ProductionLruSimulation.evict requested) turns lru = some left
  keeps : Keeps layer.arena next.arena
  fits : next.residents.length+wanted ≤ next.arena.state.slotCapacity

section RoomLoop
variable {requested : List ℕ} {wanted turns : ℕ}

/-- The oldest unrequested resident is the oracle's victim. -/
lemma Mirrors.oldest (hmirrors : Mirrors base layer lru) {x : ℕ}
    (hx : Lru.oldest layer.residents
      (fun globalId => !decide (globalId ∈ requested.map (base+·))) = some x) :
    ∃ victim, lru.find? (· ∉ requested) = some victim ∧ base+victim = x := by
  have hpredicate : (fun globalId => !decide (globalId ∈ requested.map (base+·))) ∘ (base+·) =
      fun id => decide (id ∉ requested) := by
    funext id
    rw [Function.comp_apply, decide_not,
      decide_eq_decide.mpr (List.mem_map_of_injective (global_injective base))]
  rw [Lru.oldest_recency, hmirrors, List.find?_map, hpredicate] at hx
  exact Option.map_eq_some_iff.mp hx

/-- Residents that all fit are left alone by both. -/
lemma RoomMirrored.fitting (h : InStep space layer []) (hmirrors : Mirrors base layer lru)
    (hroom : layer.residents.length+wanted ≤ layer.arena.state.slotCapacity) :
    RoomMirrored space base env (fun globalId => decide (globalId ∈ requested.map (base+·)))
      requested wanted turns layer lru layer lru := by
  have hlength := hmirrors.length
  refine ⟨.refl h,hmirrors,?_,?_,.refl _,hroom⟩
  · cases turns with
    | zero => rfl
    | succ turns =>
      unfold LayerResidency.victims ProductionLruSimulation.victims
      rw [if_pos hroom, hlength, if_pos hroom]
      rfl
  · rw [evictUntil_of_fits]
    rw [decide_eq_true_iff, hlength]
    exact hroom

/-- The oldest unrequested resident is evicted by both, and the loops go on. -/
lemma RoomMirrored.evicted {next last : LayerResidency} {left : List ℕ} {victim : ℕ}
    (hloop : RoomMirrored space base env (fun globalId => decide (globalId ∈ requested.map (base+·)))
      requested wanted turns next (lru.erase victim) last left)
    (hmirrors : Mirrors base layer lru)
    (hroom : ¬ layer.residents.length+wanted ≤ layer.arena.state.slotCapacity)
    (hvictim : lru.find? (· ∉ requested) = some victim)
    (holdest : Lru.oldest layer.residents
      (fun globalId => !decide (globalId ∈ requested.map (base+·))) = some (base+victim))
    (hevict : layer.evict env (base+victim) = (next,.ok ()))
    (hresidents : next.residents = Lru.pop layer.residents (base+victim))
    (hframe : SameFrame layer.arena next.arena) (hkeeps : Keeps layer.arena next.arena) :
    RoomMirrored space base env (fun globalId => decide (globalId ∈ requested.map (base+·)))
      requested wanted (turns+1) layer lru last left := by
  have hlength := hmirrors.length
  have hunprotected := (Lru.oldest_eq_some holdest).1
  rw [Bool.not_eq_true'] at hunprotected
  refine ⟨hloop.spared.evicted hunprotected hresidents hframe,hloop.mirrors,?_,?_,
    hkeeps.trans hloop.keeps,hloop.fits⟩
  · unfold LayerResidency.victims ProductionLruSimulation.victims
    rw [if_neg hroom, hlength, if_neg hroom, holdest, hvictim, evict_of_find hvictim]
    dsimp only
    rw [hevict, List.map_cons, ← hframe.capacity, ← hloop.victims]
  · rw [evictUntil_succ_of_not_fits, evict_of_find hvictim, Option.bind_some, ← hframe.capacity]
    · exact hloop.loop
    · rw [decide_eq_false_iff_not, hlength]
      exact hroom

end RoomLoop

lemma makeRoom_mirrors {requested : List ℕ} {wanted : ℕ} (turns : ℕ)
    (hgate : ∀ x, env.retireGate x = .ok ()) :
    ∀ {layer : LayerResidency} {lru : List ℕ}, InStep space layer [] → Mirrors base layer lru →
      layer.residents.length ≤ turns →
      (∀ residents : List (ℕ × PhysicalRecord), Lru.Distinct residents →
        (∀ entry ∈ residents, entry ∈ layer.residents ∧
          entry.1 ∈ requested.map (base+·)) →
        residents.length+wanted ≤ layer.arena.state.slotCapacity) →
      ∃ next left, LayerResidency.makeRoom env
          (fun globalId => decide (globalId ∈ requested.map (base+·))) wanted turns layer =
            (next,.ok ()) ∧
        RoomMirrored space base env (fun globalId => decide (globalId ∈ requested.map (base+·)))
          requested wanted turns layer lru next left := by
  induction turns with
  | zero =>
    intro layer lru h hmirrors hturns hfit
    have hnil := List.length_eq_zero_iff.mp (Nat.le_zero.mp hturns)
    have hroom : layer.residents.length+wanted ≤ layer.arena.state.slotCapacity := by
      apply hfit layer.residents h.distinct
      rw [hnil]
      exact nofun
    refine ⟨layer,lru,?_,.fitting h hmirrors hroom⟩
    unfold LayerResidency.makeRoom
    rw [if_pos hroom]
  | succ turns ih =>
    intro layer lru h hmirrors hturns hfit
    unfold LayerResidency.makeRoom
    by_cases hroom : layer.residents.length+wanted ≤ layer.arena.state.slotCapacity
    · rw [if_pos hroom]
      exact ⟨layer,lru,rfl,.fitting h hmirrors hroom⟩
    · rw [if_neg hroom]
      -- Some resident is unrequested: all of them together do not leave room.
      have hvictim : ∃ entry ∈ layer.residents, entry.1 ∉ requested.map (base+·) := by
        by_contra hnone
        refine hroom (hfit layer.residents h.distinct fun entry hmem => ⟨hmem,?_⟩)
        by_contra hrequested
        exact hnone ⟨entry,hmem,hrequested⟩
      obtain ⟨⟨x,record⟩,hmem,hx⟩ := hvictim
      obtain ⟨oldest,holdest⟩ := @Lru.oldest_isSome _ _ layer.residents x record
        (fun globalId => !decide (globalId ∈ requested.map (base+·))) hmem (by simpa using hx)
      obtain ⟨victim,hvictim,rfl⟩ := hmirrors.oldest holdest
      obtain ⟨-,old,hold⟩ := Lru.oldest_eq_some holdest
      obtain ⟨next,hevict,hnext,hresidents,hframe,harena⟩ := h.evict_granted hold (hgate _)
      have hmirrors' : Mirrors base next (lru.erase victim) := by
        unfold Mirrors
        rw [hresidents, Lru.recency_pop h.distinct, hmirrors,
          List.map_erase (global_injective base)]
      have hshorter := Lru.length_pop h.distinct hold
      rw [← hresidents] at hshorter
      obtain ⟨last,left,hlast,hloop⟩ := @ih next (lru.erase victim) hnext hmirrors' (by omega)
        (fun residents hdistinct hall => by
          rw [hframe.capacity]
          refine hfit residents hdistinct fun entry hmem => ⟨?_,(hall entry hmem).2⟩
          have hentry := (hall entry hmem).1
          rw [hresidents, Lru.mem_pop] at hentry
          exact hentry.1)
      have hkeeps : Keeps layer.arena next.arena := by
        rw [harena]
        exact .retire layer.arena _
      refine ⟨last,left,?_,
        hloop.evicted hmirrors hroom hvictim holdest hevict hresidents hframe hkeeps⟩
      rw [holdest]
      dsimp only
      rw [hevict]
      exact hlast

/-- Installs that all get staged come last in the recency list, in their order. -/
lemma settle_recency {geometry : ExpertGeometry} (reserved : List ReservedInstall) :
    ∀ {residents : List (ℕ × PhysicalRecord)} (resolved : ℕ → Option ExpertResidency),
      Lru.Distinct residents → (reserved.map ReservedInstall.globalId).Nodup →
      (∀ install ∈ reserved, install.globalId ∉ Lru.recency residents) →
      (∀ install ∈ reserved, ∃ entry, stageOutcome env geometry install = .ok entry) →
      Lru.recency (settle env geometry reserved residents resolved).1 =
          Lru.recency residents++reserved.map ReservedInstall.globalId ∧
        ∃ final, (settle env geometry reserved residents resolved).2 = .ok final := by
  induction reserved with
  | nil =>
    intro residents resolved hdistinct hnodup habsent hstaged
    exact ⟨(List.append_nil _).symm,resolved,rfl⟩
  | cons install reserved ih =>
    intro residents resolved hdistinct hnodup habsent hstaged
    obtain ⟨hnew,hnodup⟩ := List.nodup_cons.mp hnodup
    obtain ⟨hfirst,habsent⟩ := List.forall_mem_cons.mp habsent
    obtain ⟨⟨entry,hentry⟩,hstaged⟩ := List.forall_mem_cons.mp hstaged
    have hput : ∀ record, Lru.recency (Lru.put residents install.globalId record) =
        Lru.recency residents++[install.globalId] := by
      intro record
      rw [Lru.recency_put hdistinct, List.erase_of_not_mem hfirst]
    rw [settle_cons_ok hentry]
    obtain ⟨hrecency,final,hfinal⟩ := @ih
      (Lru.put residents install.globalId ⟨install.permit.key,install.permit.residency⟩)
      (Function.update resolved install.globalId (some install.permit.residency))
      (hdistinct.put _ _) hnodup (by
        intro other hother hmem
        rw [hput, List.mem_append, List.mem_singleton] at hmem
        rcases hmem with hmem | heq
        · exact habsent other hother hmem
        · exact hnew (heq ▸ List.mem_map_of_mem hother)) hstaged
    refine ⟨?_,final,hfinal⟩
    rw [hrecency, hput, List.append_assoc]
    rfl

end Loops

/-- Nothing outside the manager fails. -/
structure Environment.Succeeds (env : Environment) : Prop extends env.Undisturbed where
  source : ∀ x, env.sourceCurrent x = true
  acquire : ∀ x, env.acquireGate x = .ok ()
  stage : ∀ x, env.stageGate x = .ok ()
  retire : ∀ x, env.retireGate x = .ok ()
  write : ∀ x, env.physicalWrite x = .ok ()

/-- A held permit with a well-formed payload gets staged. -/
lemma stageOutcome_held {env : Environment} {arena : ExpertArena} {permits : List InstallPermit}
    {install : ReservedInstall} {geometry : ExpertGeometry} (henv : env.Succeeds)
    (hheld : Held arena permits) (hmem : install.permit ∈ permits)
    (hpayload : ExpertArena.validatePayload geometry install.permit.key.expertId
      install.source.data = .ok ()) :
    ∃ entry, stageOutcome env geometry install = .ok entry := by
  have hok := hheld.permitOk _ hmem
  obtain ⟨packed,hpacked⟩ := hheld.tables.packs _ hok.capacity
  have hepoch : install.permit.residency.slotEpoch ≠ 0 := by
    have howner := (hheld.current _ hmem).2.2
    refine ((hheld.tables.slot install.permit.flatSlot).positive _ ?_).ne'
    change (arena.state.owner install.permit.flatSlot).epoch? = _
    rw [howner]
    rfl
  have hcheck : ExpertArena.checkSlot geometry install.permit.key.expertId
      install.permit.residency.slotEpoch install.source.data = .ok () := by
    rw [ExpertArena.checkSlot, hpayload]
    exact if_neg hepoch
  have hentry : install.permit.residency.mappingEntry =
      .ok ⟨packed,install.permit.residency.slotEpoch⟩ := by
    rw [ExpertResidency.mappingEntry, MappingEntry.tryNew, if_neg hepoch, hok.location, hpacked]
    rfl
  refine ⟨⟨packed,install.permit.residency.slotEpoch⟩,?_⟩
  rw [stageOutcome, stageResult, henv.stage, hcheck, hentry, henv.write]
  rfl

/-- A demand set as the claim of the oracle has it: distinct experts of the layer, no more than it
has slots, each with well-formed bytes and its own admission, and nothing fails outside. -/
structure DemandCall.Valid (geometry : ExpertGeometry) (base capacity : ℕ) (call : DemandCall) :
    Prop where
  priority : call.priority ≠ .speculative
  nodup : call.ids.Nodup
  inRange : ∀ id ∈ call.ids, id<geometry.numExperts
  fits : call.ids.length ≤ capacity
  succeeds : call.env.Succeeds
  resident : ∀ expert ∈ call.experts, expert.2.residentId = base+expert.1
  admission : ∀ expert ∈ call.experts, expert.2.admissionId = base+expert.1
  payload : ∀ expert ∈ call.experts,
    ExpertArena.validatePayload geometry expert.1 expert.2.data = .ok ()
  generation : ∀ expert ∈ call.experts, expert.2.generation ≠ 0

lemma DemandCall.map_globalId (call : DemandCall) (base : ℕ) :
    (call.demands base).map DemandExpert.globalId = call.ids.map (base+·) := by
  rw [demands, ids, List.map_map, List.map_map]
  rfl

/-- What the scan of an access amounts to. -/
def scanTrace (capacity : ℕ) (ids : List ℕ) (scan : Scan (List ℕ)) : Trace :=
  { hits := ids.filter (· ∉ scan.misses)
    misses := scan.misses
    victims := ProductionLruSimulation.victims ids scan.misses.length capacity
      scan.residents.length scan.residents }

/-- A layer that is ready for the installs, as the oracle is after its eviction loop. -/
structure ReadyMirrored (space : Namespace) (base : ℕ) (call : DemandCall) (layer : LayerResidency)
    (scan : Scan (List ℕ)) (ready : LayerResidency) (resolved : ℕ → Option ExpertResidency)
    (fresh : List (ℕ × Source)) (left : List ℕ) : Prop where
  prepared : prepareDemand space call.env layer (call.demands base) =
    (ready,.ok (resolved,fresh.map fun expert => (base+expert.1,expert.2)))
  misses : scan.misses = fresh.map Prod.fst
  sublist : fresh.Sublist call.experts
  mirrors : Mirrors base ready left
  keeps : Keeps layer.arena ready.arena
  loop : evictUntil (fun lru => decide (lru.length+scan.misses.length ≤
    layer.arena.state.slotCapacity)) (ProductionLruSimulation.evict call.ids)
    scan.residents.length scan.residents = some left
  observed : layer.observed space call.env (call.demands base) =
    (scanTrace layer.arena.state.slotCapacity call.ids scan).map (base+·)

section Demand
variable {space : Namespace} {layer : LayerResidency} {base : ℕ} {call : DemandCall}
  {scan : Scan (List ℕ)}

section Hits
variable {next : LayerResidency} {found : ℕ → Option ExpertResidency} {fresh : List (ℕ × Source)}

/-- The fresh experts are absent from the layer. -/
lemma HitsMirrored.absent (h : InStep space layer [])
    (hloop : HitsMirrored space base layer call.experts scan (fun _ => none) next found fresh)
    (hhits : layer.resolveHits space (call.demands base) (fun _ => none) [] =
      (next,.ok (found,fresh.map fun expert => (base+expert.1,expert.2)))) :
    ∀ id ∈ fresh.map Prod.fst, ∀ record, (base+id,record) ∉ next.residents := by
  obtain ⟨_,_,hcontra,-⟩ | ⟨next',found',fresh',hagain,-,hlooked⟩ :=
    @resolveHits_spec space layer (call.demands base) (fun _ => none) [] h
  · cases hhits.symm.trans hcontra
  cases hhits.symm.trans hagain
  intro id hid record hmem
  obtain ⟨expert,hexpert,rfl⟩ := List.mem_map.mp hid
  exact hlooked.absent _ (List.mem_map_of_mem hexpert) record ((hloop.touched.residents _ _).mp hmem)

/-- The fresh experts and the requested residents fit together. -/
lemma HitsMirrored.fits
    (hloop : HitsMirrored space base layer call.experts scan (fun _ => none) next found fresh)
    (hvalid : call.Valid layer.arena.geometry base layer.arena.state.slotCapacity)
    (habsent : ∀ id ∈ fresh.map Prod.fst, ∀ record, (base+id,record) ∉ next.residents)
    (residents : List (ℕ × PhysicalRecord)) (hdistinct : Lru.Distinct residents)
    (hall : ∀ entry ∈ residents, entry ∈ next.residents ∧ entry.1 ∈ call.ids.map (base+·)) :
    residents.length+fresh.length ≤ next.arena.state.slotCapacity := by
  have hsublist : (fresh.map Prod.fst).Sublist call.ids := hloop.sublist.map Prod.fst
  have hle := room_for_misses hdistinct (hvalid.nodup.map (global_injective base))
    (hsublist.map (base+·)) (fun entry hentry => (hall entry hentry).2)
    (fun entry hentry hmiss => by
      obtain ⟨id,hid,heq⟩ := List.mem_map.mp hmiss
      have hrecorded := (hall entry hentry).1
      have hentry' : entry = (base+id,entry.2) := Prod.ext heq.symm rfl
      rw [hentry'] at hrecorded
      exact habsent id hid entry.2 hrecorded)
  rw [List.length_map, List.length_map, List.length_map] at hle
  rw [hloop.touched.arena]
  exact hle.trans hvalid.fits

/-- What the demand meets, read off its two loops. -/
lemma HitsMirrored.observed {left : List ℕ} {ready : LayerResidency}
    (hloop : HitsMirrored space base layer call.experts scan (fun _ => none) next found fresh)
    (hscan : scan.misses = [])
    (hhits : layer.resolveHits space (call.demands base) (fun _ => none) [] =
      (next,.ok (found,fresh.map fun expert => (base+expert.1,expert.2))))
    (hready : RoomMirrored space base call.env
      (fun globalId => decide (globalId ∈ call.ids.map (base+·))) call.ids fresh.length
      next.residents.length next (call.ids.foldl ProductionLruSimulation.visit scan).residents
      ready left) :
    layer.observed space call.env (call.demands base) =
      (scanTrace layer.arena.state.slotCapacity call.ids
        (call.ids.foldl ProductionLruSimulation.visit scan)).map (base+·) := by
  have hlength : (call.ids.foldl ProductionLruSimulation.visit scan).residents.length =
      next.residents.length := Mirrors.length hloop.mirrors
  have hmisses : (call.ids.foldl ProductionLruSimulation.visit scan).misses =
      fresh.map Prod.fst := by
    have hmisses := hloop.misses
    rw [hscan, List.nil_append] at hmisses
    exact hmisses
  have hhit : ∀ id ∈ call.ids, (found (base+id)).isSome = decide (id ∉ fresh.map Prod.fst) := by
    intro id hid
    by_cases hmiss : id ∈ fresh.map Prod.fst
    · rw [hloop.missed id hmiss, decide_eq_false (not_not.mpr hmiss)]
      rfl
    · rw [hloop.hit id hid hmiss, decide_eq_true hmiss]
  unfold LayerResidency.observed scanTrace Trace.map
  rw [hhits, hmisses, hlength, List.length_map]
  dsimp only
  rw [call.map_globalId, List.length_map, hready.victims, hloop.touched.arena, List.filter_map,
    List.map_map, List.map_map]
  congr 2
  exact List.filter_congr hhit

end Hits

lemma prepareDemand_mirrors (h : InStep space layer []) (hmirrors : Mirrors base layer scan.residents)
    (hscan : scan.misses = [])
    (hvalid : call.Valid layer.arena.geometry base layer.arena.state.slotCapacity) :
    ∃ ready resolved fresh left, ReadyMirrored space base call layer
      (call.ids.foldl ProductionLruSimulation.visit scan) ready resolved fresh left := by
  obtain ⟨next,found,fresh,hhits,hloop⟩ := @resolveHits_mirrors space base call.experts layer scan
    (fun _ => none) [] h hvalid.nodup hmirrors
  rw [List.nil_append] at hhits
  change layer.resolveHits space (call.demands base) (fun _ => none) [] = _ at hhits
  have hmisses := hloop.misses
  rw [hscan, List.nil_append] at hmisses
  change (call.ids.foldl ProductionLruSimulation.visit scan).misses = _ at hmisses
  have hmirrors' : Mirrors base next
    (call.ids.foldl ProductionLruSimulation.visit scan).residents := hloop.mirrors
  -- The misses are absent from the layer, so that they and the requested residents fit.
  obtain ⟨ready,left,hroom,hready⟩ := @makeRoom_mirrors space call.env base call.ids fresh.length
    next.residents.length hvalid.succeeds.retire next _ hloop.touched.inStep hmirrors' le_rfl
    (hloop.fits hvalid (hloop.absent h hhits))
  refine ⟨ready,found,fresh,left,?_,hmisses,hloop.sublist,hready.mirrors,?_,?_,
    hloop.observed hscan hhits hready⟩
  · unfold prepareDemand
    rw [hhits]
    dsimp only
    rw [call.map_globalId, List.length_map, hroom]
  · rw [← hloop.touched.arena]
    exact hready.keeps
  · rw [hmisses, List.length_map, hmirrors'.length, ← hloop.touched.arena]
    exact hready.loop

/-- A demand that was served as the access of the oracle was. -/
structure DemandMirrored (space : Namespace) (base : ℕ) (call : DemandCall)
    (layer : LayerResidency) (scan : Scan (List ℕ)) (next : LayerResidency) (left : List ℕ) :
    Prop where
  inStep : InStep space next []
  frame : SameFrame layer.arena next.arena
  loop : evictUntil (fun lru => decide (lru.length+scan.misses.length ≤
    layer.arena.state.slotCapacity)) (ProductionLruSimulation.evict call.ids)
    scan.residents.length scan.residents = some left
  observed : layer.observed space call.env (call.demands base) =
    (scanTrace layer.arena.state.slotCapacity call.ids scan).map (base+·)
  mirrors : Mirrors base next (left++scan.misses)
  advance : ∃ keys, Advance layer.arena next.arena keys ∧ keys.length = scan.misses.length ∧
    ∀ key ∈ keys, ∃ expert ∈ call.experts,
      key.expertId = expert.1 ∧ key.logicalGeneration = expert.2.generation

/-- The fresh experts of a ready layer are as current as the demand that names them. -/
lemma ReadyMirrored.current {ready : LayerResidency} {resolved : ℕ → Option ExpertResidency}
    {fresh : List (ℕ × Source)} {left : List ℕ}
    (hready : ReadyMirrored space base call layer scan ready resolved fresh left)
    (hbase : base = ready.arena.layerIndex*space.expertsPerLayer)
    (hcurrent : ∀ expert ∈ call.experts, Current layer.arena expert.1 expert.2.generation) :
    MissesCurrent space ready.arena (fresh.map fun expert => (base+expert.1,expert.2)) := by
  intro miss hmem e hidentity
  obtain ⟨expert,hexpert,rfl⟩ := List.mem_map.mp hmem
  have hglobal := (Namespace.identity_eq_ok hidentity).2.2.2
  dsimp only at hglobal
  rw [← hbase] at hglobal
  obtain rfl := Nat.add_left_cancel hglobal
  have hold := hcurrent expert (hready.sublist.subset hexpert)
  refine ⟨hold.positive,fun latest hlatest => hold.newest latest ?_⟩
  rw [← hready.keeps.latest]
  exact hlatest

/-- The installs that were reserved for fresh experts, in their order. -/
structure ReservedFresh (base : ℕ) (fresh : List (ℕ × Source)) (reserved : List ReservedInstall) :
    Prop where
  expert : ∀ install ∈ reserved, ∃ expert ∈ fresh, install.globalId = base+expert.1 ∧
    install.source = expert.2 ∧ install.permit.key.expertId = expert.1
  globals : reserved.map ReservedInstall.globalId = fresh.map fun expert => base+expert.1

/-- The reserved installs are numbered as the misses they were reserved for. -/
lemma ReservedFresh.of_misses {layerIndex : ℕ} {fresh : List (ℕ × Source)}
    {reserved : List ReservedInstall} (hbase : base = layerIndex*space.expertsPerLayer)
    (hids : reserved.map (fun install => (install.globalId,install.source)) =
      fresh.map fun expert => (base+expert.1,expert.2))
    (hreserved : ∀ install ∈ reserved, ReservedOk space layerIndex install) :
    ReservedFresh base fresh reserved := by
  constructor
  · intro install hinstall
    have hmem : (install.globalId,install.source) ∈
        fresh.map fun expert => (base+expert.1,expert.2) := by
      rw [← hids]
      exact List.mem_map.mpr ⟨install,hinstall,rfl⟩
    obtain ⟨expert,hexpert,heq⟩ := List.mem_map.mp hmem
    obtain ⟨hglobal,hsource⟩ := Prod.mk.inj heq
    refine ⟨expert,hexpert,hglobal.symm,hsource.symm,?_⟩
    have hid := (hreserved install hinstall).globalId
    rw [← hglobal, ← hbase] at hid
    exact (Nat.add_left_cancel hid).symm
  · have hmap := congrArg (List.map Prod.fst) hids
    rw [List.map_map, List.map_map] at hmap
    exact hmap

/-- Every reserved install of a valid call carries the payload that its stage asks for. -/
lemma ReservedFresh.staged {ready : LayerResidency} {fresh : List (ℕ × Source)}
    {reserved : List ReservedInstall} {arena : ExpertArena}
    (h : ReservedFresh base fresh reserved) (hsublist : fresh.Sublist call.experts)
    (hvalid : call.Valid ready.arena.geometry base layer.arena.state.slotCapacity)
    (hstep : InStep space (ready.setArena arena) (reserved.map ReservedInstall.permit)) :
    ∀ install ∈ reserved,
      ∃ entry, stageOutcome call.env ready.arena.geometry install = .ok entry := by
  intro install hinstall
  obtain ⟨expert,hmem,-,hsource,hkey⟩ := h.expert install hinstall
  refine stageOutcome_held hvalid.succeeds hstep.held (List.mem_map_of_mem hinstall) ?_
  rw [hkey, hsource]
  exact hvalid.payload expert (hsublist.subset hmem)

/-- The reserved installs are distinct, and none of them is resident. -/
lemma ReservedFresh.apart {ready : LayerResidency} {fresh : List (ℕ × Source)}
    {reserved : List ReservedInstall} (h : ReservedFresh base fresh reserved)
    (habsent : MissesOk space ready (fresh.map fun expert => (base+expert.1,expert.2))) :
    (reserved.map ReservedInstall.globalId).Nodup ∧
      ∀ install ∈ reserved, install.globalId ∉ Lru.recency ready.residents := by
  constructor
  · have hmisses := habsent.nodup
    rw [List.map_map] at hmisses
    rw [h.globals]
    exact hmisses
  · intro install hinstall hmem
    obtain ⟨record,hrecord⟩ := Lru.mem_recency.mp hmem
    obtain ⟨expert,hexpert,hglobal,-⟩ := h.expert install hinstall
    rw [hglobal] at hrecord
    exact habsent.absent _ (List.mem_map_of_mem hexpert) record hrecord

/-- The installs of a ready layer: they are all granted and staged, or the arena is used up. -/
lemma installMisses_mirrors {ready : LayerResidency} {resolved : ℕ → Option ExpertResidency}
    {fresh : List (ℕ × Source)} {left : List ℕ}
    (hready : ReadyMirrored space base call layer scan ready resolved fresh left)
    (hprepared : Prepared space layer ready ((call.demands base).map DemandExpert.globalId) resolved
      (fresh.map fun expert => (base+expert.1,expert.2)))
    (hbase : base = layer.arena.layerIndex*space.expertsPerLayer) (hmetered : Metered layer.arena)
    (hvalid : call.Valid layer.arena.geometry base layer.arena.state.slotCapacity)
    (hcurrent : ∀ expert ∈ call.experts, Current layer.arena expert.1 expert.2.generation) :
    (∃ next error, installParallelMisses space call.env ready
        (fresh.map fun expert => (base+expert.1,expert.2)) resolved = (next,.error error) ∧
      error.usedUp = true ∧ u32Max ≤ wear layer.arena+scan.misses.length) ∨
    ∃ next final, installParallelMisses space call.env ready
        (fresh.map fun expert => (base+expert.1,expert.2)) resolved = (next,.ok final) ∧
      DemandMirrored space base call layer scan next left := by
  have hbase' : base = ready.arena.layerIndex*space.expertsPerLayer := by
    rw [hprepared.frame.layer]
    exact hbase
  have hcount : scan.misses.length = (fresh.map fun expert => (base+expert.1,expert.2)).length := by
    rw [hready.misses, List.length_map, List.length_map]
  have hstart := Reserving.start hprepared.inStep hprepared.absent hprepared.room
  obtain ⟨b,error,hb,hused,hworn⟩ | ⟨b,reserved,hb,hadvance,hgeneration⟩ :=
    @reserveMisses_current space call.env ready ready.arena _ [] hstart
      ((Advance.of_keeps hready.keeps).metered hmetered) hvalid.succeeds.acquire
      (hready.current hbase' hcurrent)
  · rw [hready.keeps.wear, ← hcount] at hworn
    exact .inl ⟨_,error,installParallelMisses_refused resolved hb,hused,hworn⟩
  rw [List.nil_append] at hb
  obtain ⟨_,_,hcontra,-⟩ | ⟨b',reserved',hagain,hids,hreserved,hstep,-⟩ :=
    @reserveMisses_spec space call.env ready ready.arena _ [] hstart
  · cases hb.symm.trans hcontra
  rw [List.nil_append] at hagain hstep
  cases hb.symm.trans hagain
  -- Every reserved expert is one of the demand, and its bytes pass the stage.
  have hfresh := ReservedFresh.of_misses hbase' hids hreserved
  obtain ⟨hnodup,habsent⟩ := hfresh.apart hprepared.absent
  have hvalid' : call.Valid ready.arena.geometry base layer.arena.state.slotCapacity := by
    rw [hprepared.frame.geometry]
    exact hvalid
  have hstaged := hfresh.staged hready.sublist hvalid' hstep
  obtain ⟨hresidents,hresult⟩ := @installParallelMisses_settle space call.env ready _ _ _ resolved
    hprepared.inStep hprepared.absent hprepared.room hvalid.succeeds.toUndisturbed hb
  obtain ⟨hrecency,final,hfinal⟩ := settle_recency reserved resolved hprepared.inStep.distinct
    hnodup habsent hstaged
  have hinstalled := @installParallelMisses_spec space call.env ready
    (fresh.map fun expert => (base+expert.1,expert.2)) resolved hprepared.inStep hprepared.absent
    hprepared.room hvalid.succeeds.toUndisturbed.takesBack
  have hwear := installParallelMisses_advance resolved hvalid.succeeds.toUndisturbed hb hadvance
  refine .inr ⟨_,final,Prod.ext rfl (hresult.trans hfinal),hinstalled.inStep,
    hprepared.frame.trans hinstalled.frame,hready.loop,hready.observed,?_,_,
    (Advance.of_keeps hready.keeps).trans hwear,?_,?_⟩
  · unfold Mirrors
    rw [hresidents, hrecency, hready.mirrors, hfresh.globals, List.map_append, hready.misses,
      List.map_map]
    rfl
  · rw [List.nil_append, List.length_map, ← List.length_map ReservedInstall.globalId,
      hfresh.globals, List.length_map, hready.misses, List.length_map]
  · rw [List.nil_append]
    intro key hkey
    obtain ⟨install,hinstall,rfl⟩ := List.mem_map.mp hkey
    obtain ⟨expert,hmem,-,hsource,hid⟩ := hfresh.expert install hinstall
    refine ⟨expert,hready.sublist.subset hmem,?_,?_⟩
    · rw [(hreserved install hinstall).key]
      exact hid
    · rw [hgeneration install hinstall, hsource]

/-- A demand and an access side by side: both serve the set alike, or the arena is used up. -/
lemma demandLocked_mirrors (h : InStep space layer [])
    (hmirrors : Mirrors base layer scan.residents) (hscan : scan.misses = [])
    (hbase : base = layer.arena.layerIndex*space.expertsPerLayer) (hmetered : Metered layer.arena)
    (hvalid : call.Valid layer.arena.geometry base layer.arena.state.slotCapacity)
    (hcurrent : ∀ expert ∈ call.experts, Current layer.arena expert.1 expert.2.generation) :
    (∃ next error, demandLocked space call.env .productionConcurrentDirectStaging layer
        (call.demands base) = (next,.error error) ∧ error.usedUp = true ∧
      u32Max ≤ wear layer.arena+(call.ids.foldl ProductionLruSimulation.visit scan).misses.length) ∨
    ∃ next residencies left, demandLocked space call.env .productionConcurrentDirectStaging layer
        (call.demands base) = (next,.ok residencies) ∧
      DemandMirrored space base call layer
        (call.ids.foldl ProductionLruSimulation.visit scan) next left := by
  obtain ⟨ready,resolved,fresh,left,hready⟩ :=
    @prepareDemand_mirrors space layer base call scan h hmirrors hscan hvalid
  have hprepared : Prepared space layer ready ((call.demands base).map DemandExpert.globalId)
      resolved (fresh.map fun expert => (base+expert.1,expert.2)) := by
    have hspec := (@prepareDemand_spec space call.env layer (call.demands base) h ?_ ?_ ?_).2
    · rw [hready.prepared] at hspec
      exact hspec _ _ rfl
    · rw [call.map_globalId]
      exact hvalid.nodup.map (global_injective base)
    · intro demand hdemand
      obtain ⟨expert,hexpert,rfl⟩ := List.mem_map.mp hdemand
      refine ⟨expert.1,?_⟩
      change space.identity (base+expert.1) = _
      rw [hbase]
      refine Namespace.identity_global h.valid h.inside ?_
      rw [← h.width]
      exact hvalid.inRange _ (List.mem_map_of_mem hexpert)
    · rw [DemandCall.demands, List.length_map]
      have hfits := hvalid.fits
      rw [DemandCall.ids, List.length_map] at hfits
      exact hfits
  unfold demandLocked
  rw [hready.prepared]
  dsimp only
  have hpath : installMisses space call.env .productionConcurrentDirectStaging ready
      (fresh.map fun expert => (base+expert.1,expert.2)) resolved = installParallelMisses space
        call.env ready (fresh.map fun expert => (base+expert.1,expert.2)) resolved := rfl
  rw [hpath]
  have hinstalled := @installParallelMisses_spec space call.env ready
    (fresh.map fun expert => (base+expert.1,expert.2)) resolved hprepared.inStep hprepared.absent
    hprepared.room hvalid.succeeds.toUndisturbed.takesBack
  rcases installMisses_mirrors hready hprepared hbase hmetered hvalid hcurrent with
    ⟨next,error,hnext,hused,hworn⟩ | ⟨next,final,hnext,hmirrored⟩
  · rw [hnext]
    exact .inl ⟨next,error,rfl,hused,hworn⟩
  · rw [hnext] at hinstalled ⊢
    have hresolved : ∀ demand ∈ call.demands base,
        ∃ residency, final demand.globalId = some residency := by
      intro demand hdemand
      by_cases hmiss : demand.globalId ∈
          (fresh.map fun expert => (base+expert.1,expert.2)).map Prod.fst
      · obtain ⟨record,-,hfinal⟩ := hinstalled.resident final rfl _ hmiss
        exact ⟨_,hfinal⟩
      · rcases hprepared.hit _ (List.mem_map_of_mem hdemand) with hmem | ⟨record,-,hfound⟩
        · exact absurd hmem hmiss
        · refine ⟨record.residency,?_⟩
          rw [hinstalled.other final rfl _ hmiss, hfound]
    obtain ⟨residencies,hcollect⟩ := collectResolved_of_resolved hresolved
    exact .inr ⟨next,residencies,left,Prod.ext rfl hcollect,hmirrored⟩

end Demand

end MicroExpertRouter.Residency
