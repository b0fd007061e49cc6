import MicroExpertRouter.Oracle.Simulation
import MicroExpertRouter.Lib.Paging

/-! What one access does under each policy. The LRU simulation makes a recency step and the
MIN simulation a farthest-next-use step of the paging library; both charge the same counters
for the same resident set. -/
namespace MicroExpertRouter.Oracle
open Paging

/-- An access that validation lets through. -/
structure ValidIds (capacity experts : ℕ) (ids : List ℕ) : Prop where
  fits : ids.length ≤ capacity
  nodup : ids.Nodup
  inRange : ∀ id ∈ ids, id<experts

lemma validateIds_ok_iff (position experts : ℕ) (unique : Finset ℕ) (ids : List ℕ) :
    validateIds position experts unique ids = .ok () ↔
      ids.Nodup ∧ ∀ id ∈ ids, id<experts ∧ id ∉ unique := by
  induction ids generalizing unique with
  | nil => simp [validateIds]
  | cons id ids ih =>
    simp only [validateIds, List.nodup_cons, List.forall_mem_cons]
    split_ifs with h
    · simp only [false_iff]
      rintro ⟨-,⟨hlt,hn⟩,-⟩
      rcases h with h | h
      · omega
      · exact hn h
    · push Not at h
      rw [ih]
      constructor
      · rintro ⟨hnd,hall⟩
        refine ⟨⟨fun hmem => (hall id hmem).2 (Finset.mem_insert_self _ _),hnd⟩,h,?_⟩
        intro x hx
        exact ⟨(hall x hx).1,fun hu => (hall x hx).2 (Finset.mem_insert_of_mem hu)⟩
      · rintro ⟨⟨hid,hnd⟩,-,hall⟩
        refine ⟨hnd,fun x hx => ⟨(hall x hx).1,fun hu => ?_⟩⟩
        rcases Finset.mem_insert.mp hu with rfl | hu
        · exact hid hx
        · exact (hall x hx).2 hu

lemma validateFrom_ok_iff (capacity experts position : ℕ) (accesses : List (List ℕ)) :
    validateFrom capacity experts position accesses = .ok () ↔
      ∀ ids ∈ accesses, ValidIds capacity experts ids := by
  induction accesses generalizing position with
  | nil => simp [validateFrom]
  | cons ids accesses ih =>
    simp only [validateFrom, List.forall_mem_cons]
    split_ifs with h
    · simp only [false_iff]
      rintro ⟨hv,-⟩
      have := hv.fits
      omega
    · have hids := validateIds_ok_iff position experts ∅ ids
      cases hres : validateIds position experts ∅ ids with
      | error e =>
        rw [hres] at hids
        change Except.error e = Except.ok () ↔ _
        simp only [reduceCtorEq, false_iff] at hids ⊢
        rintro ⟨hv,-⟩
        exact hids ⟨hv.nodup,fun id hid => ⟨hv.inRange id hid,Finset.notMem_empty _⟩⟩
      | ok u =>
        rw [hres] at hids
        obtain ⟨hnd,hall⟩ := hids.mp rfl
        change validateFrom capacity experts (position+1) accesses = Except.ok () ↔ _
        rw [ih]
        constructor
        · intro hrest
          exact ⟨⟨by omega,hnd,fun id hid => (hall id hid).1⟩,hrest⟩
        · exact fun hboth => hboth.2

/-- Validation accepts exactly the sequences of legal accesses for a legal capacity. -/
theorem validateAccesses_ok_iff (capacity experts : ℕ) (accesses : List (List ℕ)) :
    validateAccesses capacity experts accesses = .ok () ↔
      0<capacity ∧ capacity ≤ experts ∧ ∀ ids ∈ accesses, ValidIds capacity experts ids := by
  unfold validateAccesses
  split_ifs with h
  · simp only [false_iff]
    rintro ⟨h1,h2,-⟩
    omega
  · rw [validateFrom_ok_iff]
    constructor
    · intro hall
      exact ⟨by omega,by omega,hall⟩
    · exact fun hall => hall.2.2

def PolicyCounts.plus (a b : PolicyCounts) : PolicyCounts :=
  ⟨a.routeReferences+b.routeReferences,a.cacheHits+b.cacheHits,
    a.missingInstalls+b.missingInstalls,a.missBoundaries+b.missBoundaries,
    a.compulsoryColdInstalls+b.compulsoryColdInstalls⟩

/-- The charge of one access against the resident set `held` when `seen` were used before. -/
def accessCounts (held seen : Finset ℕ) (ids : List ℕ) : PolicyCounts where
  routeReferences := ids.length
  cacheHits := (ids.filter (· ∈ held)).length
  missingInstalls := (ids.filter (· ∉ held)).length
  missBoundaries := if (ids.filter (· ∉ held)).isEmpty then 0 else 1
  compulsoryColdInstalls := (ids.filter (· ∉ seen)).length

section
variable {σ : Type} {holds : σ → ℕ → Bool} {touch : ℕ → σ → σ}

/-- The per-expert loop in closed form, for any touch that keeps the residents. -/
lemma foldl_visit (hkeep : ∀ r id x, holds r id = true → holds (touch id r) x = holds r x)
    (ids : List ℕ) (hnd : ids.Nodup) (s : Scan σ) :
    ids.foldl (Scan.visit holds touch) s =
      { residents := (ids.filter (holds s.residents)).foldl (fun r id => touch id r) s.residents
        everSeen := s.everSeen ∪ (ids.filter (fun id => !holds s.residents id)).toFinset
        misses := s.misses++ids.filter (fun id => !holds s.residents id)
        counts := { s.counts with
          cacheHits := s.counts.cacheHits+(ids.filter (holds s.residents)).length
          missingInstalls := s.counts.missingInstalls+
            (ids.filter (fun id => !holds s.residents id)).length
          compulsoryColdInstalls := s.counts.compulsoryColdInstalls+
            (ids.filter (fun id => !holds s.residents id && decide (id ∉ s.everSeen))).length } } := by
  induction ids generalizing s with
  | nil => simp
  | cons id ids ih =>
    obtain ⟨hid,hnd⟩ := List.nodup_cons.mp hnd
    rw [List.foldl_cons, ih hnd]
    by_cases hh : holds s.residents id = true
    · have hr : holds (touch id s.residents) = holds s.residents := funext (hkeep _ _ · hh)
      simp only [Scan.visit, Scan.hit, hh, if_true, hr, List.filter_cons_of_pos, List.foldl_cons,
        Bool.not_true, Bool.false_and, Bool.false_eq_true, not_false_eq_true,
        List.filter_cons_of_neg, List.length_cons, Scan.mk.injEq, PolicyCounts.mk.injEq, true_and,
        and_true]
      omega
    · have hh' : holds s.residents id = false := by simpa using hh
      have hseen : ids.filter (fun x => !holds s.residents x && decide (x ∉ insert id s.everSeen)) =
          ids.filter (fun x => !holds s.residents x && decide (x ∉ s.everSeen)) := by
        apply List.filter_congr
        intro x hx
        have hne : x ≠ id := fun h => hid (h ▸ hx)
        simp [hne]
      by_cases hold : id ∈ s.everSeen
      · simp only [Scan.visit, Scan.miss, hh', Bool.false_eq_true, if_false, hold, if_true,
          Finset.insert_eq_of_mem hold, not_false_eq_true, List.filter_cons_of_neg,
          Bool.not_false, List.filter_cons_of_pos, not_true_eq_false, decide_false, Bool.and_false,
          List.length_cons, List.append_assoc, List.cons_append, List.nil_append,
          List.toFinset_cons, Finset.union_insert, Scan.mk.injEq, PolicyCounts.mk.injEq, true_and,
          and_true]
        refine ⟨?_,by omega⟩
        rw [Finset.insert_eq_of_mem (Finset.mem_union_left _ hold)]
      · simp only [Scan.visit, Scan.miss, hh', Bool.false_eq_true, if_false, hold, hseen,
          not_false_eq_true, List.filter_cons_of_neg, Bool.not_false, List.filter_cons_of_pos,
          decide_true, Bool.and_true, List.length_cons, List.append_assoc, List.cons_append,
          List.nil_append, List.toFinset_cons, Finset.union_insert, Finset.insert_union,
          Scan.mk.injEq, PolicyCounts.mk.injEq, true_and]
        omega

end

/-- The loop charges exactly `accessCounts`, once the residents have all been seen. -/
lemma boundary_eq {σ : Type} {held seen : Finset ℕ} (hsub : held ⊆ seen) (counts : PolicyCounts)
    (ids : List ℕ) (references : ℕ) (hrefs : references = counts.routeReferences+ids.length)
    (store : σ) (seen' : Finset ℕ) :
    Scan.boundary (⟨store,seen',ids.filter (fun id => !decide (id ∈ held)),
      { counts with
        routeReferences := references
        cacheHits := counts.cacheHits+(ids.filter (fun id => decide (id ∈ held))).length
        missingInstalls := counts.missingInstalls+
          (ids.filter (fun id => !decide (id ∈ held))).length
        compulsoryColdInstalls := counts.compulsoryColdInstalls+
          (ids.filter (fun id => !decide (id ∈ held) && decide (id ∉ seen))).length }⟩ : Scan σ) =
      counts.plus (accessCounts held seen ids) := by
  have hc : ids.filter (fun id => !decide (id ∈ held) && decide (id ∉ seen)) =
      ids.filter (· ∉ seen) := by
    apply List.filter_congr
    intro x _
    by_cases hx : x ∈ seen
    · simp [hx]
    · have : x ∉ held := fun h => hx (hsub h)
      simp [hx,this]
  have hm : ids.filter (fun id => !decide (id ∈ held)) = ids.filter (· ∉ held) := by
    simp only [decide_not]
  simp only [Scan.boundary, PolicyCounts.plus, accessCounts, hc, hm, hrefs]
  by_cases he : (ids.filter (· ∉ held)).isEmpty = true
  · simp only [he, if_true, Nat.add_zero]
  · simp only [he, Bool.false_eq_true, if_false]

lemma seen_union {held seen : Finset ℕ} (hsub : held ⊆ seen) (ids : List ℕ) :
    seen ∪ (ids.filter (fun id => !decide (id ∈ held))).toFinset = seen ∪ ids.toFinset := by
  ext x
  have := @hsub x
  simp only [Finset.mem_union, List.mem_toFinset, List.mem_filter, Bool.not_eq_true',
    decide_eq_false_iff_not]
  tauto

lemma addCount_eq_ok {detail : String} {a b c : ℕ} :
    addCount detail a b = .ok c ↔ a+b ≤ u64Max ∧ c = a+b := by
  unfold addCount
  cases h : checkedAdd u64Max a b with
  | none =>
    have : ¬ a+b ≤ u64Max := fun hle => by simp [checkedAdd_of_le hle] at h
    simp [this]
  | some d =>
    obtain ⟨hle,rfl⟩ := checkedAdd_eq_some.mp h
    simp [hle,eq_comm]

/-- What one access charges is consistent by itself, and sums keep it so. -/
structure PolicyCounts.Balanced (counts : PolicyCounts) : Prop where
  references : counts.cacheHits+counts.missingInstalls = counts.routeReferences
  compulsory : counts.compulsoryColdInstalls ≤ counts.missingInstalls
  boundaries : counts.missBoundaries ≤ counts.missingInstalls

lemma PolicyCounts.Balanced.plus {a b : PolicyCounts} (ha : a.Balanced) (hb : b.Balanced) :
    (a.plus b).Balanced := by
  obtain ⟨ha1,ha2,ha3⟩ := ha
  obtain ⟨hb1,hb2,hb3⟩ := hb
  constructor <;> simp only [PolicyCounts.plus] <;> omega

lemma accessCounts_balanced {held seen : Finset ℕ} (hsub : held ⊆ seen) (ids : List ℕ) :
    (accessCounts held seen ids).Balanced := by
  have hsplit := (List.filter_append_perm (· ∈ held) ids).length_eq
  rw [List.length_append] at hsplit
  have hnew : (ids.filter (· ∉ seen)).length ≤ (ids.filter (· ∉ held)).length := by
    apply List.Sublist.length_le
    apply List.monotone_filter_right
    intro x hx
    have : x ∉ seen := by simpa using hx
    simpa using fun h => this (hsub h)
  refine ⟨?_,hnew,?_⟩
  · simpa [accessCounts] using hsplit
  · simp only [accessCounts]
    split_ifs with he
    · omega
    · rw [List.isEmpty_iff] at he
      exact List.length_pos_iff.mpr he

lemma accessCounts_missing (held seen : Finset ℕ) {ids : List ℕ} (hnd : ids.Nodup) :
    (accessCounts held seen ids).missingInstalls = (ids.toFinset \ held).card := by
  have hset : ids.toFinset \ held = (ids.filter (· ∉ held)).toFinset := by
    ext x
    simp
  rw [hset, List.toFinset_card_of_nodup (hnd.filter _)]
  rfl

/-- Total number of expert references of a sequence. -/
def references (accesses : List (List ℕ)) : ℕ := (accesses.map List.length).sum

@[simp] lemma references_cons (ids : List ℕ) (accesses : List (List ℕ)) :
    references (ids::accesses) = ids.length+references accesses := by
  simp [references]

@[simp] lemma references_append (first second : List (List ℕ)) :
    references (first++second) = references first+references second := by
  simp [references]

/-- Balanced counters accumulate without overflow as soon as their references do. -/
lemma checkedAccumulate_of_balanced {a b : PolicyCounts} (ha : a.Balanced) (hb : b.Balanced)
    (h : a.routeReferences+b.routeReferences ≤ u64Max) :
    a.checkedAccumulate b = .ok (a.plus b) := by
  obtain ⟨ha1,ha2,ha3⟩ := ha
  obtain ⟨hb1,hb2,hb3⟩ := hb
  have hadd : ∀ detail x y, x+y ≤ u64Max → addCount detail x y = .ok (x+y) :=
    fun detail x y hle => addCount_eq_ok.mpr ⟨hle,rfl⟩
  rw [PolicyCounts.checkedAccumulate, hadd _ _ _ h,
    hadd _ a.cacheHits b.cacheHits (by omega),
    hadd _ a.missingInstalls b.missingInstalls (by omega),
    hadd _ a.missBoundaries b.missBoundaries (by omega),
    hadd _ a.compulsoryColdInstalls b.compulsoryColdInstalls (by omega)]
  rfl

namespace ProductionLruSimulation

/-- What every reachable LRU state keeps. -/
structure Good (state : ProductionLruSimulation) : Prop where
  nodup : state.lru.Nodup
  seen : state.lru.toFinset ⊆ state.everSeen

lemma mem_touch {lru : List ℕ} {id : ℕ} (h : id ∈ lru) (x : ℕ) : x ∈ touch id lru ↔ x ∈ lru := by
  by_cases hx : x = id
  · simp [touch,hx,h]
  · simp [touch,hx,List.mem_erase_of_ne hx]

/-- Touching hits in order moves them, in order, behind all other residents. -/
lemma foldl_touch {hits lru : List ℕ} (hh : hits.Nodup) (hl : lru.Nodup)
    (hsub : ∀ x ∈ hits, x ∈ lru) :
    hits.foldl (fun lru id => touch id lru) lru = lru.filter (· ∉ hits)++hits := by
  induction hits generalizing lru with
  | nil => simp
  | cons id hits ih =>
    obtain ⟨hid,hh⟩ := List.nodup_cons.mp hh
    have hmem : id ∈ lru := hsub id List.mem_cons_self
    have htouch : (touch id lru).Nodup := by
      rw [touch, List.nodup_append]
      refine ⟨hl.erase id,List.nodup_singleton id,?_⟩
      rintro x hx y hy rfl
      rw [List.mem_singleton] at hy
      exact (hl.mem_erase_iff.mp hx).1 hy
    rw [List.foldl_cons, ih hh htouch]
    · rw [touch, List.filter_append, hl.erase_eq_filter, List.filter_filter]
      simp only [List.filter_cons, hid, not_false_eq_true, decide_true, if_true, List.filter_nil,
        List.append_assoc, List.singleton_append, List.append_cancel_right_eq]
      apply List.filter_congr
      intro x _
      simp only [List.mem_cons, not_or, Bool.decide_and, bne, Bool.and_comm, decide_not]
      rfl
    · intro x hx
      exact (mem_touch hmem x).mpr (hsub x (List.mem_cons_of_mem _ hx))

/-- The eviction loop drops just enough of the oldest unrequested residents. -/
lemma evictUntil_lru {requested unrequested hits : List ℕ} {misses capacity fuel : ℕ}
    (hun : ∀ x ∈ unrequested, x ∉ requested) (hroom : hits.length+misses ≤ capacity)
    (hfuel : unrequested.length ≤ fuel) :
    evictUntil (fun lru => lru.length+misses ≤ capacity) (evict requested) fuel
        (unrequested++hits) =
      some (unrequested.drop (unrequested.length+hits.length+misses-capacity)++hits) := by
  induction unrequested generalizing fuel with
  | nil =>
    rw [evictUntil_of_fits (by simpa using hroom)]
    simp
  | cons x unrequested ih =>
    by_cases hfit : (x::unrequested).length+hits.length+misses ≤ capacity
    · rw [evictUntil_of_fits (by rw [decide_eq_true_eq, List.length_append]; exact hfit),
        Nat.sub_eq_zero_of_le hfit, List.drop_zero]
    · obtain ⟨fuel,rfl⟩ : ∃ n, fuel = n+1 := ⟨fuel-1,by simp at hfuel; omega⟩
      have hvictim : evict requested ((x::unrequested)++hits) = some (unrequested++hits) := by
        have hx := hun x List.mem_cons_self
        simp [evict,List.findIdx?_cons,hx]
      rw [evictUntil_succ_of_not_fits
        (by rw [decide_eq_false_iff_not, List.length_append]; exact hfit), hvictim,
        Option.bind_some, ih (fun y hy => hun y (List.mem_cons_of_mem _ hy)) (by simpa using hfuel)]
      have hk : (x::unrequested).length+hits.length+misses-capacity =
          unrequested.length+hits.length+misses-capacity+1 := by
        simp only [List.length_cons] at hfit ⊢
        omega
      rw [hk, List.drop_succ_cons]

/-- One LRU access is a recency step charged with `accessCounts`; it can only fail on the
reference counter. -/
theorem access_eq {self : ProductionLruSimulation} (hgood : self.Good) (counts : PolicyCounts)
    {ids : List ℕ} (hv : ValidIds self.capacity self.experts ids) :
    ∃ next : ProductionLruSimulation, next.Good ∧ next.capacity = self.capacity ∧
      next.experts = self.experts ∧ next.everSeen = self.everSeen ∪ ids.toFinset ∧
      RecencyStep self.capacity ids.toFinset self.lru next.lru ∧
      self.access counts ids =
        (addCount "route count overflow" counts.routeReferences ids.length).map
          (fun _ => (next,counts.plus (accessCounts self.lru.toFinset self.everSeen ids))) := by
  set hits := ids.filter (· ∈ self.lru) with hhits
  set misses := ids.filter (fun id => !decide (id ∈ self.lru)) with hmisses
  set unrequested := self.lru.filter (· ∉ ids) with hun
  have hperm : (hits++misses).Perm ids := List.filter_append_perm _ ids
  have hother : self.lru.filter (· ∉ hits) = unrequested := by
    apply List.filter_congr
    intro x hx
    simp [hhits,hx]
  have htouch := foldl_touch (hv.nodup.filter (· ∈ self.lru)) hgood.nodup
    (fun x hx => by simpa using (List.mem_filter.mp hx).2)
  rw [← hhits, hother] at htouch
  have hloop : evictUntil (fun lru => lru.length+misses.length ≤ self.capacity) (evict ids)
      (unrequested++hits).length (unrequested++hits) = some (unrequested.drop
        (unrequested.length+(hits++misses).length-self.capacity)++hits) := by
    have hsum : (hits++misses).length = hits.length+misses.length := List.length_append
    rw [hsum, ← Nat.add_assoc]
    apply evictUntil_lru
    · exact fun x hx => by simpa using (List.mem_filter.mp hx).2
    · rw [← hsum, hperm.length_eq]
      exact hv.fits
    · simp
  have hscan := foldl_visit (fun (lru : List ℕ) id x (h : decide (id ∈ lru) = true) =>
    decide_eq_decide.mpr (mem_touch (of_decide_eq_true h) x)) ids hv.nodup
  have hstep := RecencyStep.of_drop hgood.nodup hv.nodup hperm hv.fits
  rw [← hun] at hstep
  refine ⟨{ self with
    lru := unrequested.drop (unrequested.length+(hits++misses).length-self.capacity)++
      (hits++misses)
    everSeen := self.everSeen ∪ ids.toFinset },⟨?_,?_⟩,rfl,rfl,rfl,hstep,?_⟩
  · exact hstep.nodup
  · intro x hx
    have := hstep.lazyStep.installs hx
    rcases Finset.mem_union.mp this with h | h
    · exact Finset.mem_union_left _ (hgood.seen h)
    · exact Finset.mem_union_right _ h
  · unfold access
    cases hrefs : addCount "route count overflow" counts.routeReferences ids.length with
    | error e => rfl
    | ok references =>
      have hb := boundary_eq hgood.seen counts ids references (addCount_eq_ok.mp hrefs).2
        (unrequested++hits) (self.everSeen ∪ misses.toFinset)
      have hs := seen_union hgood.seen ids
      simp only [List.mem_toFinset] at hb hs
      dsimp only [bind, Except.bind]
      rw [visit, hscan]
      simp only [← hhits, ← hmisses, htouch, List.nil_append, hloop]
      rw [hb, hs, List.append_assoc]
      rfl

end ProductionLruSimulation

end MicroExpertRouter.Oracle
