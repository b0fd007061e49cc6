import MicroExpertRouter.Oracle.Policies

/-! The MIN simulation follows farthest-next-use: the future index always lists the remaining
use positions, the key of an eviction orders residents by next use, and each access is a
farthest step of the paging library. Optimality over every legal schedule follows. -/
namespace MicroExpertRouter.Oracle
open Paging

/-- Positions, counted from `position`, at which an expert is used. -/
def usesFrom : ℕ → List (List ℕ) → ℕ → List ℕ
  | _, [], _ => []
  | position, ids::accesses, id =>
    (if id ∈ ids then [position] else [])++usesFrom (position+1) accesses id

/-- The access sets of a sequence of demand lists. -/
def demandSets (accesses : List (List ℕ)) : List (Finset ℕ) := accesses.map List.toFinset

@[simp] lemma demandSets_cons (ids : List ℕ) (accesses : List (List ℕ)) :
    demandSets (ids::accesses) = ids.toFinset::demandSets accesses := rfl

@[simp] lemma demandSets_append (first second : List (List ℕ)) :
    demandSets (first++second) = demandSets first++demandSets second := List.map_append

lemma usesFrom_bounds {position : ℕ} {accesses : List (List ℕ)} {id q : ℕ}
    (h : q ∈ usesFrom position accesses id) : position ≤ q ∧ q<position+accesses.length := by
  induction accesses generalizing position with
  | nil => simp [usesFrom] at h
  | cons ids accesses ih =>
    rw [usesFrom, List.mem_append] at h
    rw [List.length_cons]
    rcases h with h | h
    · split_ifs at h with hid
      · rw [List.mem_singleton] at h
        omega
      · simp at h
    · have := ih h
      omega

/-- The head of the use list is the next use. -/
lemma mem_usedWithin_iff (position : ℕ) (accesses : List (List ℕ)) (id n : ℕ) :
    id ∈ usedWithin (demandSets accesses) n ↔
      ∃ q, (usesFrom position accesses id).head? = some q ∧ q<position+n := by
  induction accesses generalizing position n with
  | nil => simp [usesFrom,demandSets]
  | cons ids accesses ih =>
    rw [demandSets_cons, usesFrom]
    cases n with
    | zero =>
      simp only [usedWithin_zero, Finset.notMem_empty, false_iff, not_exists, not_and, Nat.add_zero,
        Nat.not_lt]
      intro q hq
      exact (usesFrom_bounds (List.mem_of_mem_head? hq : q ∈ usesFrom position (ids::accesses) id)).1
    | succ n =>
      rw [usedWithin_cons_succ, Finset.mem_union, List.mem_toFinset, ih (position+1) n]
      by_cases hid : id ∈ ids
      · simp [hid]
      · simp only [hid, false_or, if_false, List.nil_append]
        have harith : position+1+n = position+(n+1) := by omega
        rw [harith]

namespace BeladyMinSimulation

lemma noteUses_eq {ids : List ℕ} (hnd : ids.Nodup) (position : ℕ) (future : ℕ → List ℕ) (id : ℕ) :
    noteUses position future ids id = future id++(if id ∈ ids then [position] else []) := by
  induction ids generalizing future with
  | nil => simp [noteUses]
  | cons first ids ih =>
    obtain ⟨hfirst,hnd⟩ := List.nodup_cons.mp hnd
    have hrec := ih hnd (Function.update future first (future first++[position]))
    change noteUses position (Function.update future first (future first++[position])) ids id = _
    rw [hrec]
    by_cases heq : id = first
    · subst heq
      simp [hfirst]
    · simp [heq]

/-- The index built before the run lists exactly the uses. -/
lemma buildFuture_eq {accesses : List (List ℕ)} (hnd : ∀ ids ∈ accesses, ids.Nodup)
    (position : ℕ) (future : ℕ → List ℕ) (id : ℕ) :
    buildFuture position accesses future id = future id++usesFrom position accesses id := by
  induction accesses generalizing position future with
  | nil => simp [buildFuture,usesFrom]
  | cons ids accesses ih =>
    obtain ⟨hids,hnd⟩ := List.forall_mem_cons.mp hnd
    rw [buildFuture, ih hnd, noteUses_eq hids, usesFrom, List.append_assoc]

lemma popUses_eq {position : ℕ} {ids : List ℕ} (hnd : ids.Nodup) {future later : ℕ → List ℕ}
    (h : ∀ id, future id = (if id ∈ ids then [position] else [])++later id) :
    popUses position future ids = .ok later := by
  induction ids generalizing future with
  | nil =>
    have : future = later := funext fun id => by simpa using h id
    rw [popUses, this]
  | cons id ids ih =>
    obtain ⟨hid,hnd⟩ := List.nodup_cons.mp hnd
    have hhead : future id = position::later id := by simpa using h id
    rw [popUses, hhead, List.head?_cons, if_pos rfl, List.tail_cons]
    apply ih hnd
    intro x
    by_cases hx : x = id
    · subst hx
      simp [hid]
    · simpa [hx] using h x

/-- Popping one access leaves the uses of the accesses after it. -/
lemma popUses_usesFrom {position : ℕ} {ids : List ℕ} (hnd : ids.Nodup)
    (accesses : List (List ℕ)) :
    popUses position (usesFrom position (ids::accesses)) ids =
      .ok (usesFrom (position+1) accesses) :=
  popUses_eq hnd fun _ => rfl

/-- An eviction removes an unrequested resident of the largest key. -/
lemma evict_spec {future : ℕ → List ℕ} {requested : List ℕ} {residents after : Finset ℕ}
    (h : evict future requested residents = some after) :
    ∃ victim ∈ residents, victim ∉ requested ∧ after = residents.erase victim ∧
      ∀ g ∈ residents, g ∉ requested → victimKey future g ≤ victimKey future victim := by
  obtain ⟨key,hkey,rfl⟩ := Option.map_eq_some_iff.mp h
  obtain ⟨victim,hv,rfl⟩ := Finset.mem_image.mp (Finset.mem_of_max hkey)
  rw [Finset.mem_filter] at hv
  refine ⟨victim,hv.1,hv.2,rfl,?_⟩
  intro g hg hreq
  exact Finset.le_max_of_eq (Finset.mem_image_of_mem _
    (Finset.mem_filter.mpr ⟨hg,hreq⟩)) hkey

lemma evict_isSome {future : ℕ → List ℕ} {requested : List ℕ} {residents : Finset ℕ} {x : ℕ}
    (hx : x ∈ residents) (hreq : x ∉ requested) :
    ∃ after, evict future requested residents = some after := by
  have hmem : victimKey future x ∈
      (residents.filter (· ∉ requested)).image (victimKey future) :=
    Finset.mem_image_of_mem _ (Finset.mem_filter.mpr ⟨hx,hreq⟩)
  obtain ⟨key,hkey⟩ := Finset.max_of_mem hmem
  exact ⟨_,by rw [evict, hkey]; rfl⟩

/-- The key orders experts by next use, as long as every position is below `usize::MAX`. -/
lemma noLater_of_victimKey_le {position : ℕ} {accesses : List (List ℕ)} {g e : ℕ}
    (hbound : position+accesses.length ≤ usizeMax)
    (h : victimKey (usesFrom position accesses) g ≤ victimKey (usesFrom position accesses) e) :
    NoLater (demandSets accesses) g e := by
  intro n he
  rw [mem_usedWithin_iff position] at he ⊢
  obtain ⟨q,hq,hlt⟩ := he
  have hqb := (usesFrom_bounds (List.mem_of_mem_head? hq)).2
  have hle := (Prod.Lex.monotone_fst _ _ h)
  simp only [victimKey, ofLex_toLex, hq, Option.getD_some] at hle
  cases hg : (usesFrom position accesses g).head? with
  | none =>
    rw [hg, Option.getD_none] at hle
    omega
  | some r =>
    rw [hg, Option.getD_some] at hle
    exact ⟨r,rfl,by omega⟩

/-- What the eviction loop keeps while it shrinks `before` for `misses` installs. -/
structure Shrinks (capacity misses : ℕ) (rest : List (Finset ℕ)) (ids : List ℕ)
    (before now : Finset ℕ) : Prop where
  sub : now ⊆ before
  keeps : ∀ x ∈ before, x ∈ ids → x ∈ now
  tight : now ≠ before → capacity ≤ now.card+misses
  farthest : ∀ e ∈ before, e ∉ now → ∀ g ∈ now, g ∉ ids → NoLater rest g e

lemma Shrinks.evict {capacity misses position : ℕ} {accesses : List (List ℕ)} {ids : List ℕ}
    {before now after : Finset ℕ} (hbound : position+accesses.length ≤ usizeMax)
    (h : Shrinks capacity misses (demandSets accesses) ids before now)
    (hfull : capacity<now.card+misses)
    (he : evict (usesFrom position accesses) ids now = some after) :
    Shrinks capacity misses (demandSets accesses) ids before after := by
  obtain ⟨victim,hv,hreq,rfl,hmax⟩ := evict_spec he
  have hcard := Finset.card_erase_of_mem hv
  refine ⟨(Finset.erase_subset _ _).trans h.sub,?_,?_,?_⟩
  · intro x hx hid
    exact Finset.mem_erase.mpr ⟨fun hxv => hreq (hxv ▸ hid),h.keeps x hx hid⟩
  · intro _
    omega
  · intro e heb hea g hg hgid
    obtain ⟨hgv,hgn⟩ := Finset.mem_erase.mp hg
    by_cases hev : e = victim
    · subst hev
      exact noLater_of_victimKey_le hbound (hmax g hgn hgid)
    · exact h.farthest e heb (fun hen => hea (Finset.mem_erase.mpr ⟨hev,hen⟩)) g hgn hgid

/-- A resident set too large for the access holds an unrequested expert. -/
lemma exists_unrequested {capacity : ℕ} {ids : List ℕ} {before now : Finset ℕ} (hnd : ids.Nodup)
    (hfits : ids.length ≤ capacity) (hsub : now ⊆ before)
    (hfull : capacity<now.card+(ids.filter (fun id => !decide (id ∈ before))).length) :
    ∃ x ∈ now, x ∉ ids := by
  by_contra hall
  push Not at hall
  have hhits : now ⊆ (ids.filter (· ∈ before)).toFinset := by
    intro x hx
    simp [hall x hx,hsub hx]
  have hcard := Finset.card_le_card hhits
  rw [List.toFinset_card_of_nodup (hnd.filter _)] at hcard
  have hsplit := (List.filter_append_perm (· ∈ before) ids).length_eq
  rw [List.length_append] at hsplit
  omega

/-- The eviction loop of an access ends, and shrinks its residents to make room. -/
lemma evictUntil_shrinks {capacity position : ℕ} {accesses : List (List ℕ)} {ids : List ℕ}
    {before : Finset ℕ} (hnd : ids.Nodup) (hfits : ids.length ≤ capacity)
    (hbound : position+accesses.length ≤ usizeMax) :
    ∃ after, evictUntil (fun now : Finset ℕ => decide (now.card+
          (ids.filter (fun id => !decide (id ∈ before))).length ≤ capacity))
        (evict (usesFrom position accesses) ids) before.card before = some after ∧
      Shrinks capacity (ids.filter (fun id => !decide (id ∈ before))).length
        (demandSets accesses) ids before after ∧
      after.card+(ids.filter (fun id => !decide (id ∈ before))).length ≤ capacity := by
  set misses := ids.filter (fun id => !decide (id ∈ before))
  have hstart : Shrinks capacity misses.length (demandSets accesses) ids before before :=
    ⟨subset_rfl,fun x hx _ => hx,fun h => absurd rfl h,fun e he hen => absurd he hen⟩
  have hstep : ∀ now, Shrinks capacity misses.length (demandSets accesses) ids before now →
      decide (now.card+misses.length ≤ capacity) = false →
      ∃ after, evict (usesFrom position accesses) ids now = some after ∧
        Shrinks capacity misses.length (demandSets accesses) ids before after ∧
        after.card<now.card := by
    intro now hnow hfull
    have hlt : capacity<now.card+misses.length := by simpa using hfull
    obtain ⟨x,hx,hxid⟩ := exists_unrequested hnd hfits hnow.sub hlt
    obtain ⟨after,hafter⟩ := evict_isSome hx hxid
    obtain ⟨victim,hvic,_,rfl,_⟩ := evict_spec hafter
    exact ⟨_,hafter,hnow.evict hbound hlt hafter,Finset.card_erase_lt_of_mem hvic⟩
  obtain ⟨after,hloop⟩ := evictUntil_total Finset.card hstep hstart le_rfl
  obtain ⟨hafter,hfits⟩ := evictUntil_spec (fun now t hnow hfull ht => by
    obtain ⟨u,hu,hshr,_⟩ := hstep now hnow hfull
    rw [ht] at hu
    exact (Option.some.inj hu) ▸ hshr) hstart hloop
  exact ⟨after,hloop,hafter,by simpa using hfits⟩

/-- The shrunk set together with the misses is a farthest step. -/
lemma Shrinks.farthestStep {capacity : ℕ} {rest : List (Finset ℕ)} {ids : List ℕ}
    {before now : Finset ℕ} (hnd : ids.Nodup)
    (h : Shrinks capacity (ids.filter (fun id => !decide (id ∈ before))).length rest ids before now)
    (hroom : now.card+(ids.filter (fun id => !decide (id ∈ before))).length ≤ capacity) :
    FarthestStep capacity rest ids.toFinset before
      (now ∪ (ids.filter (fun id => !decide (id ∈ before))).toFinset) := by
  set misses := ids.filter (fun id => !decide (id ∈ before)) with hm
  have hmem : ∀ x, x ∈ misses ↔ x ∈ ids ∧ x ∉ before := fun x => by simp [hm]
  have hdis : Disjoint now misses.toFinset := by
    rw [Finset.disjoint_left]
    intro x hx hxm
    exact ((hmem x).mp (List.mem_toFinset.mp hxm)).2 (h.sub hx)
  have hcard : (now ∪ misses.toFinset).card = now.card+misses.length := by
    rw [Finset.card_union_of_disjoint hdis, List.toFinset_card_of_nodup (hnd.filter _)]
  refine ⟨⟨⟨?_,?_,by omega⟩,?_⟩,?_⟩
  · intro x hx
    rw [List.mem_toFinset] at hx
    rw [Finset.mem_union, List.mem_toFinset, hmem]
    by_cases hb : x ∈ before
    · exact Or.inl (h.keeps x hb hx)
    · exact Or.inr ⟨hx,hb⟩
  · intro x hx
    rw [Finset.mem_union, List.mem_toFinset, hmem] at hx
    rw [Finset.mem_union, List.mem_toFinset]
    exact hx.imp (fun hn => h.sub hn) And.left
  · intro hne
    have hshrunk : now ≠ before := by
      rintro rfl
      apply hne
      ext x
      simp only [Finset.mem_union, List.mem_toFinset, hmem]
      tauto
    have := h.tight hshrunk
    omega
  · intro e he g hg
    simp only [Finset.mem_sdiff, Finset.mem_union, List.mem_toFinset, hmem, not_or, not_and,
      not_not] at he hg
    obtain ⟨heu,hen,hem⟩ := he
    have heb : e ∈ before := heu.elim id hem
    exact h.farthest e heb hen g (hg.1.resolve_right fun hx => hg.2 hx.1) hg.2

/-- What every reachable MIN state keeps: the index lists the uses still to come. -/
structure Good (state : BeladyMinSimulation) : Prop where
  seen : state.residents ⊆ state.everSeen
  planned : ∀ ids ∈ state.plannedAccesses, ValidIds state.capacity state.experts ids
  positions : state.plannedAccesses.length ≤ usizeMax
  index : state.future =
    usesFrom state.nextPosition (state.plannedAccesses.drop state.nextPosition)

/-- The next planned access is a farthest step charged with `accessCounts`; it can only fail
on the reference counter. -/
theorem access_eq {self : BeladyMinSimulation} (hgood : self.Good) (counts : PolicyCounts)
    {ids : List ℕ} {rest : List (List ℕ)}
    (hnext : self.plannedAccesses.drop self.nextPosition = ids::rest) :
    ∃ next : BeladyMinSimulation, next.Good ∧ next.capacity = self.capacity ∧
      next.experts = self.experts ∧ next.plannedAccesses = self.plannedAccesses ∧
      next.nextPosition = self.nextPosition+1 ∧
      next.everSeen = self.everSeen ∪ ids.toFinset ∧
      FarthestStep self.capacity (demandSets rest) ids.toFinset self.residents next.residents ∧
      self.access counts ids =
        (addCount "route count overflow" counts.routeReferences ids.length).map
          (fun _ => (next,counts.plus (accessCounts self.residents self.everSeen ids))) := by
  have hv : ValidIds self.capacity self.experts ids :=
    hgood.planned ids (List.mem_of_mem_drop (by rw [hnext]; exact List.mem_cons_self))
  have hplan : self.plannedAccesses[self.nextPosition]? = some ids := by
    rw [← List.head?_drop, hnext, List.head?_cons]
  have hrest : self.plannedAccesses.drop (self.nextPosition+1) = rest := by
    rw [← List.drop_drop, hnext]
    rfl
  have hbound : self.nextPosition+1+rest.length ≤ usizeMax := by
    have hlen := congrArg List.length hnext
    rw [List.length_drop, List.length_cons] at hlen
    have := hgood.positions
    omega
  have hpop : popUses self.nextPosition self.future ids =
      .ok (usesFrom (self.nextPosition+1) rest) := by
    rw [hgood.index, hnext]
    exact popUses_usesFrom hv.nodup rest
  obtain ⟨after,hloop,hafter,hfits⟩ := @evictUntil_shrinks self.capacity (self.nextPosition+1) rest
    ids self.residents hv.nodup hv.fits hbound
  have hfar := hafter.farthestStep hv.nodup hfits
  set misses := ids.filter (fun id => !decide (id ∈ self.residents)) with hmisses
  refine ⟨{ self with
    residents := after ∪ misses.toFinset
    everSeen := self.everSeen ∪ ids.toFinset
    future := usesFrom (self.nextPosition+1) rest
    nextPosition := self.nextPosition+1 },⟨?_,hgood.planned,hgood.positions,?_⟩,
    rfl,rfl,rfl,rfl,rfl,hfar,?_⟩
  · intro x hx
    exact (Finset.mem_union.mp (hfar.installs hx)).elim
      (fun h => Finset.mem_union_left _ (hgood.seen h)) (Finset.mem_union_right _)
  · change usesFrom (self.nextPosition+1) rest =
      usesFrom (self.nextPosition+1) (self.plannedAccesses.drop (self.nextPosition+1))
    rw [hrest]
  · unfold access
    simp only [hplan, hpop, ne_eq, not_true_eq_false, if_false]
    cases hrefs : addCount "route count overflow" counts.routeReferences ids.length with
    | error e => rfl
    | ok references =>
      have hb := boundary_eq hgood.seen counts ids references (addCount_eq_ok.mp hrefs).2
        self.residents (self.everSeen ∪ misses.toFinset)
      have hscan := foldl_visit (fun (residents : Finset ℕ) id x
        (_ : decide (id ∈ residents) = true) => rfl) ids hv.nodup
      have hkeep : (ids.filter (· ∈ self.residents)).foldl (fun residents _ => residents)
          self.residents = self.residents := List.foldl_fixed _
      dsimp only [bind, Except.bind]
      rw [visit, hscan]
      simp only [← hmisses, List.nil_append, hkeep, hloop]
      rw [hb, seen_union hgood.seen ids]
      rfl

/-- Serving planned accesses follows farthest-next-use and pays one install for each page its
schedule brings in. -/
theorem serve_eq {self : BeladyMinSimulation} (hgood : self.Good) {counts : PolicyCounts}
    (hbal : counts.Balanced) {accesses later : List (List ℕ)}
    (hnext : self.plannedAccesses.drop self.nextPosition = accesses++later)
    (hcount : counts.routeReferences+references accesses ≤ u64Max) :
    ∃ next total chosen, self.serve counts accesses = .ok (next,total) ∧ next.Good ∧
      next.plannedAccesses = self.plannedAccesses ∧
      next.nextPosition = self.nextPosition+accesses.length ∧
      total.Balanced ∧ total.routeReferences = counts.routeReferences+references accesses ∧
      Farthest self.capacity (demandSets later) self.residents (demandSets accesses) chosen ∧
      total.missingInstalls = counts.missingInstalls+installs self.residents chosen := by
  induction accesses generalizing self counts with
  | nil => exact ⟨self,counts,[],rfl,hgood,rfl,rfl,hbal,rfl,trivial,rfl⟩
  | cons ids accesses ih =>
    rw [references_cons] at hcount
    rw [List.cons_append] at hnext
    obtain ⟨mid,hmid,hcap,hexp,hplan,hpos,_,hfar,haccess⟩ := access_eq hgood counts hnext
    have hadd : addCount "route count overflow" counts.routeReferences ids.length =
        .ok (counts.routeReferences+ids.length) := addCount_eq_ok.mpr ⟨by omega,rfl⟩
    rw [hadd] at haccess
    have hdrop : mid.plannedAccesses.drop mid.nextPosition = accesses++later := by
      rw [hplan, hpos, ← List.drop_drop, hnext]
      rfl
    have hrefs : (counts.plus (accessCounts self.residents self.everSeen ids)).routeReferences =
        counts.routeReferences+ids.length := rfl
    obtain ⟨next,total,chosen,hserve,hgood',hplan',hpos',hbal',htotal,hrun,hinst⟩ :=
      ih hmid (hbal.plus (accessCounts_balanced hgood.seen ids)) hdrop (by omega)
    refine ⟨next,total,mid.residents::chosen,?_,hgood',hplan'.trans hplan,?_,hbal',?_,⟨?_,?_⟩,?_⟩
    · rw [serve, haccess]
      exact hserve
    · rw [hpos', hpos, List.length_cons]
      omega
    · rw [htotal, hrefs, references_cons]
      omega
    · rw [demandSets_append] at hfar
      exact hfar
    · rw [← hcap]
      exact hrun
    · have hpaid := accessCounts_missing self.residents self.everSeen
        (hgood.planned ids (List.mem_of_mem_drop (by rw [hnext]; exact List.mem_cons_self))).nodup
      rw [hinst, installs, hfar.installed, ← hpaid]
      exact Nat.add_assoc _ _ _

/-- One counter scope over the next planned accesses. -/
theorem run_eq {self : BeladyMinSimulation} (hgood : self.Good)
    (hcap : 0<self.capacity ∧ self.capacity ≤ self.experts) {accesses later : List (List ℕ)}
    (hnext : self.plannedAccesses.drop self.nextPosition = accesses++later)
    (hpos : self.nextPosition ≤ self.plannedAccesses.length) :
    self.run accesses = self.serve {} accesses := by
  have hvalid : validateAccesses self.capacity self.experts accesses = .ok () := by
    rw [validateAccesses_ok_iff]
    refine ⟨hcap.1,hcap.2,fun ids hids => hgood.planned ids ?_⟩
    have hmem : ids ∈ self.plannedAccesses.drop self.nextPosition := by
      rw [hnext]
      exact List.mem_append_left _ hids
    exact List.mem_of_mem_drop hmem
  have hend : self.nextPosition+accesses.length ≤ self.plannedAccesses.length := by
    have hlen := congrArg List.length hnext
    rw [List.length_drop, List.length_append] at hlen
    omega
  have hpositions := hgood.positions
  rw [run, hvalid, checkedAdd_of_le (by omega)]
  change (if _ then _ else _) = _
  rw [if_neg (by omega)]

/-- A fresh simulation of a valid sequence is good. -/
lemma tryNew_good {capacity experts : ℕ} {accesses : List (List ℕ)}
    (hvalid : validateAccesses capacity experts accesses = .ok ())
    (hlen : accesses.length ≤ usizeMax) :
    ∃ state, tryNew capacity experts accesses = .ok state ∧ state.Good ∧
      state.capacity = capacity ∧ state.experts = experts ∧ state.residents = ∅ ∧
      state.everSeen = ∅ ∧ state.plannedAccesses = accesses ∧ state.nextPosition = 0 := by
  obtain ⟨_,_,hall⟩ := (validateAccesses_ok_iff capacity experts accesses).mp hvalid
  refine ⟨_,by rw [tryNew, hvalid]; rfl,⟨subset_rfl,hall,hlen,?_⟩,rfl,rfl,rfl,rfl,rfl,rfl⟩
  funext id
  exact buildFuture_eq (fun ids hids => (hall ids hids).nodup) 0 (fun _ => []) id

/-- A good simulation at the end of its plan finishes. -/
lemma finish_of_end {self : BeladyMinSimulation} (hgood : self.Good)
    (hend : self.nextPosition = self.plannedAccesses.length) : self.finish = .ok () := by
  have hempty : ∀ id, self.future id = [] := by
    intro id
    rw [hgood.index, hend, List.drop_length]
    rfl
  rw [finish, if_neg]
  simp [hend,hempty]

end BeladyMinSimulation

/-- A `Vec<Vec<u32>>` held in memory: 24 bytes for each inner vector and 4 for each id fit
the address space. -/
structure AccessSequence where
  accesses : List (List ℕ)
  addressable : 24*accesses.length+4*references accesses ≤ usizeMax

lemma AccessSequence.references_take_le (sequence : AccessSequence) (k : ℕ) :
    references (sequence.accesses.take k) ≤ u64Max := by
  have hsplit := references_append (sequence.accesses.take k) (sequence.accesses.drop k)
  rw [List.take_append_drop] at hsplit
  have := sequence.addressable
  have : usizeMax = u64Max := rfl
  omega

/-- A prefix served against the whole future index pays at most what any legal schedule of
that prefix pays. -/
lemma run_take_optimal {capacity experts : ℕ} (sequence : AccessSequence)
    (hvalid : validateAccesses capacity experts sequence.accesses = .ok ()) (k : ℕ) :
    ∃ state next counts, BeladyMinSimulation.tryNew capacity experts sequence.accesses = .ok state ∧
      state.run (sequence.accesses.take k) = .ok (next,counts) ∧ next.Good ∧ counts.Balanced ∧
      counts.routeReferences = references (sequence.accesses.take k) ∧
      next.plannedAccesses = sequence.accesses ∧
      next.nextPosition = (sequence.accesses.take k).length ∧
      ∀ schedule, Legal capacity ∅ (demandSets (sequence.accesses.take k)) schedule →
        counts.missingInstalls ≤ installs ∅ schedule := by
  obtain ⟨hpos,hle,_⟩ := (validateAccesses_ok_iff capacity experts sequence.accesses).mp hvalid
  obtain ⟨state,hnew,hgood,hcap,hexp,hres,_,hplan,hzero⟩ :=
    BeladyMinSimulation.tryNew_good hvalid (by have := sequence.addressable; omega)
  have hnext : state.plannedAccesses.drop state.nextPosition =
      sequence.accesses.take k++sequence.accesses.drop k := by
    rw [hplan, hzero, List.drop_zero, List.take_append_drop]
  have hrefs : ({} : PolicyCounts).routeReferences+references (sequence.accesses.take k) ≤ u64Max := by
    have := sequence.references_take_le k
    simpa using this
  obtain ⟨next,total,chosen,hserve,hgood',hplan',hpos',hbal,htotal,hfar,hinst⟩ :=
    BeladyMinSimulation.serve_eq hgood ⟨rfl,le_rfl,le_rfl⟩ hnext hrefs
  have hrun := BeladyMinSimulation.run_eq hgood (by rw [hcap, hexp]; exact ⟨hpos,hle⟩) hnext
    (by rw [hzero]; exact Nat.zero_le _)
  refine ⟨state,next,total,hnew,hrun.trans hserve,hgood',hbal,?_,hplan'.trans hplan,?_,?_⟩
  · rw [htotal]
    exact Nat.zero_add _
  · rw [hpos', hzero, Nat.zero_add]
  · intro schedule hlegal
    rw [hcap, hres] at hfar
    rw [hinst, hres]
    calc 0+installs ∅ chosen = installs ∅ chosen := Nat.zero_add _
      _ ≤ installs ∅ schedule := farthest_installs_le hfar hlegal

/-- MIN is optimal: on every accepted sequence the simulation succeeds and installs no more
than any legal demand schedule, and so does every prefix scope run against the future index
of the whole sequence. -/
theorem simulateBeladyMin_optimal (capacity experts : ℕ) (sequence : AccessSequence)
    (hvalid : validateAccesses capacity experts sequence.accesses = .ok ()) :
    (∃ counts, simulateBeladyMin capacity experts sequence.accesses = .ok counts ∧
      ∀ schedule, Legal capacity ∅ (demandSets sequence.accesses) schedule →
        counts.missingInstalls ≤ installs ∅ schedule) ∧
    ∀ k, ∃ state next counts,
      BeladyMinSimulation.tryNew capacity experts sequence.accesses = .ok state ∧
      state.run (sequence.accesses.take k) = .ok (next,counts) ∧
      ∀ schedule, Legal capacity ∅ (demandSets (sequence.accesses.take k)) schedule →
        counts.missingInstalls ≤ installs ∅ schedule := by
  refine ⟨?_,fun k => ?_⟩
  · obtain ⟨state,next,counts,hnew,hrun,hgood,hbal,hrefs,hplan,hend,hopt⟩ :=
      run_take_optimal sequence hvalid sequence.accesses.length
    rw [List.take_length] at hrun hrefs hend hopt
    have hcomplete : completeWindowAccesses [] sequence.accesses 1 = .ok sequence.accesses := by
      have := sequence.addressable
      simp [completeWindowAccesses,checkedMul_of_le,checkedAdd_of_le,
        show sequence.accesses.length ≤ usizeMax by omega]
    have hwarm : state.run [] = .ok (state,{}) := by
      obtain ⟨hpos,hle,_⟩ := (validateAccesses_ok_iff capacity experts _).mp hvalid
      obtain ⟨state',hnew',hgood',hcap,hexp,_,_,hplan',hzero⟩ :=
        BeladyMinSimulation.tryNew_good hvalid (by have := sequence.addressable; omega)
      obtain rfl : state = state' := by
        rw [hnew] at hnew'
        exact Except.ok.inj hnew'
      rw [BeladyMinSimulation.run_eq hgood' (by rw [hcap, hexp]; exact ⟨hpos,hle⟩)
        (List.nil_append _).symm (by rw [hzero]; exact Nat.zero_le _)]
      rfl
    have hacc : ({} : PolicyCounts).checkedAccumulate counts = .ok counts := by
      have hbound := sequence.references_take_le sequence.accesses.length
      rw [List.take_length] at hbound
      rw [checkedAccumulate_of_balanced ⟨rfl,le_rfl,le_rfl⟩ hbal (by rw [hrefs]; simpa using hbound)]
      simp [PolicyCounts.plus]
    refine ⟨counts,?_,hopt⟩
    rw [simulateBeladyMin, simulateBeladyMinWindow, hcomplete]
    simp only [bind, Except.bind, hnew, hwarm, accumulateRuns, hrun, hacc,
      BeladyMinSimulation.finish_of_end hgood (by rw [hplan, hend])]
    rfl
  · obtain ⟨state,next,counts,hnew,hrun,_,_,_,_,_,hopt⟩ := run_take_optimal sequence hvalid k
    exact ⟨state,next,counts,hnew,hrun,hopt⟩

/-- Optimality on a trace where LRU and MIN differ: MIN needs four installs. -/
theorem simulateBeladyMin_optimal_on_cycle :
    ∃ counts, simulateBeladyMin 2 3 [[0],[1],[2],[0],[1]] = .ok counts ∧
      ∀ schedule, Legal 2 ∅ (demandSets [[0],[1],[2],[0],[1]]) schedule →
        counts.missingInstalls ≤ installs ∅ schedule :=
  (simulateBeladyMin_optimal 2 3 ⟨[[0],[1],[2],[0],[1]],by decide⟩ (by decide)).1

end MicroExpertRouter.Oracle
