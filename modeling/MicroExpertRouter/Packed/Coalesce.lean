import MicroExpertRouter.Lib.Extents
import MicroExpertRouter.Packed.Manifest

/-! What the runs of requests are: each is the slots of its members in order and without gaps, and
together they are the requests. -/
namespace MicroExpertRouter.Packed
open Extents
variable {ι : Type}

def PackedEntry.extent (self : PackedEntry) : ℕ × ℕ := (self.offset.toNat,self.len.toNat)

/-- The end of a slot is a `u64`. -/
def PackedEntry.Fits (self : PackedEntry) : Prop := self.offset.toNat+self.len.toNat<2^64

lemma PackedEntry.toNat_finish {entry : PackedEntry} (h : entry.Fits) :
    entry.finish.toNat = entry.offset.toNat+entry.len.toNat := by
  rw [finish, UInt64.toNat_add]
  exact Nat.mod_eq_of_lt h

/-- The slots of a group of requests. -/
def extents (group : List (Request ι)) : List (ℕ × ℕ) := group.map (·.2.2.extent)

def membersOf (group : List (Request ι)) : List (ℕ × ι) := group.map fun r => (r.1,r.2.1)

/-- A run is a group of requests, in order. -/
structure RunOf (run : ContiguousRun ι) (group : List (Request ι)) : Prop where
  nonempty : group ≠ []
  members : run.members = membersOf group
  contiguous : Contiguous run.startOffset.toNat (extents group)
  total : run.totalLen.toNat = total (extents group)

def ContiguousRun.finish (self : ContiguousRun ι) : ℕ :=
  self.startOffset.toNat+self.totalLen.toNat

/-- What is promised of the runs of requests. -/
structure Coalesced (requested : List (Request ι)) (runs : List (ContiguousRun ι)) : Prop where
  groups : ∃ groups : List (List (Request ι)), groups.flatten.Perm requested ∧
    List.Forall₂ RunOf runs groups
  members : (runs.flatMap (·.members)).Perm (membersOf requested)
  ordered : runs.Pairwise fun a b => a.startOffset ≤ b.startOffset
  separated : runs.IsChain fun a b => a.finish ≠ b.startOffset.toNat

/-- While requests are grouped: those so far are in the closed runs and the current one. -/
structure Grouping (done : List (Request ι)) (state : Coalescing ι) : Prop where
  groups : ∃ groups group, groups.flatten++group = done ∧ List.Forall₂ RunOf state.runs groups ∧
    RunOf state.cur group
  curEnd : state.curEnd.toNat = state.cur.finish
  ordered : state.runs.Pairwise fun a b => a.startOffset ≤ b.startOffset
  before : ∀ run ∈ state.runs, run.startOffset ≤ state.cur.startOffset
  separated : state.runs.IsChain fun a b => a.finish ≠ b.startOffset.toNat
  last : ∀ run ∈ state.runs.getLast?, run.finish ≠ state.cur.startOffset.toNat

lemma RunOf.single {request : Request ι} : RunOf (.single request) [request] :=
  ⟨List.cons_ne_nil _ _,rfl,⟨rfl,trivial⟩,(Nat.add_zero _).symm⟩

lemma Grouping.first {first : Request ι} (hfits : first.2.2.Fits) :
    Grouping [first] ⟨[],.single first,first.2.2.finish⟩ := by
  refine ⟨⟨[],[first],rfl,.nil,.single⟩,?_,.nil,List.forall_mem_nil _,.nil,fun _ h => by cases h⟩
  exact PackedEntry.toNat_finish hfits

/-- The start of a run is the offset of one of its requests. -/
lemma RunOf.exists_offset {run : ContiguousRun ι} {group : List (Request ι)} (h : RunOf run group) :
    ∃ request ∈ group, request.2.2.offset = run.startOffset := by
  cases group with
  | nil => exact absurd rfl h.nonempty
  | cons request rest =>
    exact ⟨request,List.mem_cons_self,UInt64.toNat_inj.mp h.contiguous.1⟩

/-- The end of an adjacent slot is a `u64`, so that the length of the longer run is one. -/
lemma toNat_totalLen_add {run : ContiguousRun ι} {entry : PackedEntry} (hfits : entry.Fits)
    (hadjacent : entry.offset.toNat = run.finish) :
    (run.totalLen+entry.len).toNat = run.totalLen.toNat+entry.len.toNat := by
  unfold PackedEntry.Fits at hfits
  unfold ContiguousRun.finish at hadjacent
  rw [UInt64.toNat_add]
  exact Nat.mod_eq_of_lt (by omega)

/-- An adjacent slot makes the current run longer. -/
lemma RunOf.extend {run : ContiguousRun ι} {group : List (Request ι)} {request : Request ι}
    (h : RunOf run group) (hfits : request.2.2.Fits)
    (hadjacent : request.2.2.offset.toNat = run.finish) :
    RunOf { run with
      totalLen := run.totalLen+request.2.2.len
      members := run.members++[(request.1,request.2.1)] } (group++[request]) := by
  have hextents : extents (group++[request]) = extents group++[request.2.2.extent] :=
    List.map_append
  have htotal : Extents.total (extents (group++[request])) =
      run.totalLen.toNat+request.2.2.len.toNat := by
    rw [hextents, Extents.total, List.map_append, List.sum_append, h.total]
    rfl
  refine ⟨List.append_ne_nil_of_right_ne_nil _ (List.cons_ne_nil _ _),?_,?_,?_⟩
  · rw [membersOf, List.map_append, h.members]
    rfl
  · rw [hextents]
    refine contiguous_concat.mpr ⟨h.contiguous,?_⟩
    rw [hadjacent, ContiguousRun.finish, h.total]
  · rw [htotal]
    exact toNat_totalLen_add hfits hadjacent

lemma Grouping.add {done : List (Request ι)} {state : Coalescing ι} {request : Request ι}
    (h : Grouping done state) (hfits : request.2.2.Fits)
    (hsorted : ∀ r ∈ done, r.2.2.offset ≤ request.2.2.offset) :
    Grouping (done++[request]) (state.add request) := by
  obtain ⟨groups,group,hdone,hruns,hcur⟩ := h.groups
  unfold Coalescing.add
  dsimp only
  split_ifs with hadjacent
  · have hoffset : request.2.2.offset.toNat = state.cur.finish := by
      rw [hadjacent, h.curEnd]
    have hextend := hcur.extend hfits hoffset
    refine ⟨⟨groups,group++[request],?_,hruns,hextend⟩,?_,h.ordered,h.before,h.separated,h.last⟩
    · rw [← List.append_assoc, hdone]
    · rw [PackedEntry.toNat_finish hfits, ContiguousRun.finish,
        toNat_totalLen_add hfits hoffset, hoffset, ContiguousRun.finish, Nat.add_assoc]
  · obtain ⟨first,hfirst,hstart⟩ := hcur.exists_offset
    have hle : state.cur.startOffset ≤ request.2.2.offset := by
      rw [← hstart]
      exact hsorted first (hdone ▸ List.mem_append_right _ hfirst)
    refine ⟨⟨groups++[group],[request],?_,List.rel_append hruns (.cons hcur .nil),.single⟩,?_,?_,?_,?_,?_⟩
    · rw [List.flatten_append, List.flatten_singleton, hdone]
    · exact PackedEntry.toNat_finish hfits
    · refine List.pairwise_append.mpr ⟨h.ordered,List.pairwise_singleton _ _,fun run hrun => ?_⟩
      exact List.forall_mem_singleton.mpr (h.before run hrun)
    · refine List.forall_mem_append.mpr ⟨fun run hrun => ?_,List.forall_mem_singleton.mpr hle⟩
      exact UInt64.le_trans (h.before run hrun) hle
    · refine List.isChain_append.mpr ⟨h.separated,.singleton _,fun run hrun next hnext => ?_⟩
      cases hnext
      exact h.last run hrun
    · intro run hrun
      rw [List.getLast?_append, List.getLast?_singleton] at hrun
      cases hrun
      intro heq
      exact hadjacent (UInt64.toNat_inj.mp (heq.symm.trans h.curEnd.symm))

/-- By induction on the requests to come, which are sorted after those so far. -/
lemma Grouping.foldl {done rest : List (Request ι)} {state : Coalescing ι} (h : Grouping done state)
    (hfits : ∀ r ∈ rest, r.2.2.Fits) (hsorted : (done++rest).Pairwise offsetLe) :
    Grouping (done++rest) (rest.foldl Coalescing.add state) := by
  induction rest generalizing done state with
  | nil =>
    rw [List.append_nil]
    exact h
  | cons request rest ih =>
    obtain ⟨hrequest,hrest⟩ := List.forall_mem_cons.mp hfits
    have hbefore := (List.pairwise_append.mp hsorted).2.2
    have hnext := h.add hrequest fun r hr => hbefore r hr request List.mem_cons_self
    rw [List.append_cons] at hsorted ⊢
    exact ih hnext hrest hsorted

instance : Std.Total (@offsetLe ι) := ⟨fun _ _ => UInt64.le_total _ _⟩

instance : IsTrans (Request ι) offsetLe := ⟨fun _ _ _ => UInt64.le_trans⟩

/-- The members of runs are those of their groups. -/
lemma flatMap_members {runs : List (ContiguousRun ι)} {groups : List (List (Request ι))}
    (h : List.Forall₂ RunOf runs groups) :
    runs.flatMap (·.members) = membersOf groups.flatten := by
  induction h with
  | nil => rfl
  | cons hrun _ ih =>
    rw [List.flatMap_cons, List.flatten_cons, ih, hrun.members]
    exact List.map_append.symm

lemma coalesceRuns_coalesced {requested : List (Request ι)}
    (hfits : ∀ r ∈ requested, r.2.2.Fits) : Coalesced requested (coalesceRuns requested) := by
  have hperm := List.perm_insertionSort offsetLe requested
  have hsorted := List.pairwise_insertionSort offsetLe requested
  unfold coalesceRuns
  cases hsort : requested.insertionSort offsetLe with
  | nil =>
    rw [hsort] at hperm
    refine ⟨⟨[],hperm,.nil⟩,?_,.nil,.nil⟩
    exact hperm.map fun r => (r.1,r.2.1)
  | cons first rest =>
    rw [hsort] at hperm hsorted
    have hfitsSorted : ∀ r ∈ first :: rest, r.2.2.Fits :=
      fun r hr => hfits r (hperm.mem_iff.mp hr)
    obtain ⟨hfirst,hrest⟩ := List.forall_mem_cons.mp hfitsSorted
    have h := (Grouping.first hfirst).foldl hrest hsorted
    obtain ⟨groups,group,hdone,hruns,hcur⟩ := h.groups
    have hgroups := List.rel_append hruns (.cons hcur .nil : List.Forall₂ RunOf [_] [group])
    have hflatten : (groups++[group]).flatten = first :: rest := by
      rw [List.flatten_append, List.flatten_singleton]
      exact hdone
    refine ⟨⟨groups++[group],?_,hgroups⟩,?_,?_,?_⟩
    · rw [hflatten]
      exact hperm
    · rw [flatMap_members hgroups, hflatten]
      exact hperm.map fun r => (r.1,r.2.1)
    · refine List.pairwise_append.mpr ⟨h.ordered,List.pairwise_singleton _ _,fun run hrun => ?_⟩
      exact List.forall_mem_singleton.mpr (h.before run hrun)
    · refine List.isChain_append.mpr ⟨h.separated,.singleton _,fun run hrun next hnext => ?_⟩
      cases hnext
      exact h.last run hrun

end MicroExpertRouter.Packed
