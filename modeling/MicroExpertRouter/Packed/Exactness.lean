import MicroExpertRouter.Breakers.Protocol
import MicroExpertRouter.Lib.Machine
import MicroExpertRouter.Packed.Batches

/-! What a batch reads: whatever each `preadv` does, every buffer gets the slot of its expert, as
long as the reads of one expert succeed. -/
namespace MicroExpertRouter.Packed
open Breakers (Clock Host IoError Report)
open Extents
variable {stripedPaths : ℕ} {ι : Type}

/-- The bytes of an expert's own slot. -/
def PackedBlob.slot (self : PackedBlob) (id : ℕ) : List UInt8 :=
  ((self.entry id).map fun entry => read self.file entry.offset.toNat entry.len.toNat).getD []

/-- The slots of a blob are whole, and as long as its manifest says. -/
structure Ready (packed : PackedBlob) : Prop where
  size : ∀ id entry, packed.entry id = some entry → entry.len = packed.manifest.expertSize
  fits : ∀ id entry, packed.entry id = some entry → entry.Fits
  covered : ∀ id entry, packed.entry id = some entry →
    entry.offset.toNat+entry.len.toNat ≤ packed.file.length

section Slots
variable {packed : PackedBlob} {id : ℕ} {entry : PackedEntry}

lemma slot_eq (h : packed.entry id = some entry) :
    packed.slot id = read packed.file entry.offset.toNat entry.len.toNat := by
  rw [PackedBlob.slot, h]
  rfl

lemma packedOffset_eq (h : packed.entry id = some entry) :
    packed.packedOffset id = entry.offset := by
  rw [PackedBlob.packedOffset, h]
  rfl

lemma Ready.length_slot (hready : Ready packed) (h : packed.entry id = some entry) :
    (packed.slot id).length = packed.manifest.expertSize.toNat := by
  rw [slot_eq h, length_read (hready.covered id entry h), hready.size id entry h]

lemma Ready.slot_eq_size (hready : Ready packed) (h : packed.entry id = some entry) :
    packed.slot id =
      read packed.file entry.offset.toNat packed.manifest.expertSize.toNat := by
  rw [slot_eq h, hready.size id entry h]

lemma entry_mem (h : packed.entry id = some entry) : (id,entry) ∈ packed.manifest.entries := by
  obtain ⟨pair,hfind,rfl⟩ := Option.map_eq_some_iff.mp h
  have hdecide := List.find?_some hfind
  obtain rfl : pair.1 = id := of_decide_eq_true hdecide
  exact List.mem_of_find?_eq_some hfind

/-- An accepted manifest has slots of one size. -/
lemma len_of_validate (hvalid : packed.manifest.validate = .ok ())
    (h : packed.entry id = some entry) : entry.len = packed.manifest.expertSize := by
  have hmem := entry_mem h
  unfold PackedManifest.validate at hvalid
  split_ifs at hvalid with hempty hzero
  · rw [List.isEmpty_iff.mp hempty] at hmem
    cases hmem
  · have hentry := forM_eq_ok.mp hvalid _ hmem
    unfold validateEntry at hentry
    dsimp only at hentry
    split_ifs at hentry with hlen hoffset
    exact not_not.mp hlen

end Slots

/-- Every buffer has the size of a slot. -/
def Batch.Sized (batch : Batch stripedPaths ι) (size : ℕ) : Prop :=
  ∀ i, (batch.buffers i).length = size

/-- How reads of some members can go: a read of one expert fails, or every member has its slot and
the other buffers are as before. -/
inductive Reads (packed : PackedBlob) (members : List (ℕ × ι)) (batch : Batch stripedPaths ι) :
    EStateM.Result IoError (Batch stripedPaths ι) ℕ → Prop
  | failed {e : IoError} {batch' : Batch stripedPaths ι}
      (h : ∃ report ∈ batch'.reports, report.result.isOk = false) :
      Reads packed members batch (.error e batch')
  | filled {total : ℕ} {batch' : Batch stripedPaths ι}
      (htotal : total = members.length*packed.manifest.expertSize.toNat)
      (hsized : batch'.Sized packed.manifest.expertSize.toNat)
      (hfilled : ∀ m ∈ members, batch'.buffers m.2 = packed.slot m.1)
      (hframe : ∀ i, i ∉ members.map (·.2) → batch'.buffers i = batch.buffers i) :
      Reads packed members batch (.ok total batch')

section Reads
variable {packed : PackedBlob} {members members' : List (ℕ × ι)} {batch : Batch stripedPaths ι}
  {env : Env}

lemma Reads.addReads {x y : BatchM stripedPaths ι ℕ} (hx : Reads packed members batch (x batch))
    (hy : ∀ batch', batch'.Sized packed.manifest.expertSize.toNat →
      Reads packed members' batch' (y batch'))
    (hdisjoint : (members.map (·.2)).Disjoint (members'.map (·.2))) :
    Reads packed (members++members') batch (addReads x y batch) := by
  generalize hxb : x batch = result at hx
  cases hx with
  | failed h =>
    rw [Packed.addReads, run_bind_error hxb]
    exact .failed h
  | @filled n batch' htotal hsized hfilled hframe =>
    have hy := hy batch' hsized
    rw [Packed.addReads, run_bind_ok hxb]
    generalize hyb : y batch' = result at hy
    cases hy with
    | failed h =>
      rw [run_bind_error hyb]
      exact .failed h
    | @filled m batch'' htotal' hsized' hfilled' hframe' =>
      have hsum : n+m = (members++members').length*packed.manifest.expertSize.toNat := by
        rw [htotal, htotal', List.length_append, Nat.add_mul]
      rw [run_bind_ok hyb]
      refine .filled hsum hsized' (List.forall_mem_append.mpr ⟨fun m hm => ?_,hfilled'⟩) fun i hi => ?_
      · rw [hframe' m.2 (hdisjoint (List.mem_map_of_mem hm)), hfilled m hm]
      · rw [List.map_append, List.mem_append, not_or] at hi
        rw [hframe' i hi.2, hframe i hi.1]

/-- Reads from a batch whose other buffers are the same. -/
lemma Reads.of_frame {batch' : Batch stripedPaths ι}
    {result : EStateM.Result IoError (Batch stripedPaths ι) ℕ}
    (hframe : ∀ i, i ∉ members.map (·.2) → batch'.buffers i = batch.buffers i)
    (h : Reads packed members batch' result) : Reads packed members batch result := by
  cases h with
  | failed h => exact .failed h
  | filled htotal hsized hfilled hframe' =>
    exact .filled htotal hsized hfilled fun i hi => (hframe' i hi).trans (hframe i hi)

/-- The slots of a run are what is read from its start. -/
lemma RunOf.read_eq {run : ContiguousRun ι} {group : List (Request ι)} (h : RunOf run group)
    (hentries : ∀ r ∈ group, packed.entry r.1 = some r.2.2) :
    read packed.file run.startOffset.toNat run.totalLen.toNat =
      run.members.flatMap fun m => packed.slot m.1 := by
  rw [h.total, h.contiguous.read_total, h.members, extents, membersOf, List.flatMap_map,
    List.flatMap_map]
  refine List.flatMap_congr fun r hr => ?_
  exact (slot_eq (hentries r hr)).symm

lemma RunOf.total_eq (hready : Ready packed) {run : ContiguousRun ι} {group : List (Request ι)}
    (h : RunOf run group) (hentries : ∀ r ∈ group, packed.entry r.1 = some r.2.2) :
    run.totalLen.toNat = run.members.length*packed.manifest.expertSize.toNat := by
  have hlens : (extents group).map (·.2) =
      group.map fun _ => packed.manifest.expertSize.toNat := by
    rw [extents, List.map_map]
    refine List.map_congr_left fun r hr => ?_
    exact congrArg UInt64.toNat (hready.size r.1 r.2.2 (hentries r hr))
  rw [h.total, Extents.total, hlens, List.map_const', List.sum_replicate, h.members, membersOf,
    List.length_map, smul_eq_mul]

variable [DecidableEq ι]

lemma readExpert_reads (hready : Ready packed) {id : ℕ} {idx : ι} {entry : PackedEntry}
    (hentry : packed.entry id = some entry)
    (hsized : batch.Sized packed.manifest.expertSize.toNat) :
    Reads packed [(id,idx)] batch (readExpert env packed id idx batch) := by
  have hlen := @Breakers.serve_result _ env.clock batch.host
    ⟨id,(batch.buffers idx).length,env.attempts batch.reports.length⟩
  rw [readExpert]
  dsimp only
  generalize batch.host.serve env.clock
    ⟨id,(batch.buffers idx).length,env.attempts batch.reports.length⟩ = served at hlen ⊢
  obtain ⟨report,host⟩ := served
  dsimp only at hlen ⊢
  cases hresult : report.result with
  | error e =>
    refine .failed ⟨report,List.mem_cons_self,?_⟩
    rw [hresult]
    rfl
  | ok n =>
    obtain rfl := hlen hresult
    have hslot : read packed.file (packed.packedOffset id).toNat (batch.buffers idx).length =
        packed.slot id := by
      rw [packedOffset_eq hentry, hready.slot_eq_size hentry, hsized idx]
    have hfill : Extents.fill (batch.buffers idx) (packed.slot id) = packed.slot id :=
      fill_of_length_eq ((hready.length_slot hentry).trans (hsized idx).symm)
    have hbuffers : ∀ i, (Function.update batch.buffers idx (packed.slot id)) i =
        if i = idx then packed.slot id else batch.buffers i := fun i => Function.update_apply _ _ _ _
    change Reads packed [(id,idx)] batch (.ok _ { batch with
      host, reports := report :: batch.reports, buffers := Function.update batch.buffers idx
        (Extents.fill (batch.buffers idx) (read packed.file _ _)) })
    rw [hslot, hfill]
    refine .filled ?_ (fun i => ?_) (List.forall_mem_singleton.mpr ?_) fun i hi => ?_
    · rw [List.length_singleton, Nat.one_mul]
      exact hsized idx
    · change (Function.update batch.buffers idx (packed.slot id) i).length = _
      rw [hbuffers]
      split_ifs
      · exact hready.length_slot hentry
      · exact hsized i
    · exact Function.update_self _ _ _
    · exact Function.update_of_ne (fun heq => hi (List.mem_singleton.mpr heq)) _ _

lemma readMembers_reads (hready : Ready packed) (members : List (ℕ × ι))
    (hentries : ∀ m ∈ members, ∃ entry, packed.entry m.1 = some entry)
    (hnodup : (members.map (·.2)).Nodup)
    (hsized : batch.Sized packed.manifest.expertSize.toNat) :
    Reads packed members batch (readMembers env packed members batch) := by
  induction members generalizing batch with
  | nil =>
    exact .filled (Nat.zero_mul _).symm hsized (List.forall_mem_nil _) fun _ _ => rfl
  | cons m rest ih =>
    obtain ⟨⟨entry,hentry⟩,hrest⟩ := List.forall_mem_cons.mp hentries
    obtain ⟨hnotin,hnodupRest⟩ := List.nodup_cons.mp hnodup
    exact (readExpert_reads hready hentry hsized).addReads
      (fun batch' hsized' => ih hrest hnodupRest hsized') (List.singleton_disjoint.mpr hnotin)

/-- Whatever a `preadv` does, it keeps the sizes of the buffers and leaves the others; when it
returns a count, it has read that many bytes. -/
lemma preadv_eq (env : Env) (packed : PackedBlob) (start : UInt64) (targets : List ι)
    (batch : Batch stripedPaths ι) :
    ∃ n batch', preadv env packed start targets batch = .ok n batch' ∧
      (∀ i, (batch'.buffers i).length = (batch.buffers i).length) ∧
      (∀ i, i ∉ targets → batch'.buffers i = batch.buffers i) ∧
      ∀ k, n = some k →
        batch'.buffers = scatter targets (read packed.file start.toNat k) batch.buffers := by
  unfold preadv
  dsimp only
  split_ifs with hnegative hfailed
  · exact ⟨_,_,rfl,fun _ => rfl,fun _ _ => rfl,fun k h => by cases h⟩
  · exact ⟨_,_,rfl,fun i => length_scatter _ _ _ i,fun i hi => scatter_of_notMem hi _ _,
      fun k h => by cases h⟩
  · refine ⟨_,_,rfl,fun i => length_scatter _ _ _ i,fun i hi => scatter_of_notMem hi _ _,
      fun k h => ?_⟩
    obtain rfl := Option.some.inj h
    rw [read_length_read]

lemma readRun_reads (hready : Ready packed) {run : ContiguousRun ι} {group : List (Request ι)}
    (h : RunOf run group) (hentries : ∀ r ∈ group, packed.entry r.1 = some r.2.2)
    (hnodup : (run.members.map (·.2)).Nodup)
    (hsized : batch.Sized packed.manifest.expertSize.toNat) :
    Reads packed run.members batch (readRun env packed run batch) := by
  have hmembers : ∀ m ∈ run.members, ∃ entry, packed.entry m.1 = some entry := by
    rw [h.members]
    exact List.forall_mem_map.mpr fun r hr => ⟨_,hentries r hr⟩
  rw [readRun]
  split_ifs with hsingle
  · exact readMembers_reads hready run.members hmembers hnodup hsized
  obtain ⟨n,batch',hpreadv,hlengths,hframe,hdata⟩ :=
    preadv_eq env packed run.startOffset (run.members.map (·.2)) batch
  have hsized' : batch'.Sized packed.manifest.expertSize.toNat :=
    fun i => (hlengths i).trans (hsized i)
  dsimp only
  rw [run_bind_ok hpreadv]
  split_ifs with hfull
  · have hbuffers := hdata _ hfull
    rw [h.read_eq hentries] at hbuffers
    refine .filled (h.total_eq hready hentries) hsized' (fun m hm => ?_) hframe
    change batch'.buffers m.2 = _
    rw [hbuffers]
    refine scatter_flatMap hnodup (fun m' hm' => ?_) m hm
    obtain ⟨entry,hentry⟩ := hmembers m' hm'
    exact (hready.length_slot hentry).trans (hsized m'.2).symm
  · exact (readMembers_reads hready run.members hmembers hnodup hsized').of_frame hframe

/-- By induction on the runs, whose members are apart. -/
lemma readRuns_reads (hready : Ready packed) {runs : List (ContiguousRun ι)}
    {groups : List (List (Request ι))} (h : List.Forall₂ RunOf runs groups)
    (hentries : ∀ r ∈ groups.flatten, packed.entry r.1 = some r.2.2)
    (hnodup : ((runs.flatMap (·.members)).map (·.2)).Nodup)
    (hsized : batch.Sized packed.manifest.expertSize.toNat) :
    Reads packed (runs.flatMap (·.members)) batch (readRuns env packed runs batch) := by
  induction h generalizing batch with
  | nil => exact .filled (Nat.zero_mul _).symm hsized (List.forall_mem_nil _) fun _ _ => rfl
  | cons hrun _ ih =>
    rw [List.flatten_cons] at hentries
    obtain ⟨hentriesRun,hentriesRest⟩ := List.forall_mem_append.mp hentries
    rw [List.flatMap_cons, List.map_append, List.nodup_append'] at hnodup
    obtain ⟨hnodupRun,hnodupRest,hdisjoint⟩ := hnodup
    exact (readRun_reads hready hrun hentriesRun hnodupRun hsized).addReads
      (fun batch' hsized' => ih hentriesRest hnodupRest hsized') hdisjoint

end Reads

/-- Requests for packed experts get their slots, in order. -/
lemma resolve_eq {packed : PackedBlob} (requests : List (ℕ × ι))
    (hentries : ∀ m ∈ requests, ∃ entry, packed.entry m.1 = some entry) :
    ∃ requested, resolve packed requests = .ok requested ∧ membersOf requested = requests ∧
      ∀ r ∈ requested, packed.entry r.1 = some r.2.2 := by
  induction requests with
  | nil => exact ⟨[],rfl,rfl,List.forall_mem_nil _⟩
  | cons m rest ih =>
    obtain ⟨⟨entry,hentry⟩,hrest⟩ := List.forall_mem_cons.mp hentries
    obtain ⟨requested,hresolve,hmembers,hrequested⟩ := ih hrest
    have hone : resolveOne packed m = .ok (m.1,m.2,entry) := by
      rw [resolveOne, hentry]
    refine ⟨(m.1,m.2,entry) :: requested,?_,?_,List.forall_mem_cons.mpr ⟨hentry,hrequested⟩⟩
    · rw [resolve, List.mapM_cons]
      exact bind_eq_ok.mpr ⟨_,hone,bind_eq_ok.mpr ⟨_,hresolve,rfl⟩⟩
    · rw [membersOf, List.map_cons]
      exact congrArg _ hmembers

lemma mem_indexed (ids : List ℕ) (i : Fin ids.length) : (ids.get i,i) ∈ indexed ids :=
  List.mem_map.mpr ⟨i,List.mem_finRange i,rfl⟩

lemma map_snd_indexed (ids : List ℕ) : (indexed ids).map (·.2) = List.finRange ids.length := by
  rw [indexed, List.map_map]
  exact List.map_id _

section Batches
variable {packed : PackedBlob}

lemma ready_of_validate (hvalid : packed.manifest.validate = .ok ())
    (hfits : ∀ entry ∈ packed.manifest.entries, entry.2.Fits)
    (hcovered : ∀ entry ∈ packed.manifest.entries,
      entry.2.offset.toNat+entry.2.len.toNat ≤ packed.file.length) : Ready packed :=
  ⟨fun _ _ h => len_of_validate hvalid h,fun _ _ h => hfits _ (entry_mem h),
    fun _ _ h => hcovered _ (entry_mem h)⟩

lemma exists_entry {id : ℕ} (h : id ∈ packed.manifest.entries.map (·.1)) :
    ∃ entry, packed.entry id = some entry := by
  obtain ⟨pair,hpair,rfl⟩ := List.mem_map.mp h
  have hsome : (packed.manifest.entries.find? fun entry => entry.1 = pair.1).isSome = true :=
    List.find?_isSome.mpr ⟨pair,hpair,decide_eq_true rfl⟩
  obtain ⟨found,hfound⟩ := Option.isSome_iff_exists.mp hsome
  exact ⟨found.2,congrArg (Option.map _) hfound⟩

lemma readExpertsBatchPacked_reads (env : Env) (ids : List ℕ)
    {batch : Batch stripedPaths (Fin ids.length)} (hready : Ready packed)
    (hpacked : ∀ id ∈ ids, id ∈ packed.manifest.entries.map (·.1))
    (hsized : batch.Sized packed.manifest.expertSize.toNat) :
    ∃ members : List (ℕ × Fin ids.length), members.Perm (indexed ids) ∧
      Reads packed members batch (readExpertsBatchPacked env packed ids batch) := by
  have hentries : ∀ m ∈ indexed ids, ∃ entry, packed.entry m.1 = some entry :=
    List.forall_mem_map.mpr fun i _ => exists_entry (hpacked _ (List.get_mem ids i))
  obtain ⟨requested,hresolve,hmembers,hrequested⟩ := resolve_eq (indexed ids) hentries
  have hcoalesced := coalesceRuns_coalesced fun r hr => hready.fits _ _ (hrequested r hr)
  obtain ⟨groups,hgroups,hruns⟩ := hcoalesced.groups
  have hperm := hcoalesced.members
  rw [hmembers] at hperm
  have hnodup : (((coalesceRuns requested).flatMap (·.members)).map (·.2)).Nodup := by
    rw [(hperm.map (·.2)).nodup_iff, map_snd_indexed]
    exact List.nodup_finRange _
  refine ⟨_,hperm,?_⟩
  rw [readExpertsBatchPacked, hresolve]
  exact readRuns_reads hready hruns (fun r hr => hrequested r (hgroups.mem_iff.mp hr)) hnodup hsized

/-- Runs of requests are what they should be. With an accepted manifest whose slots lie in the blob,
a batch of packed experts fills the buffer of every request with the slot of its expert, whatever
each `preadv` does, as long as no read of one expert fails. -/
theorem packed_batch_exact (env : Env) (packed : PackedBlob) (ids : List ℕ)
    (host : Host stripedPaths) (buffers : Fin ids.length → List UInt8)
    (hvalid : packed.manifest.validate = .ok ())
    (hfits : ∀ entry ∈ packed.manifest.entries, entry.2.Fits)
    (hcovered : ∀ entry ∈ packed.manifest.entries,
      entry.2.offset.toNat+entry.2.len.toNat ≤ packed.file.length)
    (hpacked : ∀ id ∈ ids, id ∈ packed.manifest.entries.map (·.1))
    (hsized : ∀ i, (buffers i).length = packed.manifest.expertSize.toNat)
    (hreads : ∀ report ∈
      (stateOf (readExpertsBatchPacked env packed ids (.new host buffers))).reports,
        report.result.isOk = true) :
    (∀ {κ : Type} (requested : List (Request κ)),
      (∀ r ∈ requested, packed.entry r.1 = some r.2.2) →
        Coalesced requested (coalesceRuns requested)) ∧
    ∃ batch, readExpertsBatchPacked env packed ids (.new host buffers) =
        .ok (ids.length*packed.manifest.expertSize.toNat) batch ∧
      ∀ i, batch.buffers i = packed.slot (ids.get i) ∧
        (batch.buffers i).length = packed.manifest.expertSize.toNat := by
  have hready := ready_of_validate hvalid hfits hcovered
  refine ⟨fun requested hrequested => ?_,?_⟩
  · exact coalesceRuns_coalesced fun r hr => hready.fits _ _ (hrequested r hr)
  obtain ⟨members,hperm,h⟩ :=
    @readExpertsBatchPacked_reads _ packed env ids (.new host buffers) hready hpacked hsized
  generalize readExpertsBatchPacked env packed ids (.new host buffers) = result at h hreads ⊢
  cases h with
  | failed hfailed =>
    obtain ⟨report,hreport,hresult⟩ := hfailed
    have hok := hreads report hreport
    rw [hresult] at hok
    cases hok
  | @filled total batch htotal hsized' hfilled _ =>
    refine ⟨batch,?_,fun i => ⟨hfilled _ (hperm.mem_iff.mpr (mem_indexed ids i)),hsized' i⟩⟩
    rw [htotal, hperm.length_eq, indexed, List.length_map, List.length_finRange]

lemma nodup_sharedSlots : ([7,3,9,5] : List ℕ).Nodup := by decide

/-- Slots of two bytes, with two experts in the same one. -/
def sharedSlots : PackedBlob :=
  ⟨[1,2,3,4,5,6],⟨1,2,[(7,⟨2,2⟩),(3,⟨0,2⟩),(9,⟨4,2⟩),(5,⟨4,2⟩)],[3,7,9,5],nodup_sharedSlots⟩⟩

/-- Reads of one expert succeed, and each `preadv` stops after three bytes. -/
def shortTransfers : Env :=
  ⟨⟨fun _ => 0,fun _ _ _ => Nat.le_refl 0⟩,fun _ _ => .ok 2,fun _ => 0,fun _ => ⟨false,3⟩⟩

/-- A run of three experts falls short, so that they are read one by one, and one expert is asked
for twice. -/
theorem packed_batch_exact_shared : ∃ batch : Batch 1 (Fin 4),
    readExpertsBatchPacked shortTransfers sharedSlots [9,3,7,3]
      (.new ⟨.new 1,0,[]⟩ fun _ => [0,0]) = .ok 8 batch ∧
    ∀ i, batch.buffers i = sharedSlots.slot ([9,3,7,3].get i) ∧ (batch.buffers i).length = 2 :=
  (packed_batch_exact shortTransfers sharedSlots [9,3,7,3] ⟨.new 1,0,[]⟩ (fun _ => [0,0]) rfl
    (by unfold PackedEntry.Fits; decide +kernel) (by decide +kernel) (by decide +kernel) (fun _ => rfl)
    (by decide +kernel)).2

end Batches

end MicroExpertRouter.Packed
