import MicroExpertRouter.Packed.Repacking

/-! What is served after `repack`: when it returns, a batch reads the same bytes from the blob as from the
files of the experts. When it fails over an earlier blob, the slots may have the bytes of others. -/
namespace MicroExpertRouter.Packed
open Breakers (IoError)
open Extents

section Entries
variable {expertSize blockAlign : UInt64} {order : List ℕ} {id i : ℕ} {entry : PackedEntry}

/-- The slots of an order without repetitions, by the places in it. -/
lemma get_uniformEntries (hnodup : order.Nodup) (entries : KeyMap PackedEntry) :
    (uniformEntries expertSize i order entries).get id = if id ∈ order then
      some ⟨UInt64.ofNat (i+order.idxOf id)*expertSize,expertSize⟩ else entries.get id := by
  induction order generalizing i entries with
  | nil => simp [uniformEntries]
  | cons first order ih =>
    obtain ⟨hfresh,hnodup⟩ := List.nodup_cons.mp hnodup
    rw [uniformEntries, ih hnodup, KeyMap.get_upsert]
    by_cases hid : id = first
    · subst hid
      simp [hfresh]
    · simp only [List.mem_cons, hid, false_or, if_false, List.idxOf_cons_ne order (Ne.symm hid)]
      rw [Nat.succ_eq_add_one, Nat.add_right_comm, Nat.add_assoc]

/-- A map is searched by its keys. -/
lemma find?_map_eq_lookup (id : ℕ) (entries : List (ℕ × PackedEntry)) :
    (entries.find? fun entry => entry.1 = id).map (·.2) = KeyMap.lookup id entries := by
  induction entries with
  | nil => rfl
  | cons entry entries ih =>
    rw [List.find?_cons, KeyMap.lookup]
    by_cases h : entry.1 = id
    · simp [h]
    · simpa [h] using ih

lemma entry_uniform (hnodup : order.Nodup) (file : List UInt8) :
    (PackedBlob.mk file (.uniform order expertSize blockAlign)).entry id = if id ∈ order then
      some ⟨UInt64.ofNat (order.idxOf id)*expertSize,expertSize⟩ else none := by
  rw [PackedBlob.entry, PackedManifest.uniform, find?_map_eq_lookup]
  exact get_uniformEntries hnodup .empty |>.trans (by simp [KeyMap.empty, KeyMap.get, KeyMap.lookup])

lemma mem_uniform (hnodup : order.Nodup) :
    (id,entry) ∈ (PackedManifest.uniform order expertSize blockAlign).entries ↔
      id ∈ order ∧ entry = ⟨UInt64.ofNat (order.idxOf id)*expertSize,expertSize⟩ := by
  rw [PackedManifest.uniform, KeyMap.mem_entries, get_uniformEntries hnodup]
  split_ifs with hmem
  · simp [hmem, eq_comm]
  · simp [hmem, KeyMap.empty, KeyMap.get, KeyMap.lookup]

lemma validateEntry_ok (hlen : entry.len = expertSize) (hoffset : entry.offset % expertSize = 0) :
    validateEntry expertSize id entry = .ok () := by
  unfold validateEntry
  dsimp only
  rw [if_neg (not_not.mpr hlen), if_neg (not_not.mpr hoffset)]

end Entries

section Blobs
variable {source : Source} {order : List ℕ} {id : ℕ}

/-- The blob of an order with its manifest. -/
def Source.packed (self : Source) (order : List ℕ) : PackedBlob :=
  ⟨self.blob order,.uniform order self.cfg.expertSize self.cfg.blockAlign⟩

lemma Source.length_blob (hall : ∀ id ∈ order, source.Has id) :
    (source.blob order).length = order.length*source.cfg.expertSize.toNat := by
  rw [Source.blob, Chunks.length_flatten (n := source.cfg.expertSize.toNat), List.length_map]
  exact List.forall_mem_map.mpr fun id hid => (hall id hid).length_bytes

/-- At a place of the order the blob has the bytes of the expert. -/
lemma Source.read_blob {i : ℕ} (hall : ∀ id ∈ order, source.Has id) (hplace : order[i]? = some id) :
    read (source.blob order) (i*source.cfg.expertSize.toNat) source.cfg.expertSize.toNat =
      source.bytes id := by
  have hchunks : ∀ chunk ∈ order.map source.bytes, chunk.length = source.cfg.expertSize.toNat :=
    List.forall_mem_map.mpr fun id hid => (hall id hid).length_bytes
  have hchunk : (order.map source.bytes)[i]? = some (source.bytes id) := by
    rw [List.getElem?_map, hplace, Option.map_some]
  have hshare := Chunks.share_flatten hchunks hchunk []
  rwa [List.append_nil] at hshare

namespace Packs

lemma length_blob (h : Packs source order) :
    (source.blob order).length = order.length*source.cfg.expertSize.toNat := Source.length_blob h.has

lemma end_le (h : Packs source order) (hid : id ∈ order) :
    order.idxOf id*source.cfg.expertSize.toNat+source.cfg.expertSize.toNat ≤
      (source.blob order).length := by
  rw [h.length_blob, ← Nat.succ_mul]
  exact Nat.mul_le_mul_right _ (List.idxOf_lt_length_of_mem hid)

/-- The slot of an expert begins where its place says. -/
lemma toNat_offset (h : Packs source order) (hid : id ∈ order) :
    (UInt64.ofNat (order.idxOf id)*source.cfg.expertSize).toNat =
      order.idxOf id*source.cfg.expertSize.toNat := by
  have hend := h.end_le hid
  have hfits := h.fits
  rw [UInt64.toNat_mul, UInt64.toNat_ofNat', Nat.mul_mod, Nat.mod_mod, ← Nat.mul_mod]
  refine Nat.mod_eq_of_lt ?_
  unfold isizeMax at hfits
  omega

lemma entry_packed (h : Packs source order) (hid : id ∈ order) : (source.packed order).entry id =
    some ⟨UInt64.ofNat (order.idxOf id)*source.cfg.expertSize,source.cfg.expertSize⟩ := by
  rw [Source.packed, entry_uniform h.nodup, if_pos hid]

lemma slot_packed (h : Packs source order) (hid : id ∈ order) :
    (source.packed order).slot id = source.bytes id := by
  rw [slot_eq (h.entry_packed hid), h.toNat_offset hid]
  exact Source.read_blob h.has (List.getElem?_idxOf hid)

lemma validate (h : Packs source order) (hsize : source.cfg.expertSize ≠ 0) :
    (source.packed order).manifest.validate = .ok () := by
  unfold PackedManifest.validate
  split_ifs with hempty hzero
  · rfl
  · exact absurd hzero hsize
  refine forM_eq_ok.mpr fun entry hentry => ?_
  obtain ⟨hid,hslot⟩ := (mem_uniform h.nodup).mp hentry
  have hoffset : entry.2.offset % source.cfg.expertSize = 0 := by
    rw [← UInt64.toNat_inj, UInt64.toNat_mod, hslot, h.toNat_offset hid]
    exact Nat.mul_mod_left _ _
  exact validateEntry_ok (by rw [hslot]; rfl) hoffset

lemma inside (h : Packs source order) {entry : ℕ × PackedEntry}
    (hentry : entry ∈ (source.packed order).manifest.entries) :
    entry.2.offset.toNat+entry.2.len.toNat ≤ (source.blob order).length := by
  obtain ⟨hid,hslot⟩ := (mem_uniform h.nodup).mp hentry
  rw [hslot, h.toNat_offset hid]
  exact h.end_le hid

lemma slotFits (h : Packs source order) {entry : ℕ × PackedEntry}
    (hentry : entry ∈ (source.packed order).manifest.entries) : entry.2.Fits := by
  have hinside := h.inside hentry
  have hfits := h.fits
  unfold isizeMax at hfits
  unfold PackedEntry.Fits
  omega

lemma ready (h : Packs source order) (hsize : source.cfg.expertSize ≠ 0) :
    Ready (source.packed order) :=
  ready_of_validate (h.validate hsize) (fun _ hentry => h.slotFits hentry) fun _ hentry => h.inside hentry

lemma validateBlob (h : Packs source order) (hsize : source.cfg.expertSize ≠ 0) (blobPath : String) :
    Packed.validateBlob (source.packed order).manifest blobPath
      (.ok (UInt64.ofNat (source.blob order).length)) = .ok () := by
  have hfits := h.fits
  unfold isizeMax at hfits
  have hlength : (UInt64.ofNat (source.blob order).length).toNat = (source.blob order).length := by
    rw [UInt64.toNat_ofNat']
    exact Nat.mod_eq_of_lt (by omega)
  have hblob : (source.packed order).manifest.blobLen ≤ (source.blob order).length := by
    unfold PackedManifest.blobLen
    cases hmax : ((source.packed order).manifest.entries.map fun entry => entry.2.finish.toNat).max? with
    | none => exact Nat.zero_le _
    | some last =>
      obtain ⟨entry,hentry,rfl⟩ := List.mem_map.mp (List.max?_mem hmax)
      rw [Option.getD_some, PackedEntry.toNat_finish (h.slotFits hentry)]
      exact h.inside hentry
  unfold Packed.validateBlob
  rw [h.validate hsize]
  dsimp only
  refine bind_eq_ok.mpr ⟨_,rfl,?_⟩
  rw [hlength, if_neg (Nat.not_lt.mpr hblob)]
  rfl

/-- The slots of an earlier order in a blob that begins with other experts. -/
lemma slot_replaced {other : Source} {taken : List ℕ} {flushed i : ℕ} (h : Packs source order)
    (hsize : source.cfg.expertSize ≠ 0) (hsame : other.cfg.expertSize = source.cfg.expertSize)
    (hall : ∀ id ∈ taken, other.Has id)
    (hlen : (source.packed order).manifest.blobLen ≤ ((other.blob taken).take flushed).length)
    (hplace : order[i]? = some id) : ∃ replaced, taken[i]? = some replaced ∧
      (PackedBlob.mk ((other.blob taken).take flushed) (source.packed order).manifest).slot id =
        other.bytes replaced := by
  obtain ⟨hi,rfl⟩ := List.getElem?_eq_some_iff.mp hplace
  have hid : order[i] ∈ order := List.getElem_mem hi
  have hindex : order.idxOf order[i] = i := h.nodup.idxOf_getElem i hi
  have hoffset := h.toNat_offset hid
  have hentry := (@mem_uniform source.cfg.expertSize source.cfg.blockAlign _ _ _ h.nodup).mpr ⟨hid,rfl⟩
  have hfinish := (finish_le_blobLen hentry).trans hlen
  rw [PackedEntry.toNat_finish (h.slotFits hentry), hoffset, hindex, List.length_take,
    Source.length_blob hall, hsame] at hfinish
  have hflushed : i*source.cfg.expertSize.toNat+source.cfg.expertSize.toNat ≤ flushed :=
    hfinish.trans (min_le_left _ _)
  have hinside : (i+1)*source.cfg.expertSize.toNat ≤ taken.length*source.cfg.expertSize.toNat := by
    rw [Nat.succ_mul]
    exact hfinish.trans (min_le_right _ _)
  have hpos : 0<source.cfg.expertSize.toNat :=
    Nat.pos_of_ne_zero fun hzero => hsize (UInt64.toNat_inj.mp hzero)
  have hlt : i<taken.length := Nat.le_of_mul_le_mul_right hinside hpos
  have hread := Source.read_blob hall (List.getElem?_eq_getElem hlt)
  rw [hsame] at hread
  have hslot : (PackedBlob.mk ((other.blob taken).take flushed) (source.packed order).manifest).entry
      order[i] = some ⟨UInt64.ofNat (order.idxOf order[i])*source.cfg.expertSize,source.cfg.expertSize⟩ :=
    (entry_uniform h.nodup _).trans (if_pos hid)
  refine ⟨taken[i],List.getElem?_eq_getElem hlt,?_⟩
  rw [slot_eq hslot, hoffset, hindex, read_take hflushed]
  exact hread

end Packs

end Blobs

section Batches
variable {source : Source} {env : Env} {ids order : List ℕ}

/-- A batch that reads the files of its experts fills every buffer with the bytes of its expert. -/
lemma readExpertsBatch_ok {stripedPaths total : ℕ} {turns : List (Fin ids.length)}
    {batch batch' : Batch stripedPaths (Fin ids.length)} (hturns : turns.Perm (List.finRange ids.length))
    (hsized : batch.Sized source.cfg.expertSize.toNat)
    (h : source.readExpertsBatch env ids turns batch = .ok total batch') :
    total = ids.length*source.cfg.expertSize.toNat ∧ ∀ i, batch'.buffers i = source.bytes (ids.get i) := by
  unfold Source.readExpertsBatch at h
  cases hfiles : ids.mapM source.fdFor with
  | error e =>
    rw [hfiles] at h
    cases h
  | ok files =>
    rw [hfiles] at h
    dsimp only at h
    obtain ⟨hslots,-⟩ := @readSlots_ok stripedPaths _ _ batch env
      (fun i : Fin ids.length => (files.getD i.val [],ids.get i)) turns
      (fun _ => .error (.custom .other "")) (hturns.nodup_iff.mpr (List.nodup_finRange _))
    generalize readSlots env _ turns _ batch = done at h hslots
    obtain ⟨results,left⟩ := done
    dsimp only at h hslots
    cases hsum : sumResults results (List.finRange ids.length) with
    | error e =>
      rw [hsum] at h
      cases h
    | ok sum =>
      rw [hsum] at h
      cases h
      have hall : ∀ i, i ∈ turns := fun i => hturns.mem_iff.mpr (List.mem_finRange i)
      obtain ⟨htotal,hresults⟩ := @sumResults_ok _ _ _ _ source.cfg.expertSize.toNat hsum
        fun i _ n hn => (hslots i (hall i) n hn).1.trans (hsized i)
      rw [List.length_finRange] at htotal
      refine ⟨htotal,fun i => ?_⟩
      obtain ⟨-,-,hbuffer⟩ := hslots i (hall i) _ (hresults i (List.mem_finRange i))
      obtain ⟨file,hfile,hopen⟩ := getElem_mapM_ok hfiles i.val (List.getElem?_eq_getElem i.isLt)
      rw [List.getD_eq_getElem?_getD, hfile, Option.getD_some] at hbuffer
      rw [hbuffer, Source.bytes, List.get_eq_getElem, hopen]

end Batches

section Neighbours
variable {ι : Type} {source : Source} {order : List ℕ}

/-- Requests whose slots follow each other stay in the current run: by induction on the requests. -/
lemma foldl_contiguous {state : Coalescing ι} {rest : List (Request ι)} (hfits : ∀ r ∈ rest, r.2.2.Fits)
    (h : Contiguous state.curEnd.toNat (extents rest)) :
    (rest.foldl Coalescing.add state).runs = state.runs := by
  induction rest generalizing state with
  | nil => rfl
  | cons request rest ih =>
    obtain ⟨hfit,hrest⟩ := List.forall_mem_cons.mp hfits
    obtain ⟨hoffset,hnext⟩ := h
    have hadjacent : request.2.2.offset = state.curEnd := UInt64.toNat_inj.mp hoffset
    have hadd : state.add request = { state with
        cur := { state.cur with
          totalLen := state.cur.totalLen+request.2.2.len
          members := state.cur.members++[(request.1,request.2.1)] }
        curEnd := request.2.2.finish } := if_pos hadjacent
    have hend : request.2.2.finish.toNat = state.curEnd.toNat+request.2.2.len.toNat := by
      rw [PackedEntry.toNat_finish hfit, hadjacent]
    rw [List.foldl_cons, hadd]
    refine ih hrest ?_
    change Contiguous request.2.2.finish.toNat (extents rest)
    rw [hend]
    exact hnext

/-- Requests whose slots are without gaps once they are sorted are one run. -/
lemma coalesceRuns_single {requested : List (Request ι)} {start : ℕ} (hne : requested ≠ [])
    (hfits : ∀ r ∈ requested, r.2.2.Fits)
    (h : Contiguous start (extents (requested.insertionSort offsetLe))) :
    ∃ run, coalesceRuns requested = [run] := by
  have hperm := List.perm_insertionSort offsetLe requested
  unfold coalesceRuns
  cases hsort : requested.insertionSort offsetLe with
  | nil =>
    rw [hsort] at hperm
    exact absurd (List.nil_perm.mp hperm) hne
  | cons first rest =>
    rw [hsort] at hperm h
    have hsorted : ∀ r ∈ first::rest, r.2.2.Fits := fun r hr => hfits r (hperm.mem_iff.mp hr)
    obtain ⟨hfirst,hrest⟩ := List.forall_mem_cons.mp hsorted
    obtain ⟨rfl,hnext⟩ := h
    have hstart : Contiguous (Coalescing.mk [] (.single first) first.2.2.finish).curEnd.toNat
        (extents rest) := by
      change Contiguous first.2.2.finish.toNat (extents rest)
      rw [PackedEntry.toNat_finish hfirst]
      exact hnext
    refine ⟨(rest.foldl Coalescing.add ⟨[],.single first,first.2.2.finish⟩).cur,?_⟩
    dsimp only
    rw [foldl_contiguous hrest hstart]
    rfl

lemma contiguous_range' (size p m : ℕ) :
    Contiguous (p*size) ((List.range' p m).map fun i => (i*size,size)) := by
  induction m generalizing p with
  | zero => trivial
  | succ m ih =>
    rw [List.range'_succ, List.map_cons]
    refine ⟨rfl,?_⟩
    rw [← Nat.succ_mul]
    exact ih (p+1)

/-- The places of neighbours. -/
lemma map_idxOf_neighbours (hnodup : order.Nodup) (p k : ℕ) :
    ((order.drop p).take k).map (order.idxOf ·) = List.range' p ((order.drop p).take k).length := by
  refine List.ext_getElem (by simp) fun j hj hj' => ?_
  rw [List.getElem_map, List.getElem_range', Nat.one_mul, List.getElem_take, List.getElem_drop]
  exact hnodup.idxOf_getElem _ _

/-- Neighbours in the order, in whatever sequence they are requested, have slots without gaps. -/
lemma Packs.contiguous_sorted (h : Packs source order) {requested : List (Request ι)} {p k : ℕ}
    (hentries : ∀ r ∈ requested, (source.packed order).entry r.1 = some r.2.2)
    (hids : (requested.map (·.1)).Perm ((order.drop p).take k)) :
    Contiguous (p*source.cfg.expertSize.toNat) (extents (requested.insertionSort offsetLe)) := by
  let size := source.cfg.expertSize.toNat
  have hextents : extents requested =
      (requested.map (·.1)).map fun id => (order.idxOf id*size,size) := by
    rw [extents, List.map_map]
    refine List.map_congr_left fun r hr => ?_
    have hmem : r.1 ∈ (order.drop p).take k := hids.mem_iff.mp (List.mem_map_of_mem hr)
    have hid : r.1 ∈ order := List.mem_of_mem_drop (List.mem_of_mem_take hmem)
    have hentry := Option.some.inj ((hentries r hr).symm.trans (h.entry_packed hid))
    rw [hentry]
    exact Prod.ext (h.toNat_offset hid) rfl
  have hperm : (extents (requested.insertionSort offsetLe)).Perm
      ((List.range' p ((order.drop p).take k).length).map fun i => (i*size,size)) := by
    refine ((List.perm_insertionSort offsetLe requested).map _).trans ?_
    have hplaces : ((order.drop p).take k).map (fun id => (order.idxOf id*size,size)) =
        (List.range' p ((order.drop p).take k).length).map fun i => (i*size,size) := by
      rw [← map_idxOf_neighbours h.nodup, List.map_map]
      rfl
    change (extents requested).Perm _
    rw [hextents, ← hplaces]
    exact hids.map _
  have hsizes : ∀ extent ∈ (List.range' p ((order.drop p).take k).length).map fun i => (i*size,size),
      extent.2 = size := List.forall_mem_map.mpr fun _ _ => rfl
  have hsorted : (extents (requested.insertionSort offsetLe)).Pairwise fun a b => a.1 ≤ b.1 :=
    List.pairwise_map.mpr (List.pairwise_insertionSort offsetLe requested)
  have hrange : ((List.range' p ((order.drop p).take k).length).map fun i => (i*size,size)).Pairwise
      fun a b => a.1 ≤ b.1 :=
    List.pairwise_map.mpr ((List.pairwise_lt_range' ..).imp fun hlt => Nat.mul_le_mul_right size hlt.le)
  rw [List.Perm.eq_of_pairwise (fun a b ha hb hab hba => ?_) hsorted hrange hperm]
  · exact contiguous_range' size p _
  · exact Prod.ext (le_antisymm hab hba)
      ((hsizes a (hperm.mem_iff.mp ha)).trans (hsizes b hb).symm)

/-- A `preadv` that is not cut short is all that a run takes. -/
lemma readRun_whole [DecidableEq ι] {stripedPaths : ℕ} {env : Env} {packed : PackedBlob}
    {run : ContiguousRun ι} {batch : Batch stripedPaths ι} (hmany : 1 < run.members.length)
    (hcap : run.members.length ≤ iovMaxSafe) (hstart : run.startOffset.toNat<2^63)
    (hroom : ((run.members.map (·.2)).map fun i => (batch.buffers i).length).sum = run.totalLen.toNat)
    (hdata : (read packed.file run.startOffset.toNat run.totalLen.toNat).length = run.totalLen.toNat)
    (hpassed : (env.transfers batch.vectored).failed = false)
    (hlimit : run.totalLen.toNat ≤ (env.transfers batch.vectored).limit) :
    ∃ left, readRun env packed run batch = .ok run.totalLen.toNat left ∧
      left.vectored = batch.vectored+1 ∧ left.reports = batch.reports := by
  have hpreadv : ∃ next, preadv env packed run.startOffset (run.members.map (·.2)) batch =
      .ok (some run.totalLen.toNat) next ∧ next.vectored = batch.vectored+1 ∧
        next.reports = batch.reports := by
    unfold preadv
    dsimp only
    rw [if_neg (Nat.not_le.mpr hstart), hroom, min_eq_right hlimit, hdata, hpassed,
      if_neg Bool.false_ne_true]
    exact ⟨_,rfl,rfl,rfl⟩
  obtain ⟨next,hnext,hvectored,hreports⟩ := hpreadv
  refine ⟨next.credit run.members,?_,hvectored,hreports⟩
  rw [readRun]
  split_ifs with hapart
  · exact absurd hapart (not_or.mpr ⟨hmany.ne',Nat.not_lt.mpr hcap⟩)
  dsimp only
  rw [run_bind_ok hnext, if_pos rfl]
  rfl

/-- All of a run is in the file. -/
lemma RunOf.length_read {packed : PackedBlob} {run : ContiguousRun ι} {group : List (Request ι)}
    (hready : Ready packed) (h : RunOf run group)
    (hentries : ∀ r ∈ group, packed.entry r.1 = some r.2.2) :
    (read packed.file run.startOffset.toNat run.totalLen.toNat).length = run.totalLen.toNat := by
  rw [h.read_eq hentries, h.total_eq hready hentries, List.length_flatMap]
  have hslots : run.members.map (fun m => (packed.slot m.1).length) =
      run.members.map fun _ => packed.manifest.expertSize.toNat := by
    refine List.map_congr_left fun m hm => ?_
    rw [h.members] at hm
    obtain ⟨r,hr,rfl⟩ := List.mem_map.mp hm
    exact hready.length_slot (hentries r hr)
  rw [hslots, List.map_const', List.sum_replicate, smul_eq_mul]

lemma Batch.Sized.room {stripedPaths size : ℕ} {batch : Batch stripedPaths ι} (h : batch.Sized size)
    (targets : List ι) : (targets.map fun i => (batch.buffers i).length).sum = targets.length*size := by
  have hbuffers : (targets.map fun i => (batch.buffers i).length) = targets.map fun _ => size :=
    List.map_congr_left fun i _ => h i
  rw [hbuffers, List.map_const', List.sum_replicate, smul_eq_mul]

namespace Packs

/-- A batch of neighbours is a request of one run. -/
lemma single_run (h : Packs source order) (hsize : source.cfg.expertSize ≠ 0) {ids : List ℕ} {p k : ℕ}
    (hids : ids.Perm ((order.drop p).take k)) (hmany : 1 < ids.length) : ∃ requested run group,
      resolve (source.packed order) (indexed ids) = .ok requested ∧ coalesceRuns requested = [run] ∧
      RunOf run group ∧ (∀ r ∈ group, (source.packed order).entry r.1 = some r.2.2) ∧
      run.members.length = ids.length := by
  have hready := h.ready hsize
  have hpacked : ∀ id ∈ ids, (source.packed order).entry id =
      some ⟨UInt64.ofNat (order.idxOf id)*source.cfg.expertSize,source.cfg.expertSize⟩ := fun id hid =>
    h.entry_packed (List.mem_of_mem_drop (List.mem_of_mem_take (hids.mem_iff.mp hid)))
  obtain ⟨requested,hresolve,hmembers,hrequested⟩ := @resolve_eq _ (source.packed order)
    (indexed ids) (List.forall_mem_map.mpr fun i _ => ⟨_,hpacked _ (List.get_mem ids i)⟩)
  have hfirst : requested.map (·.1) = ids := by
    have hmap := congrArg (List.map (·.1)) hmembers
    rw [membersOf, List.map_map, indexed, List.map_map] at hmap
    exact hmap.trans (List.map_get_finRange ids)
  have hcount : requested.length = ids.length := by
    rw [← List.length_map (·.1), hfirst]
  have hfits : ∀ r ∈ requested, r.2.2.Fits := fun r hr => hready.fits _ _ (hrequested r hr)
  obtain ⟨run,hrun⟩ := coalesceRuns_single (List.ne_nil_of_length_pos (by omega)) hfits
    (h.contiguous_sorted hrequested (hfirst.symm ▸ hids))
  have hcoalesced := coalesceRuns_coalesced hfits
  rw [hrun] at hcoalesced
  obtain ⟨groups,hgroups,hruns⟩ := hcoalesced.groups
  obtain ⟨group,none,hgroup,hnone,rfl⟩ := List.forall₂_cons_left_iff.mp hruns
  obtain rfl := List.forall₂_nil_left_iff.mp hnone
  rw [List.flatten_singleton] at hgroups
  refine ⟨requested,run,group,hresolve,hrun,hgroup,fun r hr => hrequested r (hgroups.mem_iff.mp hr),?_⟩
  rw [hgroup.members, membersOf, List.length_map, hgroups.length_eq, hcount]

/-- A batch of neighbours is one `preadv`, when it is not cut short. -/
lemma read_at_once {stripedPaths : ℕ} (h : Packs source order) (hsize : source.cfg.expertSize ≠ 0)
    (env : Env) (ids : List ℕ) {batch : Batch stripedPaths (Fin ids.length)} {p k : ℕ}
    (hids : ids.Perm ((order.drop p).take k)) (hmany : 1 < ids.length) (hcap : ids.length ≤ iovMaxSafe)
    (hsized : batch.Sized source.cfg.expertSize.toNat)
    (hpassed : (env.transfers batch.vectored).failed = false)
    (hlimit : ids.length*source.cfg.expertSize.toNat ≤ (env.transfers batch.vectored).limit) :
    ∃ total left, readExpertsBatchPacked env (source.packed order) ids batch = .ok total left ∧
      left.vectored = batch.vectored+1 ∧ left.reports = batch.reports := by
  obtain ⟨requested,run,group,hresolve,hrun,hgroup,hentries,hlength⟩ := h.single_run hsize hids hmany
  have htotal : run.totalLen.toNat = ids.length*source.cfg.expertSize.toNat := by
    rw [hgroup.total_eq (h.ready hsize) hentries, hlength]
    rfl
  have hdata := hgroup.length_read (h.ready hsize) hentries
  have hroom : ((run.members.map (·.2)).map fun i => (batch.buffers i).length).sum =
      run.totalLen.toNat := by
    rw [hsized.room, List.length_map, hlength, htotal]
  have hpos : 0<run.totalLen.toNat := by
    rw [htotal]
    exact Nat.mul_pos (by omega) (Nat.pos_of_ne_zero fun hzero => hsize (UInt64.toNat_inj.mp hzero))
  -- Something is read, so the run begins inside the file.
  have hstart : run.startOffset.toNat<2^63 := by
    have hfits := h.fits
    have hinside := hdata
    rw [Extents.read, List.length_take, List.length_drop] at hinside
    change min _ ((source.blob order).length-_) = _ at hinside
    unfold isizeMax at hfits
    omega
  obtain ⟨left,hleft,hvectored,hreports⟩ := readRun_whole (hlength.symm ▸ hmany) (hlength.symm ▸ hcap)
    hstart hroom hdata hpassed (htotal ▸ hlimit)
  refine ⟨run.totalLen.toNat+0,left,?_,hvectored,hreports⟩
  rw [readExpertsBatchPacked, hresolve]
  dsimp only
  rw [hrun, readRuns, addReads, run_bind_ok hleft]
  rfl

end Packs

end Neighbours

section Serving
variable {source : Source} {machine : Machine} {env : PackEnv} {args : RepackArgs}
  {files files' : PackedFiles} {manifest : PackedManifest} {order : List ℕ}

def notPacked (id : ℕ) : IoError :=
  .custom (.remaining "NotFound") s!"expert {id} is not present in the packed blob manifest"

/-- Requests with an expert that is not packed are refused, with the first such expert. -/
lemma resolve_absent {ι : Type} {packed : PackedBlob} {requests : List (ℕ × ι)}
    (h : ∃ m ∈ requests, packed.entry m.1 = none) :
    ∃ m ∈ requests, packed.entry m.1 = none ∧ resolve packed requests = .error (notPacked m.1) := by
  induction requests with
  | nil =>
    obtain ⟨m,hm,-⟩ := h
    cases hm
  | cons first requests ih =>
    cases hentry : packed.entry first.1 with
    | none =>
      refine ⟨first,List.mem_cons_self,hentry,?_⟩
      have hone : resolveOne packed first = .error (notPacked first.1) := by
        rw [resolveOne, hentry]
        rfl
      rw [resolve, List.mapM_cons]
      exact bind_eq_error.mpr (.inl hone)
    | some entry =>
      have hrest : ∃ m ∈ requests, packed.entry m.1 = none := by
        obtain ⟨m,hm,hnone⟩ := h
        obtain rfl | hm := List.mem_cons.mp hm
        · rw [hentry] at hnone
          cases hnone
        · exact ⟨m,hm,hnone⟩
      obtain ⟨m,hm,hnone,herror⟩ := ih hrest
      have hone : resolveOne packed first = .ok (first.1,first.2,entry) := by
        rw [resolveOne, hentry]
      refine ⟨m,List.mem_cons_of_mem _ hm,hnone,?_⟩
      rw [resolve, List.mapM_cons]
      exact bind_eq_error.mpr (.inr ⟨_,hone,bind_eq_error.mpr (.inl herror)⟩)

/-- A blob serves the experts of an order as their own files do, and no other expert. -/
structure Agrees (source : Source) (packed : PackedBlob) (order : List ℕ) : Prop where
  has : ∀ id ∈ order, source.Has id
  absent : ∀ {stripedPaths : ℕ} (env : Env) (ids : List ℕ) (batch : Batch stripedPaths (Fin ids.length)),
    (∃ id ∈ ids, id ∉ order) → ∃ id ∈ ids, id ∉ order ∧
      readExpertsBatchPacked env packed ids batch = .error (notPacked id) batch
  served : ∀ {stripedPaths : ℕ} (env : Env) (ids : List ℕ) (batch : Batch stripedPaths (Fin ids.length)),
    (∀ id ∈ ids, id ∈ order) → batch.Sized source.cfg.expertSize.toNat →
    (∀ report ∈ (stateOf (readExpertsBatchPacked env packed ids batch)).reports,
      report.result.isOk = true) →
    ∃ batch', readExpertsBatchPacked env packed ids batch =
        .ok (ids.length*source.cfg.expertSize.toNat) batch' ∧
      ∀ i, batch'.buffers i = source.bytes (ids.get i)
  same : ∀ {stripedPaths stripedPaths' : ℕ} (env env' : Env) (ids : List ℕ)
    (turns : List (Fin ids.length)) (batch left : Batch stripedPaths (Fin ids.length))
    (batch' left' : Batch stripedPaths' (Fin ids.length)) (total total' : ℕ),
    turns.Perm (List.finRange ids.length) → batch.Sized source.cfg.expertSize.toNat →
    batch'.Sized source.cfg.expertSize.toNat →
    readExpertsBatchPacked env packed ids batch = .ok total left →
    source.readExpertsBatch env' ids turns batch' = .ok total' left' →
    total = total' ∧ left.buffers = left'.buffers

namespace Packs

/-- What a batch of packed experts does, from the reads of its members. -/
lemma filled {stripedPaths : ℕ} (h : Packs source order) (hsize : source.cfg.expertSize ≠ 0)
    (env : Env) (ids : List ℕ) {batch : Batch stripedPaths (Fin ids.length)}
    (hids : ∀ id ∈ ids, id ∈ order) (hsized : batch.Sized source.cfg.expertSize.toNat) :
    (∃ e batch', readExpertsBatchPacked env (source.packed order) ids batch = .error e batch' ∧
      ∃ report ∈ batch'.reports, report.result.isOk = false) ∨
    ∃ batch', readExpertsBatchPacked env (source.packed order) ids batch =
        .ok (ids.length*source.cfg.expertSize.toNat) batch' ∧
      ∀ i, batch'.buffers i = source.bytes (ids.get i) := by
  have hpacked : ∀ id ∈ ids, id ∈ (source.packed order).manifest.entries.map (·.1) := by
    intro id hid
    exact List.mem_map.mpr ⟨_,(mem_uniform h.nodup).mpr ⟨hids id hid,rfl⟩,rfl⟩
  obtain ⟨members,hperm,hreads⟩ :=
    readExpertsBatchPacked_reads env ids (h.ready hsize) hpacked hsized
  generalize readExpertsBatchPacked env (source.packed order) ids batch = result at hreads ⊢
  cases hreads with
  | failed hfailed => exact .inl ⟨_,_,rfl,hfailed⟩
  | @filled total batch' htotal _ hfilled _ =>
    refine .inr ⟨batch',?_,fun i => ?_⟩
    · rw [htotal, hperm.length_eq, indexed, List.length_map, List.length_finRange]
      rfl
    · have hmember := hfilled _ (hperm.mem_iff.mpr (mem_indexed ids i))
      rw [h.slot_packed (hids _ (List.get_mem ids i))] at hmember
      exact hmember

lemma absent (h : Packs source order) {stripedPaths : ℕ} (env : Env) (ids : List ℕ)
    (batch : Batch stripedPaths (Fin ids.length)) (habsent : ∃ id ∈ ids, id ∉ order) :
    ∃ id ∈ ids, id ∉ order ∧
      readExpertsBatchPacked env (source.packed order) ids batch = .error (notPacked id) batch := by
  have hentry : ∀ id, (source.packed order).entry id = none ↔ id ∉ order := by
    intro id
    rw [Source.packed, entry_uniform h.nodup]
    split_ifs with hid
    · simp [hid]
    · simp [hid]
  have hrequest : ∃ m ∈ indexed ids, (source.packed order).entry m.1 = none := by
    obtain ⟨id,hid,hout⟩ := habsent
    obtain ⟨i,rfl⟩ := List.get_of_mem hid
    exact ⟨_,mem_indexed ids i,(hentry _).mpr hout⟩
  obtain ⟨m,hm,hnone,herror⟩ := resolve_absent hrequest
  obtain ⟨i,-,rfl⟩ := List.mem_map.mp hm
  refine ⟨ids.get i,List.get_mem ids i,(hentry _).mp hnone,?_⟩
  rw [readExpertsBatchPacked, herror]
  rfl

lemma agrees (h : Packs source order) (hsize : source.cfg.expertSize ≠ 0) :
    Agrees source (source.packed order) order where
  has := h.has
  absent := fun env ids batch => h.absent env ids batch
  served := fun env ids batch hids hsized hreports => by
    obtain ⟨e,batch',herror,report,hreport,hfailed⟩ | hok := h.filled hsize env ids hids hsized
    · rw [herror] at hreports
      exact absurd ((hreports report hreport).symm.trans hfailed) (by decide)
    · exact hok
  same := fun env env' ids turns batch left batch' left' total total' hturns hsized hsized' hread hread' => by
    have hids : ∀ id ∈ ids, id ∈ order := by
      intro id hid
      by_contra hout
      obtain ⟨other,-,-,herror⟩ := h.absent env ids batch ⟨id,hid,hout⟩
      rw [herror] at hread
      cases hread
    obtain ⟨e,batch',herror,-⟩ | ⟨batch',hok,hbuffers⟩ := h.filled hsize env ids hids hsized
    · rw [herror] at hread
      cases hread
    · rw [hok] at hread
      cases hread
      obtain ⟨htotal,hfiles⟩ := readExpertsBatch_ok hturns hsized' hread'
      exact ⟨htotal.symm,funext fun i => (hbuffers i).trans (hfiles i).symm⟩

end Packs

/-- What the command can do: refuse before a file is touched, or pack the experts of an order. -/
lemma cmdRepack_cases : (∃ e, cmdRepack machine env args files = .error e files) ∨
    args.cfg.expertSize ≠ 0 ∧ ∃ order, args.order.resolve machine.fromStr = .ok order ∧
      (∀ manifest left, packExperts (args.source machine.disk machine.openError) env order files =
        .ok manifest left → cmdRepack machine env args files = .ok manifest left) ∧
      ∀ e left, packExperts (args.source machine.disk machine.openError) env order files =
        .error e left → cmdRepack machine env args files = .error (.io e) left := by
  unfold cmdRepack
  split
  · exact .inl ⟨_,rfl⟩
  · cases args.order.resolve machine.fromStr with
    | error text => exact .inl ⟨_,rfl⟩
    | ok order =>
      dsimp only
      split_ifs with hzero
      · exact .inl ⟨_,rfl⟩
      · refine .inr ⟨hzero,order,rfl,fun manifest left hpack => ?_,fun e left hpack => ?_⟩
        · rw [hpack]
        · rw [hpack]

lemma cmdRepack_ok (h : cmdRepack machine env args files = .ok manifest files') :
    args.cfg.expertSize ≠ 0 ∧ ∃ order, args.order.resolve machine.fromStr = .ok order ∧
      packExperts (args.source machine.disk machine.openError) env order files = .ok manifest files' := by
  obtain ⟨e,hrefused⟩ | ⟨hsize,order,horder,hok,herror⟩ := @cmdRepack_cases machine env args files
  · rw [hrefused] at h
    cases h
  · refine ⟨hsize,order,horder,?_⟩
    cases hpack : packExperts (args.source machine.disk machine.openError) env order files with
    | ok packed left =>
      rw [hok packed left hpack] at h
      cases h
      rfl
    | error e left =>
      rw [herror e left hpack] at h
      cases h

lemma cmdRepack_error {e : CommandError} (h : cmdRepack machine env args files = .error e files') :
    files' = files ∨ ∃ order e', args.order.resolve machine.fromStr = .ok order ∧
      packExperts (args.source machine.disk machine.openError) env order files = .error e' files' := by
  obtain ⟨e,hrefused⟩ | ⟨-,order,horder,hok,herror⟩ := @cmdRepack_cases machine env args files
  · rw [hrefused] at h
    cases h
    exact .inl rfl
  · cases hpack : packExperts (args.source machine.disk machine.openError) env order files with
    | ok packed left =>
      rw [hok packed left hpack] at h
      cases h
    | error e' left =>
      rw [herror e' left hpack] at h
      cases h
      exact .inr ⟨order,e',horder,hpack⟩

lemma attach_packed (h : Packs source order) (hsize : source.cfg.expertSize ≠ 0)
    (openError : String → IoError) (blobPath manifestPath : String) :
    maybeAttachPackedBlob ⟨some (source.blob order),some (source.packed order).manifest⟩ openError
      (some blobPath) (some manifestPath) source.cfg.expertSize = .ok (some (source.packed order)) := by
  have hvalid := h.validateBlob hsize blobPath
  have hopen : (PackedFiles.mk (some (source.blob order))
      (some (source.packed order).manifest)).openBlob openError blobPath manifestPath =
        .ok (source.packed order) := bind_eq_ok.mpr ⟨_,hvalid,rfl⟩
  unfold maybeAttachPackedBlob
  refine bind_eq_ok.mpr ⟨source.packed order,by rw [hopen]; rfl,bind_eq_ok.mpr ⟨(),?_,?_⟩⟩
  · change (Except.mapError _ (validateBlob (source.packed order).manifest blobPath
      (.ok (UInt64.ofNat (source.blob order).length)))) = _
    rw [hvalid]
    rfl
  · exact if_neg (not_not.mpr rfl)

/-- When `repack` returns, what it wrote is accepted by every engine of that expert size, and batches
read from it what they read from the files of the experts: the same bytes and the same totals. An
expert outside the order is refused by name, and nothing is read. -/
theorem repack_agrees (h : cmdRepack machine env args files = .ok manifest files') :
    ∃ order packed, Resolved machine.fromStr args.order order ∧
      (∀ openError blobPath manifestPath, maybeAttachPackedBlob files' openError (some blobPath)
        (some manifestPath) args.cfg.expertSize = .ok (some packed)) ∧
      Agrees (args.source machine.disk machine.openError) packed order := by
  obtain ⟨hsize,order,horder,hpack⟩ := cmdRepack_ok h
  obtain ⟨hpacks,rfl,rfl⟩ := packExperts_ok hpack
  exact ⟨order,_,resolve_resolved horder,fun openError blobPath manifestPath =>
    attach_packed hpacks hsize openError blobPath manifestPath,hpacks.agrees hsize⟩

/-- Two experts, the first in a longer file. -/
def twoFiles : Machine :=
  ⟨⟨fun path => if path = "experts/expert_0.bin" then some [1,2,9] else
      if path = "experts/expert_1.bin" then some [3,4] else none,fun _ => true⟩,
    .custom (.remaining "NotFound"),fun _ => .error ""⟩

/-- Every read returns the two bytes that are asked for, and every write succeeds. -/
def smoothPacking : PackEnv :=
  ⟨⟨shortTransfers.clock,fun _ _ => .ok 2,fun _ => 0,fun _ => ⟨false,4⟩⟩,.ok (),fun _ _ => 255,
    fun _ => .ok (),.ok (),0,.written⟩

def swappedArgs : RepackArgs :=
  ⟨⟨2,some ("order.txt","1 # the hotter one\n0".toList),none⟩,"experts",true,⟨2,1,none⟩⟩

/-- The blob of a repack that has returned. -/
def blobOf : EStateM.Result CommandError PackedFiles PackedManifest → Option (List UInt8)
  | .ok _ files => files.blob
  | .error _ _ => none

lemma result_of_blobOf {result : EStateM.Result CommandError PackedFiles PackedManifest} {blob : List UInt8}
    (h : blobOf result = some blob) : ∃ manifest files', result = .ok manifest files' ∧
      files'.blob = some blob := by
  cases result with
  | ok manifest files' => exact ⟨manifest,files',rfl,h⟩
  | error e files' => cases h

lemma blobOf_swapped :
    blobOf (cmdRepack twoFiles smoothPacking swappedArgs ⟨none,none⟩) = some [3,4,1,2] := by
  decide +kernel

theorem repack_agrees_swapped : ∃ manifest files',
    cmdRepack twoFiles smoothPacking swappedArgs ⟨none,none⟩ = .ok manifest files' ∧
    files'.blob = some [3,4,1,2] ∧ ∃ order packed, Resolved twoFiles.fromStr swappedArgs.order order ∧
      (∀ openError blobPath manifestPath, maybeAttachPackedBlob files' openError (some blobPath)
        (some manifestPath) swappedArgs.cfg.expertSize = .ok (some packed)) ∧
      Agrees (swappedArgs.source twoFiles.disk twoFiles.openError) packed order := by
  obtain ⟨manifest,files',h,hblob⟩ := result_of_blobOf blobOf_swapped
  exact ⟨manifest,files',h,hblob,repack_agrees h⟩

lemma hotter_asymm {profile : ResidencyProfile} {a b : ℕ} (h : Hotter profile a b) :
    ¬Hotter profile b a := by
  unfold Hotter at h ⊢
  cases hb : profile.get b with
  | none =>
    cases ha : profile.get a with
    | none =>
      rw [ha, hb] at h
      dsimp only at h ⊢
      omega
    | some x => exact not_false
  | some y =>
    cases ha : profile.get a with
    | none =>
      rw [ha, hb] at h
      exact h.elim
    | some x =>
      rw [ha, hb] at h
      dsimp only at h ⊢
      omega

/-- In an order from the hottest, places compare as the experts do. -/
lemma idxOf_lt_iff {profile : ResidencyProfile} {a b : ℕ} (h : order.Pairwise (Hotter profile))
    (ha : a ∈ order) (hb : b ∈ order) : order.idxOf a<order.idxOf b ↔ Hotter profile a b := by
  have hplaces : ∀ x y, x ∈ order → y ∈ order → order.idxOf x<order.idxOf y → Hotter profile x y := by
    intro x y hx hy hlt
    have hpair := List.pairwise_iff_getElem.mp h _ _ (List.idxOf_lt_length_of_mem hx)
      (List.idxOf_lt_length_of_mem hy) hlt
    rwa [List.getElem_idxOf, List.getElem_idxOf] at hpair
  refine ⟨hplaces a b ha hb,fun hhotter => ?_⟩
  rcases Nat.lt_trichotomy (order.idxOf a) (order.idxOf b) with hlt | heq | hlt
  · exact hlt
  · obtain rfl := (List.idxOf_inj ha).mp heq
    exact absurd hhotter (hotter_asymm hhotter)
  · exact absurd (hplaces b a hb ha hlt) (hotter_asymm hhotter)

/-- With a profile and no order file every expert of the model is packed, and the slot of an expert
ends before that of another one begins exactly when it is the hotter one. -/
theorem repack_hottest_first {profile : ResidencyProfile}
    (h : cmdRepack machine env args files = .ok manifest files') (horder : args.order.order = none)
    (hprofile : args.order.profile = some profile) :
    (∀ id, (∃ entry, (id,entry) ∈ manifest.entries) ↔ id<args.order.numExperts) ∧
    ∀ a b entry other, (a,entry) ∈ manifest.entries → (b,other) ∈ manifest.entries →
      (entry.offset.toNat+entry.len.toNat ≤ other.offset.toNat ↔ Hotter profile a b) := by
  obtain ⟨hsize,order,hresolve,hpack⟩ := cmdRepack_ok h
  obtain ⟨hpacks,rfl,rfl⟩ := packExperts_ok hpack
  have hresolved := resolve_resolved hresolve
  have hpos : 0<args.cfg.expertSize.toNat :=
    Nat.pos_of_ne_zero fun hzero => hsize (UInt64.toNat_inj.mp hzero)
  refine ⟨fun id => ⟨?_,fun hid => ?_⟩,fun a b entry other hentry hother => ?_⟩
  · rintro ⟨entry,hentry⟩
    exact hresolved.inside id ((mem_uniform hpacks.nodup).mp hentry).1
  · exact ⟨_,(mem_uniform hpacks.nodup).mpr ⟨hresolved.complete horder id hid,rfl⟩⟩
  · obtain ⟨ha,rfl⟩ := (mem_uniform hpacks.nodup).mp hentry
    obtain ⟨hb,rfl⟩ := (mem_uniform hpacks.nodup).mp hother
    dsimp only
    rw [hpacks.toNat_offset ha, hpacks.toNat_offset hb, ← Nat.succ_mul]
    rw [← idxOf_lt_iff (hresolved.hottest horder profile hprofile) ha hb]
    exact Nat.mul_le_mul_right_iff hpos

/-- The second of two experts was observed. -/
def profiledArgs : RepackArgs :=
  ⟨⟨2,none,some (KeyMap.empty.upsert 1 5 fun _ => 5)⟩,"experts",true,⟨2,1,none⟩⟩

lemma blobOf_profiled :
    blobOf (cmdRepack twoFiles smoothPacking profiledArgs ⟨none,none⟩) = some [3,4,1,2] := by
  decide +kernel

theorem repack_hottest_first_profiled : ∃ (manifest : PackedManifest) (files' : PackedFiles),
    cmdRepack twoFiles smoothPacking profiledArgs ⟨none,none⟩ = .ok manifest files' ∧
    files'.blob = some [3,4,1,2] ∧ (∀ id, (∃ entry, (id,entry) ∈ manifest.entries) ↔ id<2) ∧
    ∀ a b entry other, (a,entry) ∈ manifest.entries → (b,other) ∈ manifest.entries →
      (entry.offset.toNat+entry.len.toNat ≤ other.offset.toNat ↔
        Hotter (KeyMap.empty.upsert 1 5 fun _ => 5) a b) := by
  obtain ⟨manifest,files',h,hblob⟩ := result_of_blobOf blobOf_profiled
  exact ⟨manifest,files',h,hblob,repack_hottest_first h rfl rfl⟩

lemma attach_ok {openError : String → IoError} {blobPath manifestPath : String} {expertSize : UInt64}
    {packed : PackedBlob} (h : maybeAttachPackedBlob files openError (some blobPath) (some manifestPath)
      expertSize = .ok (some packed)) : files.blob = some packed.file ∧
      files.manifest = some packed.manifest ∧ packed.manifest.blobLen ≤ packed.file.length := by
  obtain ⟨found,hfound,h⟩ := bind_eq_ok.mp h
  obtain ⟨_,-,h⟩ := bind_eq_ok.mp h
  dsimp only at h
  split_ifs at h with hsize
  obtain rfl := Option.some.inj (Except.ok.inj h)
  cases hopen : files.openBlob openError blobPath manifestPath with
  | error e =>
    rw [hopen] at hfound
    cases hfound
  | ok opened =>
    rw [hopen] at hfound
    obtain rfl := Except.ok.inj hfound
    unfold PackedFiles.openBlob at hopen
    split at hopen
    · cases hopen
    · cases hopen
    · rename_i manifest file hmanifest hblob
      obtain ⟨_,hvalid,hopen⟩ := bind_eq_ok.mp hopen
      obtain rfl := Except.ok.inj hopen
      obtain ⟨-,actualLen,hactual,hlen⟩ := of_validateBlob hvalid
      obtain rfl := Except.ok.inj hactual
      refine ⟨hblob,hmanifest,hlen.trans ?_⟩
      rw [UInt64.toNat_ofNat']
      exact Nat.mod_le _ _

/-- A repack that fails over the files of an earlier one with experts of that size, when these still
attach: they are as they were, or the manifest is the earlier one and each of its slots has the bytes
of the expert that is at its place in the new order. -/
theorem failed_repack {earlier : Machine} {earlierEnv : PackEnv} {earlierArgs : RepackArgs}
    {before : PackedFiles} {e : CommandError} {openError : String → IoError}
    {blobPath manifestPath : String} {packed : PackedBlob}
    (hold : cmdRepack earlier earlierEnv earlierArgs before = .ok manifest files)
    (h : cmdRepack machine env args files = .error e files')
    (hsame : args.cfg.expertSize = earlierArgs.cfg.expertSize)
    (hattach : maybeAttachPackedBlob files' openError (some blobPath) (some manifestPath)
      earlierArgs.cfg.expertSize = .ok (some packed)) :
    files' = files ∨ ∃ earlierOrder order : List ℕ,
      Resolved earlier.fromStr earlierArgs.order earlierOrder ∧
      Resolved machine.fromStr args.order order ∧ packed.manifest = manifest ∧
      ∀ i id : ℕ, earlierOrder[i]? = some id → ∃ replaced, order[i]? = some replaced ∧
        packed.slot id = (args.source machine.disk machine.openError).bytes replaced := by
  obtain ⟨hsize,earlierOrder,hearlier,hpackEarlier⟩ := cmdRepack_ok hold
  obtain ⟨hpacks,rfl,rfl⟩ := packExperts_ok hpackEarlier
  obtain hunchanged | ⟨order,e',horder,hpack⟩ := cmdRepack_error h
  · exact .inl hunchanged
  obtain ⟨hblob,hmanifest,hlen⟩ := attach_ok hattach
  obtain hunchanged | hcut | ⟨taken,flushed,⟨rest,rfl⟩,hall,rfl⟩ := packExperts_error hpack
  · exact .inl hunchanged
  · rw [hcut] at hmanifest
    cases hmanifest
  obtain ⟨file,found⟩ := packed
  obtain rfl := Option.some.inj hblob
  obtain rfl := Option.some.inj hmanifest
  refine .inr ⟨earlierOrder,_,resolve_resolved hearlier,resolve_resolved horder,rfl,fun i id hplace => ?_⟩
  obtain ⟨replaced,htaken,hslot⟩ := hpacks.slot_replaced hsize hsame hall hlen hplace
  obtain ⟨hi,-⟩ := List.getElem?_eq_some_iff.mp htaken
  exact ⟨replaced,(List.getElem?_append_left hi).trans htaken,hslot⟩

def numericArgs : RepackArgs := ⟨⟨2,none,none⟩,"experts",true,⟨2,1,none⟩⟩

/-- The manifest cannot be opened for writing. -/
def lockedManifest : PackEnv :=
  { smoothPacking with saving := .unopened (.custom (.remaining "PermissionDenied") "") }

/-- What the pair serves for the first expert after a repack with the other order fails. -/
def servedAfter (files : PackedFiles) : Option (List UInt8) :=
  match cmdRepack twoFiles lockedManifest swappedArgs files with
  | .ok _ _ => none
  | .error _ files' =>
    match maybeAttachPackedBlob files' twoFiles.openError (some "experts.blob")
      (some "experts.blob.manifest.json") numericArgs.cfg.expertSize with
    | .ok (some packed) => some (packed.slot 0)
    | _ => none

lemma of_servedAfter {bytes : List UInt8} (h : servedAfter files = some bytes) : ∃ e files' packed,
    cmdRepack twoFiles lockedManifest swappedArgs files = .error e files' ∧
    maybeAttachPackedBlob files' twoFiles.openError (some "experts.blob")
      (some "experts.blob.manifest.json") numericArgs.cfg.expertSize = .ok (some packed) ∧
    packed.slot 0 = bytes := by
  unfold servedAfter at h
  split at h
  · cases h
  · rename_i e files' hrepack
    split at h
    · rename_i packed hattach
      exact ⟨e,files',packed,hrepack,hattach,Option.some.inj h⟩
    · cases h

/-- The files after the first repack of two. -/
def numericFiles : PackedFiles :=
  match cmdRepack twoFiles smoothPacking numericArgs ⟨none,none⟩ with
  | .ok _ files => files
  | .error _ files => files

lemma blobOf_numeric :
    blobOf (cmdRepack twoFiles smoothPacking numericArgs ⟨none,none⟩) = some [1,2,3,4] := by
  decide +kernel

lemma servedAfter_numeric : servedAfter numericFiles = some [3,4] := by decide +kernel

/-- The first expert is served with the bytes of the second one. -/
theorem failed_repack_swapped : ∃ (manifest : PackedManifest) (files : PackedFiles) (e : CommandError)
    (files' : PackedFiles) (packed : PackedBlob),
    cmdRepack twoFiles smoothPacking numericArgs ⟨none,none⟩ = .ok manifest files ∧
    cmdRepack twoFiles lockedManifest swappedArgs files = .error e files' ∧
    maybeAttachPackedBlob files' twoFiles.openError (some "experts.blob")
      (some "experts.blob.manifest.json") numericArgs.cfg.expertSize = .ok (some packed) ∧
    packed.slot 0 = [3,4] ∧ (files' = files ∨ ∃ earlierOrder order : List ℕ,
      Resolved twoFiles.fromStr numericArgs.order earlierOrder ∧
      Resolved twoFiles.fromStr swappedArgs.order order ∧ packed.manifest = manifest ∧
      ∀ i id : ℕ, earlierOrder[i]? = some id → ∃ replaced, order[i]? = some replaced ∧
        packed.slot id = (swappedArgs.source twoFiles.disk twoFiles.openError).bytes replaced) := by
  obtain ⟨manifest,files,hold,-⟩ := result_of_blobOf blobOf_numeric
  have hserved := servedAfter_numeric
  rw [numericFiles, hold] at hserved
  obtain ⟨e,files',packed,h,hattach,hslot⟩ := of_servedAfter hserved
  exact ⟨manifest,files,e,files',packed,hold,h,hattach,hslot,failed_repack hold h rfl hattach⟩

/-- Experts that are neighbours in the order are read at once: whatever the sequence in which a batch
asks for them, one `preadv` that is not cut short fills every buffer, and no expert is read alone. -/
theorem neighbours_read_at_once (h : cmdRepack machine env args files = .ok manifest files') :
    ∃ order packed, Resolved machine.fromStr args.order order ∧
      (∀ openError blobPath manifestPath, maybeAttachPackedBlob files' openError (some blobPath)
        (some manifestPath) args.cfg.expertSize = .ok (some packed)) ∧
      ∀ {stripedPaths : ℕ} (env : Env) (ids : List ℕ) (batch : Batch stripedPaths (Fin ids.length))
        (p k : ℕ), ids.Perm ((order.drop p).take k) → 1 < ids.length → ids.length ≤ iovMaxSafe →
        batch.Sized args.cfg.expertSize.toNat → (env.transfers batch.vectored).failed = false →
        ids.length*args.cfg.expertSize.toNat ≤ (env.transfers batch.vectored).limit →
        ∃ left, readExpertsBatchPacked env packed ids batch =
            .ok (ids.length*args.cfg.expertSize.toNat) left ∧
          left.vectored = batch.vectored+1 ∧ left.reports = batch.reports ∧
          ∀ i, left.buffers i = (args.source machine.disk machine.openError).bytes (ids.get i) := by
  obtain ⟨hsize,order,horder,hpack⟩ := cmdRepack_ok h
  obtain ⟨hpacks,rfl,rfl⟩ := packExperts_ok hpack
  refine ⟨order,_,resolve_resolved horder,fun openError blobPath manifestPath =>
    attach_packed hpacks hsize openError blobPath manifestPath,?_⟩
  intro stripedPaths env ids batch p k hids hmany hcap hsized hpassed hlimit
  obtain ⟨total,left,hread,hvectored,hreports⟩ :=
    hpacks.read_at_once hsize env ids hids hmany hcap hsized hpassed hlimit
  have hall : ∀ id ∈ ids, id ∈ order :=
    fun id hid => List.mem_of_mem_drop (List.mem_of_mem_take (hids.mem_iff.mp hid))
  obtain ⟨e,batch',herror,-⟩ | ⟨batch',hok,hbuffers⟩ := hpacks.filled hsize env ids hall hsized
  · rw [herror] at hread
    cases hread
  · rw [hok] at hread
    cases hread
    exact ⟨left,hok,hvectored,hreports,hbuffers⟩

lemma parseOrderFile_swapped :
    parseOrderFile twoFiles.fromStr "1 # the hotter one\n0".toList = .ok [1,0] := by
  decide +kernel

theorem neighbours_read_at_once_swapped : ∃ (packed : PackedBlob) (left : Batch 1 (Fin 2)),
    readExpertsBatchPacked smoothPacking.reads packed [0,1] (.new ⟨.new 1,0,[]⟩ fun _ => [9,9]) =
      .ok 4 left ∧
    left.vectored = 1 ∧ left.reports = [] ∧ ∀ i, left.buffers i =
      (swappedArgs.source twoFiles.disk twoFiles.openError).bytes ([0,1].get i) := by
  obtain ⟨manifest,files',h,-⟩ := result_of_blobOf blobOf_swapped
  obtain ⟨order,packed,hresolved,-,hread⟩ := neighbours_read_at_once h
  have horder : order = [1,0] :=
    Except.ok.inj ((hresolved.listed _ _ rfl).symm.trans parseOrderFile_swapped)
  subst horder
  exact ⟨packed,hread smoothPacking.reads [0,1] (.new ⟨.new 1,0,[]⟩ fun _ => [9,9]) 0 2 (by decide)
    (by decide) (by decide) (fun _ => rfl) rfl (by decide)⟩

end Serving

end MicroExpertRouter.Packed
