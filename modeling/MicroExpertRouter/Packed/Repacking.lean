import MicroExpertRouter.ColdStart.Manifest
import MicroExpertRouter.Lib.Chunks
import MicroExpertRouter.Packed.Exactness
import MicroExpertRouter.Packed.Orders
import MicroExpertRouter.Packed.Validation

/-! Experts of one file each packed into a blob, of `io_provider.rs` and `main.rs`: batches that read the
files, the loop that packs their experts, and the commands that write a blob and attach it. -/
namespace MicroExpertRouter.Packed
open Breakers (Clock Host IoError Report)
open ColdStart (Disk expertPath)
open Extents

section Manifests

/-- Dense slots in the order. -/
def uniformEntries (expertSize : UInt64) : ℕ → List ℕ → KeyMap PackedEntry → KeyMap PackedEntry
  | _, [], entries => entries
  | i, id::order, entries =>
    let entry : PackedEntry := ⟨UInt64.ofNat i*expertSize,expertSize⟩
    uniformEntries expertSize (i+1) order (entries.upsert id entry fun _ => entry)

def PackedManifest.uniform (order : List ℕ) (expertSize blockAlign : UInt64) : PackedManifest :=
  let entries := uniformEntries expertSize 0 order .empty
  ⟨blockAlign,expertSize,entries.entries,order,entries.nodup⟩

end Manifests

section Sources

structure StorageConfig where
  expertSize : UInt64
  blockAlign : UInt64
  numExpertsPerLayer : Option ℕ
  deriving DecidableEq, Repr

/-- A storage with one file an expert: its directories and the disk, with the error of a file that
does not open. -/
structure Source where
  cfg : StorageConfig
  dirs : List String
  disk : Disk
  openError : String → IoError

/-- `fd_for`, which gives the content of the file. -/
def Source.fdFor (self : Source) (id : ℕ) : Except IoError (List UInt8) :=
  let path := expertPath self.disk self.dirs self.cfg.numExpertsPerLayer id
  match self.disk.content path with
  | some content => if self.disk.readable path then .ok content else .error (self.openError path)
  | none => .error (self.openError path)

/-- A `pread` gives no more than is asked for and than there is. -/
def available (file : List UInt8) (off len : ℕ) (answer : Except IoError ℕ) : Except IoError ℕ :=
  answer.map fun n => min n (min len (file.length-off))

variable {stripedPaths : ℕ} {ι : Type} [DecidableEq ι]

/-- A read of the file of an expert by `read_at_with_retries`. -/
def readFile (env : Env) (file : List UInt8) (id : ℕ) (idx : ι) : BatchM stripedPaths ι ℕ :=
  fun batch =>
    let reads := batch.reports.length
    let len := (batch.buffers idx).length
    let (report,host) := batch.host.serve env.clock
      ⟨id,len,fun attempt => available file 0 len (env.attempts reads attempt)⟩
    let batch := { batch with host, reports := report::batch.reports }
    match report.result with
    | .ok n => .ok n (batch.fill idx (read file 0 n))
    | .error e => .error e (batch.fill idx (read file 0 (env.leaves reads)))

/-- The scoped threads of a batch, in the order in which they read, with the result of each. -/
def readSlots (env : Env) (reads : ι → List UInt8 × ℕ) :
    List ι → (ι → Except IoError ℕ) → Batch stripedPaths ι →
      (ι → Except IoError ℕ) × Batch stripedPaths ι
  | [], results, batch => (results,batch)
  | idx::turns, results, batch =>
    match readFile env (reads idx).1 (reads idx).2 idx batch with
    | .ok n batch => readSlots env reads turns (Function.update results idx (.ok n)) batch
    | .error e batch => readSlots env reads turns (Function.update results idx (.error e)) batch

/-- The sum of the results by slot, or the first error. -/
def sumResults (results : ι → Except IoError ℕ) : List ι → Except IoError ℕ
  | [] => .ok 0
  | idx::slots => do
    let n ← results idx
    let m ← sumResults results slots
    return n+m

/-- `read_experts_batch` without a packed blob: the files are opened first. A thread that did not run
would have no result, and there is none. -/
def Source.readExpertsBatch (self : Source) (env : Env) (ids : List ℕ) (turns : List (Fin ids.length)) :
    BatchM stripedPaths (Fin ids.length) ℕ := fun batch =>
  match ids.mapM self.fdFor with
  | .error e => .error e batch
  | .ok files =>
    let (results,batch) := readSlots env (fun i : Fin ids.length => (files.getD i.val [],ids.get i)) turns
      (fun _ => .error (.custom .other "")) batch
    match sumResults results (List.finRange ids.length) with
    | .ok total => .ok total batch
    | .error e => .error e batch

end Sources

section Packing

/-- How writing the manifest goes: the file may not open, and a write that fails leaves no manifest. -/
inductive Saving
  | written
  | unopened (e : IoError)
  | cut (e : IoError)

/-- What comes from outside while experts are packed: the reads of the source, what acquired buffers
hold, the writes, and how much of the blob is in its file when the packing fails. -/
structure PackEnv where
  reads : Env
  created : Except IoError Unit
  acquired : ℕ → ℕ → UInt8
  writes : ℕ → Except IoError Unit
  synced : Except IoError Unit
  flushed : ℕ
  saving : Saving

/-- A file is no longer than an offset can be. -/
def fileTooLarge : IoError := .os (.remaining "FileTooLarge") 27

/-- The blob and its manifest on the disk. -/
structure PackedFiles where
  blob : Option (List UInt8)
  manifest : Option PackedManifest

/-- The source with one buffer, and the bytes that the writer has been given. -/
structure Packing where
  batch : Batch 0 Unit
  handed : List UInt8

def Packing.new : Packing := ⟨.new ⟨.new 0,0,[]⟩ fun _ => [],[]⟩

/-- A buffer of the pool, whose buffers have the size of an expert. -/
def acquireBuffer (source : Source) (env : PackEnv) (turn : ℕ) : List UInt8 :=
  (List.range source.cfg.expertSize.toNat).map (env.acquired turn)

/-- A turn of the loop: a buffer from the pool is filled and handed to the writer. -/
def packOne (source : Source) (env : PackEnv) (id : ℕ) : EStateM IoError Packing Unit := fun packing =>
  let turn := packing.batch.reports.length
  let batch := { packing.batch with buffers := fun _ => acquireBuffer source env turn }
  match source.fdFor id with
  | .error e => .error e packing
  | .ok file =>
    match readFile env.reads file id () batch with
    | .error e batch => .error e ⟨batch,packing.handed⟩
    | .ok _ batch =>
      let packing : Packing := ⟨batch,packing.handed++batch.buffers ()⟩
      match env.writes turn with
      | .error e => .error e packing
      | .ok () => .ok () packing

def duplicateId (id : ℕ) : IoError :=
  .custom (.remaining "InvalidInput") s!"duplicate expert id {id} in packed order"

/-- The experts that are left, and those that have been seen. -/
def packAll (source : Source) (env : PackEnv) (seen : List ℕ) :
    List ℕ → EStateM IoError Packing Unit
  | [] => return ()
  | id::order =>
    if id ∈ seen then throw (duplicateId id)
    else do
      packOne source env id
      packAll source env (id::seen) order

/-- `flush`, `into_inner` and `sync_all`. -/
def finishBlob (env : PackEnv) (handed : List UInt8) : Except IoError Unit :=
  if isizeMax<handed.length then .error fileTooLarge else env.synced

def packExperts (source : Source) (env : PackEnv) (order : List ℕ) :
    EStateM IoError PackedFiles PackedManifest := fun files =>
  match env.created with
  | .error e => .error e files
  | .ok () =>
    match packAll source env [] order .new with
    | .error e packing => .error e { files with blob := some (packing.handed.take env.flushed) }
    | .ok () packing =>
      match finishBlob env packing.handed with
      | .error e => .error e { files with blob := some (packing.handed.take env.flushed) }
      | .ok () =>
        let manifest := PackedManifest.uniform order source.cfg.expertSize source.cfg.blockAlign
        match env.saving with
        | .written => .ok manifest ⟨some packing.handed,some manifest⟩
        | .unopened e => .error e { files with blob := some packing.handed }
        | .cut e => .error e ⟨some packing.handed,none⟩

end Packing

section Commands

/-- The errors of the commands. -/
inductive CommandError
  | message (text : String)
  | io (e : IoError)
  | validation (e : IoError)
  | panic (text : String)

structure RepackArgs where
  order : OrderArgs
  dataDir : String
  dataDirExists : Bool
  cfg : StorageConfig

/-- The new storage of a directory. -/
def RepackArgs.source (self : RepackArgs) (disk : Disk) (openError : String → IoError) : Source :=
  ⟨self.cfg,[self.dataDir],disk,openError⟩

/-- The checks of the arguments. -/
def RepackArgs.check (self : RepackArgs) : Except CommandError Unit :=
  let blockAlign := self.cfg.blockAlign
  let expertSize := self.cfg.expertSize
  if blockAlign = 0 ∨ ¬blockAlign.toNat.isPowerOfTwo then
    .error (.message s!"--block-align ({blockAlign}) must be a positive power of two")
  else if expertSize % blockAlign ≠ 0 then
    .error (.message
      s!"--expert-size ({expertSize}) must be a multiple of --block-align ({blockAlign})")
  else if ¬self.dataDirExists then
    .error (.message s!"data dir {self.dataDir} does not exist")
  else .ok ()

/-- Where the files of the experts are, and how an order file with an array is read. -/
structure Machine where
  disk : Disk
  openError : String → IoError
  fromStr : List Char → Except String (List ℕ)

/-- `cmd_repack`. A pool cannot have buffers of no bytes. -/
def cmdRepack (machine : Machine) (env : PackEnv) (args : RepackArgs) :
    EStateM CommandError PackedFiles PackedManifest := fun files =>
  match args.check with
  | .error e => .error e files
  | .ok () =>
    match args.order.resolve machine.fromStr with
    | .error text => .error (.message text) files
    | .ok order =>
      if args.cfg.expertSize = 0 then .error (.panic "buffer size must be > 0") files
      else
        match packExperts (args.source machine.disk machine.openError) env order files with
        | .ok manifest files => .ok manifest files
        | .error e files => .error (.io e) files

/-- `PackedBlob::open`. -/
def PackedFiles.openBlob (self : PackedFiles) (openError : String → IoError)
    (blobPath manifestPath : String) : Except IoError PackedBlob :=
  match self.manifest, self.blob with
  | none, _ => .error (openError manifestPath)
  | some _, none => .error (openError blobPath)
  | some manifest, some file => do
    validateBlob manifest blobPath (.ok (UInt64.ofNat file.length))
    return ⟨file,manifest⟩

/-- `maybe_attach_packed_blob`, which gives the blob to attach. -/
def maybeAttachPackedBlob (files : PackedFiles) (openError : String → IoError)
    (packedBlob packedManifest : Option String) (expertSize : UInt64) :
    Except CommandError (Option PackedBlob) :=
  match packedBlob, packedManifest with
  | some blobPath, some manifestPath => do
    let blob ← (files.openBlob openError blobPath manifestPath).mapError .io
    (validateBlob blob.manifest blobPath (.ok (UInt64.ofNat blob.file.length))).mapError .validation
    let slot := blob.manifest.expertSize
    if slot ≠ expertSize then
      throw (.message (s!"packed manifest expert_size ({slot}) != expert_size ({expertSize}); "++
        "re-run `repack` with the matching --expert-size"))
    else return some blob
  | some _, none => .error (.message
      "both packed_blob and packed_manifest must be set to enable the packed layout")
  | none, some _ => .error (.message
      "both packed_blob and packed_manifest must be set to enable the packed layout")
  | none, none => .ok none

end Commands

section Answers
variable {stripedPaths : ℕ} {clock : Clock} {call : Breakers.ReadCall} {host host' : Host stripedPaths}
  {n : ℕ}

/-- A step that returns, and what follows it. -/
lemma run_bind_eq_ok {ε σ α β : Type} {x : EStateM ε σ α} {f : α → EStateM ε σ β} {s s' : σ} {b : β}
    (h : (x >>= f) s = .ok b s') : ∃ a s'', x s = .ok a s'' ∧ f a s'' = .ok b s' := by
  cases hx : x s with
  | ok a s'' =>
    rw [run_bind_ok hx] at h
    exact ⟨a,s'',rfl,h⟩
  | error e s'' =>
    rw [run_bind_error hx] at h
    cases h

lemma failRead_ne_ok {id : ℕ} {err : IoError} :
    Breakers.failRead clock id err host ≠ .ok n host' := by
  obtain ⟨e,he⟩ := @Breakers.failRead_eq _ clock host id err
  rw [he]
  intro h
  cases h

/-- What the attempts return is the answer to one of them. -/
lemma attemptReads_answered {remaining backoff : ℕ} {lastErr : Option IoError}
    (h : Breakers.attemptReads clock call remaining backoff lastErr host = .ok n host') :
    ∃ attempt, call.attempts attempt = .ok n := by
  induction remaining generalizing backoff lastErr host with
  | zero =>
    rw [Breakers.attemptReads] at h
    exact absurd h failRead_ne_ok
  | succ remaining ih =>
    cases hattempt : call.attempts (Breakers.storageRetryAttempts-(remaining+1)) with
    | ok m =>
      simp only [Breakers.attemptReads, Breakers.modify_bind, hattempt] at h
      split_ifs at h with hm
      · cases h
        exact ⟨_,hattempt⟩
      · exact absurd h failRead_ne_ok
    | error e =>
      simp only [Breakers.attemptReads, Breakers.modify_bind, hattempt] at h
      split_ifs at h
      · exact ih h
      · exact ih h
      · exact absurd h failRead_ne_ok

lemma serve_answered (h : (host.serve clock call).1.result = .ok n) :
    ∃ attempt, call.attempts attempt = .ok n := by
  unfold Host.serve at h
  cases hread : Breakers.readAtWithRetries clock call { host with events := [] } with
  | error e host' =>
    rw [hread] at h
    cases h
  | ok m host' =>
    rw [hread] at h
    obtain rfl : m = n := Except.ok.inj h
    unfold Breakers.readAtWithRetries at hread
    obtain ⟨_,_,_,hread⟩ := run_bind_eq_ok hread
    obtain ⟨_,_,_,hread⟩ := run_bind_eq_ok hread
    exact attemptReads_answered hread

end Answers

section FileReads
variable {stripedPaths : ℕ} {ι : Type} [DecidableEq ι] {batch batch' : Batch stripedPaths ι} {env : Env}
  {file : List UInt8} {id n : ℕ} {idx : ι}

/-- A read of a file that returns has filled the buffer from the file. -/
lemma readFile_ok (h : readFile env file id idx batch = .ok n batch') :
    n = (batch.buffers idx).length ∧ n ≤ file.length ∧
      batch'.buffers = Function.update batch.buffers idx (read file 0 n) := by
  unfold readFile at h
  dsimp only at h
  have hlen := @Breakers.serve_result _ env.clock batch.host ⟨id,(batch.buffers idx).length,fun attempt =>
    available file 0 (batch.buffers idx).length (env.attempts batch.reports.length attempt)⟩
  have hanswered := @serve_answered _ env.clock ⟨id,(batch.buffers idx).length,fun attempt =>
    available file 0 (batch.buffers idx).length (env.attempts batch.reports.length attempt)⟩ batch.host
  generalize batch.host.serve env.clock _ = served at hlen hanswered h
  obtain ⟨report,host⟩ := served
  dsimp only at hlen hanswered h
  cases hresult : report.result with
  | error e =>
    rw [hresult] at h
    cases h
  | ok m =>
    rw [hresult] at h
    cases h
    obtain rfl := hlen hresult
    obtain ⟨attempt,hattempt⟩ := hanswered hresult
    have hle : (batch.buffers idx).length ≤ file.length := by
      unfold available at hattempt
      cases hanswer : env.attempts batch.reports.length attempt with
      | error e =>
        rw [hanswer] at hattempt
        cases hattempt
      | ok k =>
        rw [hanswer] at hattempt
        have hmin : min k (min (batch.buffers idx).length (file.length-0)) =
          (batch.buffers idx).length := Except.ok.inj hattempt
        omega
    refine ⟨rfl,hle,?_⟩
    rw [Batch.fill]
    dsimp only
    rw [fill_of_length_eq (length_read (by omega))]

/-- Whatever a read of a file does, it leaves the other buffers. -/
lemma readFile_frame {i : ι} (hne : i ≠ idx) (result : EStateM.Result IoError (Batch stripedPaths ι) ℕ)
    (h : readFile env file id idx batch = result) :
    (∀ n batch', result = .ok n batch' → batch'.buffers i = batch.buffers i) ∧
      ∀ e batch', result = .error e batch' → batch'.buffers i = batch.buffers i := by
  subst h
  unfold readFile
  dsimp only
  generalize batch.host.serve env.clock _ = served
  obtain ⟨report,host⟩ := served
  dsimp only
  cases report.result with
  | ok n =>
    refine ⟨fun m batch' h => ?_,fun e batch' h => (by cases h)⟩
    cases h
    exact Function.update_of_ne hne _ _
  | error e =>
    refine ⟨fun m batch' h => (by cases h),fun e' batch' h => ?_⟩
    cases h
    exact Function.update_of_ne hne _ _

/-- Each thread fills the buffer of its slot: by induction on the threads in their order. -/
lemma readSlots_ok {reads : ι → List UInt8 × ℕ} {turns : List ι} {results : ι → Except IoError ℕ}
    (hturns : turns.Nodup) :
    (∀ idx ∈ turns, ∀ n, (readSlots env reads turns results batch).1 idx = .ok n →
      n = (batch.buffers idx).length ∧ n ≤ (reads idx).1.length ∧
        (readSlots env reads turns results batch).2.buffers idx = read (reads idx).1 0 n) ∧
    ∀ idx, idx ∉ turns → (readSlots env reads turns results batch).1 idx = results idx ∧
      (readSlots env reads turns results batch).2.buffers idx = batch.buffers idx := by
  induction turns generalizing results batch with
  | nil => exact ⟨fun idx hidx => absurd hidx List.not_mem_nil,fun _ _ => ⟨rfl,rfl⟩⟩
  | cons turn turns ih =>
    obtain ⟨hfresh,hturns⟩ := List.nodup_cons.mp hturns
    cases hread : readFile env (reads turn).1 (reads turn).2 turn batch with
    | ok m batch' =>
      obtain ⟨hmine,hothers⟩ := @ih batch' (Function.update results turn (.ok m)) hturns
      rw [readSlots, hread]
      dsimp only
      refine ⟨fun idx hidx n hn => ?_,fun idx hidx => ?_⟩
      · obtain rfl | hidx := List.mem_cons.mp hidx
        · obtain ⟨hresult,hbuffer⟩ := hothers idx hfresh
          rw [hresult, Function.update_self] at hn
          obtain rfl := Except.ok.inj hn
          obtain ⟨hm,hlen,hbuffers⟩ := readFile_ok hread
          exact ⟨hm,hlen,by rw [hbuffer, hbuffers, Function.update_self]⟩
        · have hne : idx ≠ turn := fun heq => hfresh (heq ▸ hidx)
          have hsame := (readFile_frame hne _ hread).1 m batch' rfl
          rw [← hsame]
          exact hmine idx hidx n hn
      · obtain ⟨hne,hidx⟩ := not_or.mp (List.mem_cons.not.mp hidx)
        obtain ⟨hresult,hbuffer⟩ := hothers idx hidx
        rw [hresult, hbuffer, Function.update_of_ne hne]
        exact ⟨rfl,(readFile_frame hne _ hread).1 m batch' rfl⟩
    | error e batch' =>
      obtain ⟨hmine,hothers⟩ := @ih batch' (Function.update results turn (.error e)) hturns
      rw [readSlots, hread]
      dsimp only
      refine ⟨fun idx hidx n hn => ?_,fun idx hidx => ?_⟩
      · obtain rfl | hidx := List.mem_cons.mp hidx
        · rw [(hothers idx hfresh).1, Function.update_self] at hn
          cases hn
        · have hne : idx ≠ turn := fun heq => hfresh (heq ▸ hidx)
          have hsame := (readFile_frame hne _ hread).2 e batch' rfl
          rw [← hsame]
          exact hmine idx hidx n hn
      · obtain ⟨hne,hidx⟩ := not_or.mp (List.mem_cons.not.mp hidx)
        obtain ⟨hresult,hbuffer⟩ := hothers idx hidx
        rw [hresult, hbuffer, Function.update_of_ne hne]
        exact ⟨rfl,(readFile_frame hne _ hread).2 e batch' rfl⟩

end FileReads

lemma sumResults_ok {ι : Type} {results : ι → Except IoError ℕ} {slots : List ι} {total size : ℕ}
    (h : sumResults results slots = .ok total)
    (hsize : ∀ idx ∈ slots, ∀ n, results idx = .ok n → n = size) :
    total = slots.length*size ∧ ∀ idx ∈ slots, results idx = .ok size := by
  induction slots generalizing total with
  | nil =>
    obtain rfl := Except.ok.inj h
    simp
  | cons idx slots ih =>
    obtain ⟨hfirst,hrest⟩ := List.forall_mem_cons.mp hsize
    obtain ⟨n,hn,h⟩ := bind_eq_ok.mp h
    obtain ⟨m,hm,h⟩ := bind_eq_ok.mp h
    obtain rfl := Except.ok.inj h
    obtain ⟨rfl,hall⟩ := ih hm hrest
    obtain rfl := hfirst n hn
    refine ⟨?_,List.forall_mem_cons.mpr ⟨hn,hall⟩⟩
    rw [List.length_cons, Nat.succ_mul, Nat.add_comm]

/-- The bytes that a storage serves for an expert: so many from the start of its file. -/
def Source.bytes (self : Source) (id : ℕ) : List UInt8 :=
  match self.fdFor id with
  | .ok file => read file 0 self.cfg.expertSize.toNat
  | .error _ => []

/-- The file of an expert opens and is long enough. -/
def Source.Has (self : Source) (id : ℕ) : Prop :=
  ∃ file, self.fdFor id = .ok file ∧ self.cfg.expertSize.toNat ≤ file.length

section Packed
variable {source : Source} {env : PackEnv} {packing packing' : Packing} {order seen : List ℕ} {id : ℕ}

lemma Source.Has.length_bytes (h : source.Has id) :
    (source.bytes id).length = source.cfg.expertSize.toNat := by
  obtain ⟨file,hfile,hlen⟩ := h
  rw [Source.bytes, hfile]
  exact length_read (by omega)

/-- What a turn can do: pack the expert, fail to read it, or read it and fail to write it. -/
inductive OnePacked (source : Source) (id : ℕ) (handed : List UInt8) :
    EStateM.Result IoError Packing Unit → Prop
  | packed (batch : Batch 0 Unit) (hhas : source.Has id) :
      OnePacked source id handed (.ok () ⟨batch,handed++source.bytes id⟩)
  | unread (e : IoError) (batch : Batch 0 Unit) : OnePacked source id handed (.error e ⟨batch,handed⟩)
  | unwritten (e : IoError) (batch : Batch 0 Unit) (hhas : source.Has id) :
      OnePacked source id handed (.error e ⟨batch,handed++source.bytes id⟩)

lemma packOne_packed : OnePacked source id packing.handed (packOne source env id packing) := by
  unfold packOne
  dsimp only
  cases hfile : source.fdFor id with
  | error e => exact .unread e packing.batch
  | ok file =>
    dsimp only
    generalize hbatch : Batch.mk packing.batch.host (fun _ : Unit => acquireBuffer source env
      packing.batch.reports.length) packing.batch.reports packing.batch.vectored = batch
    cases hread : readFile env.reads file id () batch with
    | error e batch' => exact .unread e batch'
    | ok n batch' =>
      dsimp only
      have hsize : (batch.buffers ()).length = source.cfg.expertSize.toNat := by
        rw [← hbatch]
        simp [acquireBuffer]
      obtain ⟨rfl,hlen,hbuffers⟩ := readFile_ok hread
      rw [hsize] at hlen hbuffers
      have hbytes : batch'.buffers () = source.bytes id := by
        rw [hbuffers, Function.update_self, Source.bytes, hfile]
      rw [hbytes]
      cases env.writes packing.batch.reports.length with
      | error e => exact .unwritten e batch' ⟨file,hfile,hlen⟩
      | ok u => exact .packed batch' ⟨file,hfile,hlen⟩

lemma packOne_ok (h : packOne source env id packing = .ok () packing') :
    source.Has id ∧ packing'.handed = packing.handed++source.bytes id := by
  have hone := @packOne_packed source env packing id
  rw [h] at hone
  cases hone with
  | packed batch hhas => exact ⟨hhas,rfl⟩

lemma packOne_error {e : IoError} (h : packOne source env id packing = .error e packing') :
    packing'.handed = packing.handed ∨
      source.Has id ∧ packing'.handed = packing.handed++source.bytes id := by
  have hone := @packOne_packed source env packing id
  rw [h] at hone
  cases hone with
  | unread e batch => exact .inl rfl
  | unwritten e batch hhas => exact .inr ⟨hhas,rfl⟩

/-- The slots of the blob are the bytes of the experts in the order: by induction on the order. -/
lemma packAll_ok (h : packAll source env seen order packing = .ok () packing') :
    order.Nodup ∧ (∀ id ∈ order, id ∉ seen ∧ source.Has id) ∧
      packing'.handed = packing.handed++(order.map source.bytes).flatten := by
  induction order generalizing seen packing with
  | nil =>
    cases h
    simp
  | cons id order ih =>
    rw [packAll] at h
    split_ifs at h with hseen
    · cases h
    obtain ⟨_,next,hone,hrest⟩ := run_bind_eq_ok h
    obtain ⟨hhas,hhanded⟩ := packOne_ok hone
    obtain ⟨hnodup,hall,hflat⟩ := ih hrest
    have hfresh : id ∉ order := fun hmem => (hall id hmem).1 List.mem_cons_self
    refine ⟨List.nodup_cons.mpr ⟨hfresh,hnodup⟩,List.forall_mem_cons.mpr ⟨⟨hseen,hhas⟩,fun other hother =>
      ⟨fun hmem => (hall other hother).1 (List.mem_cons_of_mem _ hmem),(hall other hother).2⟩⟩,?_⟩
    rw [hflat, hhanded, List.map_cons, List.flatten_cons, List.append_assoc]

/-- A loop that fails has handed over the experts of the first places: by induction on the order. -/
lemma packAll_error {e : IoError} (h : packAll source env seen order packing = .error e packing') :
    ∃ taken, taken <+: order ∧ (∀ id ∈ taken, source.Has id) ∧
      packing'.handed = packing.handed++(taken.map source.bytes).flatten := by
  induction order generalizing seen packing with
  | nil => cases h
  | cons id order ih =>
    rw [packAll] at h
    split_ifs at h with hseen
    · cases h
      exact ⟨[],List.nil_prefix,by simp,by simp⟩
    cases hone : packOne source env id packing with
    | error e' next =>
      rw [run_bind_error hone] at h
      cases h
      obtain hsame | ⟨hhas,hmore⟩ := packOne_error hone
      · exact ⟨[],List.nil_prefix,by simp,by simp [hsame]⟩
      · exact ⟨[id],⟨order,rfl⟩,by simp [hhas],by simp [hmore]⟩
    | ok u next =>
      rw [run_bind_ok hone] at h
      obtain ⟨hhas,hhanded⟩ := packOne_ok hone
      obtain ⟨taken,hbegins,hall,hflat⟩ := ih h
      refine ⟨id::taken,List.cons_prefix_cons.mpr ⟨rfl,hbegins⟩,List.forall_mem_cons.mpr ⟨hhas,hall⟩,?_⟩
      rw [hflat, hhanded, List.map_cons, List.flatten_cons, List.append_assoc]

/-- The bytes of the experts of an order, one after the other. -/
def Source.blob (self : Source) (order : List ℕ) : List UInt8 := (order.map self.bytes).flatten

/-- An order can be packed: its experts are distinct, and together they fit in a file. -/
structure Packs (source : Source) (order : List ℕ) : Prop where
  nodup : order.Nodup
  has : ∀ id ∈ order, source.Has id
  fits : (source.blob order).length ≤ isizeMax

lemma packExperts_ok {files files' : PackedFiles} {manifest : PackedManifest}
    (h : packExperts source env order files = .ok manifest files') : Packs source order ∧
      manifest = .uniform order source.cfg.expertSize source.cfg.blockAlign ∧
      files' = ⟨some (source.blob order),some manifest⟩ := by
  unfold packExperts at h
  split at h
  · cases h
  · cases hpacked : packAll source env [] order .new with
    | error e packing =>
      rw [hpacked] at h
      cases h
    | ok u packing =>
      rw [hpacked] at h
      dsimp only at h
      obtain ⟨hnodup,hall,hhanded⟩ := packAll_ok hpacked
      have hblob : packing.handed = source.blob order := hhanded
      rw [hblob] at h
      cases hfinish : finishBlob env (source.blob order) with
      | error e =>
        rw [hfinish] at h
        cases h
      | ok u =>
        rw [hfinish] at h
        dsimp only at h
        have hfits : (source.blob order).length ≤ isizeMax := by
          unfold finishBlob at hfinish
          split_ifs at hfinish with hlong
          exact Nat.not_lt.mp hlong
        cases hsaving : env.saving with
        | written =>
          rw [hsaving] at h
          cases h
          exact ⟨⟨hnodup,fun id hid => (hall id hid).2,hfits⟩,rfl,rfl⟩
        | unopened e =>
          rw [hsaving] at h
          cases h
        | cut e =>
          rw [hsaving] at h
          cases h

/-- A packing that fails leaves the files, or no manifest, or what was there with a blob that begins
with the experts of the first places. -/
lemma packExperts_error {files files' : PackedFiles} {e : IoError}
    (h : packExperts source env order files = .error e files') :
    files' = files ∨ files'.manifest = none ∨ ∃ taken flushed, taken <+: order ∧
      (∀ id ∈ taken, source.Has id) ∧
      files' = { files with blob := some ((source.blob taken).take flushed) } := by
  unfold packExperts at h
  split at h
  · cases h
    exact .inl rfl
  · cases hpacked : packAll source env [] order .new with
    | error e' packing =>
      rw [hpacked] at h
      cases h
      obtain ⟨taken,hbegins,hall,hhanded⟩ := packAll_error hpacked
      have hblob : packing.handed = source.blob taken := hhanded
      refine .inr (.inr ⟨taken,env.flushed,hbegins,hall,?_⟩)
      rw [hblob]
    | ok u packing =>
      rw [hpacked] at h
      dsimp only at h
      obtain ⟨-,hall,hhanded⟩ := packAll_ok hpacked
      have hblob : packing.handed = source.blob order := hhanded
      have hhas : ∀ id ∈ order, source.Has id := fun id hid => (hall id hid).2
      rw [hblob] at h
      cases hfinish : finishBlob env (source.blob order) with
      | error e' =>
        rw [hfinish] at h
        cases h
        exact .inr (.inr ⟨order,env.flushed,List.prefix_rfl,hhas,rfl⟩)
      | ok u =>
        rw [hfinish] at h
        dsimp only at h
        cases hsaving : env.saving with
        | written =>
          rw [hsaving] at h
          cases h
        | unopened e' =>
          rw [hsaving] at h
          cases h
          refine .inr (.inr ⟨order,(source.blob order).length,List.prefix_rfl,hhas,?_⟩)
          rw [List.take_length]
        | cut e' =>
          rw [hsaving] at h
          cases h
          exact .inr (.inl rfl)

end Packed

end MicroExpertRouter.Packed
