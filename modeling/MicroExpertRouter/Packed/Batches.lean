import MicroExpertRouter.Breakers.Reads
import MicroExpertRouter.Packed.Coalesce

/-! Batches of packed experts: each run of adjacent slots is read by one `preadv` into the buffers
of its members, and one by one when that is not possible or falls short. -/
namespace MicroExpertRouter.Packed
open Breakers (Clock Host IoError Report)
open Extents

/-- `IOV_MAX_SAFE`. -/
def iovMaxSafe : ℕ := 512

/-- What a `preadv` does: it transfers at most so many bytes, and it may fail after that. -/
structure Transfer where
  failed : Bool
  limit : ℕ
  deriving DecidableEq, Repr

/-- What comes from outside, for each read in turn: the clock, the answers to the attempts of a read
of one expert, the bytes it leaves when it fails, and what each `preadv` does. -/
structure Env where
  clock : Clock
  attempts : ℕ → ℕ → Except IoError ℕ
  leaves : ℕ → ℕ
  transfers : ℕ → Transfer

variable {stripedPaths : ℕ} {ι : Type}

/-- The storage, the buffers of the requests, the reports of reads of one expert from the newest,
and the number of `preadv` so far. -/
structure Batch (stripedPaths : ℕ) (ι : Type) where
  host : Host stripedPaths
  buffers : ι → List UInt8
  reports : List (Report stripedPaths)
  vectored : ℕ

def Batch.new (host : Host stripedPaths) (buffers : ι → List UInt8) : Batch stripedPaths ι :=
  ⟨host,buffers,[],0⟩

abbrev BatchM (stripedPaths : ℕ) (ι : Type) := EStateM IoError (Batch stripedPaths ι)

/-- An id that is not packed gets an offset at which no read succeeds. -/
def PackedBlob.packedOffset (self : PackedBlob) (id : ℕ) : UInt64 :=
  ((self.entry id).map (·.offset)).getD (UInt64.ofNat (2^64-1))

/-- The total of two parts of a batch, one after the other. -/
def addReads (x y : BatchM stripedPaths ι ℕ) : BatchM stripedPaths ι ℕ := do
  let n ← x
  let m ← y
  return n+m

/-- The request for an id, with its slot. -/
def resolveOne (packed : PackedBlob) (request : ℕ × ι) : Except IoError (Request ι) :=
  let id := request.1
  match packed.entry id with
  | none => .error (.custom (.remaining "NotFound")
      s!"expert {id} is not present in the packed blob manifest")
  | some entry => .ok (id,request.2,entry)

def resolve (packed : PackedBlob) (requests : List (ℕ × ι)) :
    Except IoError (List (Request ι)) := requests.mapM (resolveOne packed)

/-- Ids with their indices. -/
def indexed (ids : List ℕ) : List (ℕ × Fin ids.length) :=
  (List.finRange ids.length).map fun i => (ids.get i,i)

/-- The batch that a read leaves, however it ends. -/
def stateOf : EStateM.Result IoError (Batch stripedPaths ι) ℕ → Batch stripedPaths ι
  | .ok _ batch => batch
  | .error _ batch => batch

variable [DecidableEq ι]

def Batch.fill (self : Batch stripedPaths ι) (idx : ι) (data : List UInt8) :
    Batch stripedPaths ι :=
  { self with buffers :=
      Function.update self.buffers idx (Extents.fill (self.buffers idx) data) }

/-- A read of one expert by `read_at_with_retries`. -/
def readExpert (env : Env) (packed : PackedBlob) (id : ℕ) (idx : ι) : BatchM stripedPaths ι ℕ :=
  fun batch =>
    let reads := batch.reports.length
    let off := (packed.packedOffset id).toNat
    let (report,host) := batch.host.serve env.clock
      ⟨id,(batch.buffers idx).length,env.attempts reads⟩
    let batch := { batch with host, reports := report :: batch.reports }
    match report.result with
    | .ok n => .ok n (batch.fill idx (read packed.file off n))
    | .error e => .error e (batch.fill idx (read packed.file off (env.leaves reads)))

/-- The members of a run one by one. -/
def readMembers (env : Env) (packed : PackedBlob) : List (ℕ × ι) → BatchM stripedPaths ι ℕ
  | [] => return 0
  | (id,idx) :: rest => addReads (readExpert env packed id idx) (readMembers env packed rest)

/-- `libc::preadv`: the bytes from an offset, in order into the buffers. A negative offset is an
error. -/
def preadv (env : Env) (packed : PackedBlob) (start : UInt64) (targets : List ι) :
    BatchM stripedPaths ι (Option ℕ) := fun batch =>
  let transfer := env.transfers batch.vectored
  let batch := { batch with vectored := batch.vectored+1 }
  if 2^63 ≤ start.toNat then .ok none batch
  else
    let room := (targets.map fun i => (batch.buffers i).length).sum
    let data := read packed.file start.toNat (min transfer.limit room)
    .ok (if transfer.failed then none else some data.length)
      { batch with buffers := scatter targets data batch.buffers }

/-- All members of a run are credited with a read. -/
def Batch.credit (self : Batch stripedPaths ι) (members : List (ℕ × ι)) : Batch stripedPaths ι :=
  { self with host := members.foldl (fun host m => host.noteReadSuccess m.1) self.host }

def readRun (env : Env) (packed : PackedBlob) (run : ContiguousRun ι) :
    BatchM stripedPaths ι ℕ := do
  if run.members.length = 1 ∨ iovMaxSafe < run.members.length then
    readMembers env packed run.members
  else
    let want := run.totalLen.toNat
    let n ← preadv env packed run.startOffset (run.members.map (·.2))
    if n = some want then
      modify fun batch => batch.credit run.members
      return want
    else readMembers env packed run.members

def readRuns (env : Env) (packed : PackedBlob) :
    List (ContiguousRun ι) → BatchM stripedPaths ι ℕ
  | [] => return 0
  | run :: rest => addReads (readRun env packed run) (readRuns env packed rest)

/-- The buffers are one for each id. -/
def readExpertsBatchPacked (env : Env) (packed : PackedBlob) (ids : List ℕ) :
    BatchM stripedPaths (Fin ids.length) ℕ :=
  match resolve packed (indexed ids) with
  | .error e => throw e
  | .ok requested => readRuns env packed (coalesceRuns requested)

end MicroExpertRouter.Packed
