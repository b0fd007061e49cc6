import MicroExpertRouter.Lib.Programs

/-! The io_uring backend of `io_uring_storage.rs`: the reactor thread that alone owns the ring, and
the callers that send it batches of reads over a channel and take their buffers back with the reply.
The drive completes reads at any time; an operation that awaits may also be cancelled. -/
namespace MicroExpertRouter.IoUring

/-- A registered buffer of the pool, and its address. -/
abbrev Buffer : Type := ℕ

/-- One read that is ready to be submitted. The descriptor of an expert's file stands for the
expert. -/
structure Prepared where
  fd : ℕ
  ptr : Buffer
  bufIdx : ℕ
  expertId : ℕ
  deriving DecidableEq, Repr

/-- The oneshot and the cell that keeps the buffers alive have the number of the request. -/
structure ReactorRequest where
  prepared : List Prepared
  len : ℕ
  reply : ℕ
  keepAlive : ℕ
  deriving DecidableEq, Repr

/-- `opcode::ReadFixed`. -/
structure Sqe where
  fd : ℕ
  ptr : Buffer
  len : ℕ
  bufIdx : ℕ
  userData : ℕ
  deriving DecidableEq, Repr

/-- A completion. Only the user data of the entry that it answers is visible. -/
structure Cqe where
  entry : Sqe
  result : ℤ
  deriving DecidableEq, Repr

def Cqe.userData (self : Cqe) : ℕ := self.entry.userData

/-- The messages of the backend; `os` is what the system reports. -/
inductive IoError
  | os (code : ℕ)
  | refusedPushRetries
  | noSqesPushed
  | partiallySubmitted (error : IoError)
  | readFailed (expertId code : ℕ)
  | shortRead (expertId got expected : ℕ)
  | submitAndWaitFailed (code : ℕ)
  | notRegistered
  | channelClosed
  | reactorPanicked
  | lostOwnership
  deriving DecidableEq, Repr

inductive TryRecvError
  | empty
  | disconnected
  deriving DecidableEq, Repr

/-- The cell of a request that its caller and the reactor share: who still has his `Arc`, and the
buffers as long as nobody took them. -/
structure Shared where
  caller : Bool
  reactor : Bool
  buffers : Option (List Buffer)
  deriving DecidableEq, Repr

/-- The buffers that the cell keeps. -/
def Shared.kept (self : Shared) : List Buffer :=
  if self.caller || self.reactor then self.buffers.getD [] else []

inductive Oneshot
  | waiting
  | sent (result : Except IoError ℕ)
  | dropped

/-- What the reactor, the callers and the drive share. All requests ever made are recorded, and
`faults` counts the calls into the ring that failed. What a buffer holds is the expert whose bytes
these are, or nothing of use. -/
structure Backend where
  free : List Buffer
  content : Buffer → Option ℕ
  requests : List ReactorRequest
  shared : ℕ → Shared
  replies : ℕ → Oneshot
  channel : List ReactorRequest
  depth : ℕ
  closed : Bool
  queued : List Sqe
  serving : List Sqe
  completed : List Cqe
  faults : ℕ

inductive Op
  | push (sqe : Sqe)
  | submit
  | waitFor (want : ℕ)
  | nextCompletion
  | blockingRecv
  | tryRecv
  | reply (oneshot : ℕ) (result : Except IoError ℕ)
  | dropKeepAlive (owner : ℕ)
  | tryAcquire
  | fdFor (id : ℕ)
  | newRequest (prepared : List Prepared) (len : ℕ)
  | send (request : ReactorRequest)
  | receive (oneshot : ℕ)
  | recover (owner : ℕ)
  | dropCaller (owner : ℕ)
  | dropBuffer (buffer : Buffer)
  | compute (experts : List (ℕ × Buffer))
  | close

/-- What an operation answers. Where it awaits, nothing when it is cancelled. -/
@[reducible] def Answer : Op → Type
  | .push _ => Bool
  | .submit => Except ℕ ℕ
  | .waitFor _ => Except ℕ Unit
  | .nextCompletion => Option Cqe
  | .blockingRecv => Option ReactorRequest
  | .tryRecv => Except TryRecvError ReactorRequest
  | .reply _ _ => Unit
  | .dropKeepAlive _ => Unit
  | .tryAcquire => Option Buffer
  | .fdFor _ => Except IoError ℕ
  | .newRequest _ _ => ReactorRequest
  | .send _ => Option (Except Unit Unit)
  | .receive _ => Option (Except Unit (Except IoError ℕ))
  | .recover _ => Option (List Buffer)
  | .dropCaller _ => Unit
  | .dropBuffer _ => Unit
  | .compute _ => Unit
  | .close => Unit

/-- What the programs do not decide: which reads the drive completes before the operation and with
what result, whether the operation fails, and whether an await goes on. -/
structure Choice where
  completions : List (ℕ × ℤ)
  fails : Option ℕ
  goesOn : Bool

namespace Backend

/-- The drive completes a read: it never returns more than was asked for, and only a full read fills
the buffer. -/
def complete (self : Backend) (completion : ℕ × ℤ) : Backend :=
  match self.serving[completion.1]? with
  | none => self
  | some entry =>
    let result := min completion.2 entry.len
    { self with
      serving := self.serving.eraseIdx completion.1
      completed := self.completed++[⟨entry,result⟩]
      content := Function.update self.content entry.ptr
        (if result = entry.len then some entry.fd else none) }

def faulted (self : Backend) : Backend := { self with faults := self.faults+1 }

def push (self : Backend) (sqe : Sqe) (fails : Option ℕ) : Bool × Backend :=
  match fails with
  | some _ => (false,self.faulted)
  | none => (true,{ self with queued := self.queued++[sqe] })

/-- Hands everything that is queued over to the kernel. -/
def submit (self : Backend) (fails : Option ℕ) : Except ℕ ℕ × Backend :=
  match fails with
  | some code => (.error code,self.faulted)
  | none => (.ok self.queued.length,
      { self with queued := [], serving := self.serving++self.queued })

def waitFor (self : Backend) (want : ℕ) (fails : Option ℕ) : Option (Except ℕ Unit × Backend) :=
  match fails with
  | some code => some (.error code,self.faulted)
  | none => if want ≤ self.completed.length then some (.ok (),self) else none

def nextCompletion (self : Backend) : Option Cqe × Backend :=
  match self.completed with
  | [] => (none,self)
  | cqe::completed => (some cqe,{ self with completed := completed })

def blockingRecv (self : Backend) : Option (Option ReactorRequest × Backend) :=
  match self.channel with
  | request::channel => some (some request,{ self with channel := channel })
  | [] => if self.closed then some (none,self) else none

def tryRecv (self : Backend) : Except TryRecvError ReactorRequest × Backend :=
  match self.channel with
  | request::channel => (.ok request,{ self with channel := channel })
  | [] => (.error (if self.closed then .disconnected else .empty),self)

def setReply (self : Backend) (oneshot : ℕ) (state : Oneshot) : Backend :=
  { self with replies := Function.update self.replies oneshot state }

/-- One `Arc` of a cell is dropped; what nobody keeps any more goes back to the pool. -/
def setShared (self : Backend) (owner : ℕ) (cell : Shared) : Backend :=
  { self with
    shared := Function.update self.shared owner cell
    free := if cell.caller || cell.reactor then self.free
      else (self.shared owner).kept++self.free }

def dropKeepAlive (self : Backend) (owner : ℕ) : Backend :=
  self.setShared owner { self.shared owner with reactor := false }

def dropCaller (self : Backend) (owner : ℕ) : Backend :=
  self.setShared owner { self.shared owner with caller := false }

def tryAcquire (self : Backend) : Option Buffer × Backend :=
  match self.free with
  | [] => (none,self)
  | buffer::free => (some buffer,{ self with free := free })

/-- The file of an expert, open already or opened now. -/
def fdFor (self : Backend) (id : ℕ) (fails : Option ℕ) : Except IoError ℕ × Backend :=
  match fails with
  | some code => (.error (.os code),self)
  | none => (.ok id,self)

/-- The buffers move into a cell with two `Arc`s. -/
def newRequest (self : Backend) (prepared : List Prepared) (len : ℕ) : ReactorRequest × Backend :=
  let number := self.requests.length
  let request : ReactorRequest := ⟨prepared,len,number,number⟩
  (request,{ self with
    requests := self.requests++[request]
    shared := Function.update self.shared number ⟨true,true,some (prepared.map Prepared.ptr)⟩
    replies := Function.update self.replies number .waiting })

/-- A request that is not sent is dropped, with its half of the oneshot and its `Arc`. -/
def dropRequest (self : Backend) (request : ReactorRequest) : Backend :=
  (self.setReply request.reply .dropped).dropKeepAlive request.keepAlive

/-- Waits for room in the channel. -/
def send (self : Backend) (request : ReactorRequest) (goesOn : Bool) :
    Option (Option (Except Unit Unit) × Backend) :=
  if !goesOn then some (none,self.dropRequest request)
  else if self.closed then some (some (.error ()),self.dropRequest request)
  else if self.channel.length<self.depth then
    some (some (.ok ()),{ self with channel := self.channel++[request] })
  else none

def receive (self : Backend) (oneshot : ℕ) (goesOn : Bool) :
    Option (Option (Except Unit (Except IoError ℕ)) × Backend) :=
  if !goesOn then some (none,self)
  else match self.replies oneshot with
    | .waiting => none
    | .sent result => some (some (.ok result),self)
    | .dropped => some (some (.error ()),self)

/-- `shared.lock().take()`. -/
def recover (self : Backend) (owner : ℕ) : Option (List Buffer) × Backend :=
  ((self.shared owner).buffers,{ self with
    shared := Function.update self.shared owner { self.shared owner with buffers := none } })

/-- One operation. Nothing when it waits. -/
def perform (self : Backend) : (op : Op) → Choice → Option (Answer op × Backend)
  | .push sqe, choice => some (self.push sqe choice.fails)
  | .submit, choice => some (self.submit choice.fails)
  | .waitFor want, choice => self.waitFor want choice.fails
  | .nextCompletion, _ => some self.nextCompletion
  | .blockingRecv, _ => self.blockingRecv
  | .tryRecv, _ => some self.tryRecv
  | .reply oneshot result, _ => some ((),self.setReply oneshot (.sent result))
  | .dropKeepAlive owner, _ => some ((),self.dropKeepAlive owner)
  | .tryAcquire, _ => some self.tryAcquire
  | .fdFor id, choice => some (self.fdFor id choice.fails)
  | .newRequest prepared len, _ => some (self.newRequest prepared len)
  | .send request, choice => self.send request choice.goesOn
  | .receive oneshot, choice => self.receive oneshot choice.goesOn
  | .recover owner, _ => some (self.recover owner)
  | .dropCaller owner, _ => some ((),self.dropCaller owner)
  | .dropBuffer buffer, _ => some ((),{ self with free := buffer::self.free })
  | .compute _, _ => some ((),self)
  | .close, _ => some ((),{ self with closed := true })

def exec (self : Backend) (op : Op) (choice : Choice) : Option (Answer op × Backend) :=
  (choice.completions.foldl complete self).perform op choice

/-- A ring over these buffers, with the channel of `Ring::new`. -/
def new (iovecs : List Buffer) (queueDepth : ℕ) : Backend where
  free := iovecs
  content := fun _ => none
  requests := []
  shared := fun _ => ⟨false,false,none⟩
  replies := fun _ => .dropped
  channel := []
  depth := max queueDepth 1
  closed := false
  queued := []
  serving := []
  completed := []
  faults := 0

end Backend

abbrev Task (α : Type) : Type := Program Op Answer α

def ask (op : Op) : Task (Answer op) := .ask op

def maxInflightRequests : ℕ := 8
def maxPushRetries : ℕ := 16

/-- The user data has the slot in its upper half. -/
def sqeOf (slot len : ℕ) (read : Prepared) : Sqe :=
  ⟨read.fd,read.ptr,len%2^32,read.bufIdx,slot*2^32+read.expertId%2^32⟩

def slotOf (userData : ℕ) : ℕ := userData/2^32%2^32

/-- `submit_and_wait`. -/
def submitAndWait (want : ℕ) : Task (Except ℕ Unit) := do
  match ← ask .submit with
  | .error code => pure (.error code)
  | .ok _ => ask (.waitFor want)

inductive PushFailure
  | refused (submitted : ℕ)
  | submit (code : ℕ)

/-- A full queue is flushed before the next retry. Counts what was handed over. -/
def pushRetrying (sqe : Sqe) : ℕ → ℕ → Task (Except PushFailure ℕ)
  | 0, submitted => do
    match ← ask (.push sqe) with
    | true => pure (.ok submitted)
    | false => pure (.error (.refused submitted))
  | left+1, submitted => do
    match ← ask (.push sqe) with
    | true => pure (.ok submitted)
    | false => match ← ask .submit with
      | .error code => pure (.error (.submit code))
      | .ok n => pushRetrying sqe left (submitted+n)

/-- The check of one completion: the bytes so far and the first error. -/
def record (len expertId : ℕ) (result : ℤ) (totalBytes : ℕ) (firstErr : Option IoError) :
    ℕ × Option IoError :=
  if result<0 then (totalBytes,some (firstErr.getD (.readFailed expertId result.natAbs)))
  else if result.toNat ≠ len then
    (totalBytes,some (firstErr.getD (.shortRead expertId result.toNat len)))
  else (totalBytes+result.toNat,firstErr)

def outcome (totalBytes : ℕ) : Option IoError → Except IoError ℕ
  | some e => .error e
  | none => .ok totalBytes

/-- The first loops of `process_one`: a window of the queue's depth is handed over before the next
one is pushed. -/
def pushWindows (cap len : ℕ) : List Prepared → ℕ → ℕ → Task (Except PushFailure ℕ)
  | [], _, submitted => pure (.ok submitted)
  | read::rest, pushed, submitted => do
    match ← pushRetrying (sqeOf 0 len read) maxPushRetries submitted with
    | .error failure => pure (.error failure)
    | .ok submitted =>
      if (pushed+1)%cap = 0 ∧ rest ≠ [] then
        match ← ask .submit with
        | .error code => pure (.error (.submit code))
        | .ok n => pushWindows cap len rest (pushed+1) (submitted+n)
      else pushWindows cap len rest (pushed+1) submitted

/-- The last loop of `process_one`. Nothing when the fuel is gone. -/
def drainWindow (len total : ℕ) : ℕ → ℕ → ℕ → Option IoError → Task (Option (Except IoError ℕ))
  | 0, _, _, _ => pure none
  | fuel+1, drained, totalBytes, firstErr =>
    if total ≤ drained then pure (some (outcome totalBytes firstErr))
    else do
      match ← ask .nextCompletion with
      | none => match ← ask .submit with
        | .error code => pure (some (.error (.os code)))
        | .ok _ => drainWindow len total fuel drained totalBytes firstErr
      | some cqe =>
        let (totalBytes,firstErr) := record len cqe.userData cqe.result totalBytes firstErr
        drainWindow len total fuel (drained+1) totalBytes firstErr

def drainSubmittedCompletions (submitted : ℕ) : ℕ → ℕ → Task (Option Unit)
  | 0, _ => pure none
  | fuel+1, drained =>
    if submitted ≤ drained then pure (some ())
    else do
      match ← ask .nextCompletion with
      | some _ => drainSubmittedCompletions submitted fuel (drained+1)
      | none => match ← submitAndWait 1 with
        | .error _ => pure (some ())
        | .ok _ => drainSubmittedCompletions submitted fuel drained

/-- A macro-batch alone on the ring. -/
def processOne (fuel cap : ℕ) (prepared : List Prepared) (len : ℕ) :
    Task (Option (Except IoError ℕ)) := do
  match ← pushWindows cap len prepared 0 0 with
  | .error (.submit code) => pure (some (.error (.os code)))
  | .error (.refused submitted) =>
    match ← drainSubmittedCompletions submitted fuel 0 with
    | none => pure none
    | some _ => pure (some (.error .refusedPushRetries))
  | .ok _ => match ← submitAndWait prepared.length with
    | .error code => pure (some (.error (.os code)))
    | .ok _ => drainWindow len prepared.length fuel 0 0 none

structure InflightBatch where
  remaining : ℕ
  len : ℕ
  totalBytes : ℕ
  firstErr : Option IoError
  reply : ℕ
  keepAlive : ℕ
  deriving DecidableEq, Repr

/-- The variables of the reactor thread. -/
structure Reactor where
  inflight : List (ℕ × InflightBatch)
  pendingOps : ℕ
  orphanedOps : ℕ
  nextSlot : ℕ
  parked : Option ReactorRequest
  closed : Bool
  leakedKeepAlives : List ℕ

namespace Reactor

def start : Reactor := ⟨[],0,0,0,none,false,[]⟩

/-- A slot that is not in use, and the next one to try. -/
def freeSlot (inflight : List (ℕ × InflightBatch)) : ℕ → ℕ → Option (ℕ × ℕ)
  | 0, _ => none
  | fuel+1, nextSlot =>
    if (inflight.lookup nextSlot).isSome then freeSlot inflight fuel ((nextSlot+1)%2^32)
    else some (nextSlot,(nextSlot+1)%2^32)

/-- Every entry of a batch, until one cannot be pushed. -/
def pushBatch (slot len : ℕ) : List Prepared → ℕ → Task (ℕ × Option IoError)
  | [], pushed => pure (pushed,none)
  | read::rest, pushed => do
    match ← pushRetrying (sqeOf slot len read) maxPushRetries 0 with
    | .ok _ => pushBatch slot len rest (pushed+1)
    | .error (.refused _) => pure (pushed,some .refusedPushRetries)
    | .error (.submit code) => pure (pushed,some (.os code))

/-- The reply to a request that is done with, and its keep-alive. -/
def answer (reply keepAlive : ℕ) (result : Except IoError ℕ) : Task Unit := do
  ask (.reply reply result)
  ask (.dropKeepAlive keepAlive)

/-- The entries of a batch under the slot that was found for it. -/
def admitBatch (self : Reactor) (slot : ℕ) (req : ReactorRequest) : Task Reactor := do
  let (pushed,pushErr) ← pushBatch slot req.len req.prepared 0
  if pushed = 0 then do
    answer req.reply req.keepAlive (.error (pushErr.getD .noSqesPushed))
    pure self
  else do
    let submitted ← ask .submit
    let pushErr := match submitted with
      | .error code => some (pushErr.getD (.os code))
      | .ok _ => pushErr
    pure { self with
      pendingOps := self.pendingOps+pushed
      inflight := (slot,⟨pushed,req.len,0,pushErr.map .partiallySubmitted,req.reply,req.keepAlive⟩)::
        self.inflight }

/-- What is left of the request is parked. -/
def admitRequest (fuel cap : ℕ) (self : Reactor) (req : ReactorRequest) : Task (Option Reactor) :=
  let total := req.prepared.length
  if total = 0 then do
    answer req.reply req.keepAlive (.ok 0)
    pure (some { self with parked := none })
  else if cap<total then
    if self.inflight ≠ [] ∨ 0<self.orphanedOps then pure (some { self with parked := some req })
    else do
      match ← processOne fuel cap req.prepared req.len with
      | none => pure none
      | some result => do
        answer req.reply req.keepAlive result
        pure (some { self with parked := none })
  else if cap<self.pendingOps+total ∨ maxInflightRequests ≤ self.inflight.length then
    pure (some { self with parked := some req })
  else match freeSlot self.inflight (self.inflight.length+1) self.nextSlot with
    | none => pure none
    | some (slot,nextSlot) => do
      let self ← admitBatch { self with nextSlot := nextSlot, parked := none } slot req
      pure (some self)

/-- The batch of a slot, with the completion counted; without its last completion it is put back. -/
def handleCqe (self : Reactor) (cqe : Cqe) : Task Reactor :=
  let slot := slotOf cqe.userData
  match self.inflight.lookup slot with
  | none => pure { self with orphanedOps := self.orphanedOps-1 }
  | some batch =>
    let (totalBytes,firstErr) :=
      record batch.len (cqe.userData%2^32) cqe.result batch.totalBytes batch.firstErr
    let others := self.inflight.filter fun entry => decide (entry.1 ≠ slot)
    let self := { self with pendingOps := self.pendingOps-1 }
    if batch.remaining-1 = 0 then do
      answer batch.reply batch.keepAlive (outcome totalBytes firstErr)
      pure { self with inflight := others }
    else pure { self with inflight := (slot,{ batch with
      remaining := batch.remaining-1
      totalBytes := totalBytes
      firstErr := firstErr })::others }

def drainReady : ℕ → Reactor → Task (Option Reactor)
  | 0, _ => pure none
  | fuel+1, self => do
    match ← ask .nextCompletion with
    | none => pure (some self)
    | some cqe => do
      let self ← handleCqe self cqe
      drainReady fuel self

/-- All batches get the error of a wait that failed. -/
def replyAll (code : ℕ) : List (ℕ × InflightBatch) → Task Unit
  | [] => pure ()
  | entry::inflight => do
    ask (.reply entry.2.reply (.error (.submitAndWaitFailed code)))
    replyAll code inflight

/-- The kernel may still own the entries: no keep-alive is dropped. -/
def failAll (self : Reactor) : Reactor :=
  let orphanedOps := self.orphanedOps+self.pendingOps
  { self with
    inflight := []
    pendingOps := 0
    orphanedOps := if 0<orphanedOps ∧ self.parked.isSome then 0 else orphanedOps
    leakedKeepAlives := self.leakedKeepAlives++self.inflight.map fun entry => entry.2.keepAlive }

def completions (fuel : ℕ) (self : Reactor) : Task (Option Reactor) :=
  if 0<self.pendingOps ∨ 0<self.orphanedOps ∧ self.parked.isSome then do
    match ← submitAndWait 1 with
    | .error code => do
      replyAll code self.inflight
      pure (some self.failAll)
    | .ok _ => drainReady fuel self
  else pure (some self)

/-- Whatever else is already in the channel. -/
def topUp (fuel cap : ℕ) : ℕ → Reactor → Task (Option Reactor)
  | 0, _ => pure none
  | left+1, self =>
    if self.parked.isSome || self.closed then pure (some self)
    else do
      match ← ask .tryRecv with
      | .ok req => match ← admitRequest fuel cap self req with
        | none => pure none
        | some self => topUp fuel cap left self
      | .error .empty => pure (some self)
      | .error .disconnected => topUp fuel cap left { self with closed := true }

/-- An idle reactor blocks until a request comes. -/
def receiveNext (fuel cap : ℕ) (self : Reactor) : Task (Option Reactor) :=
  if self.parked.isSome || self.closed then pure (some self)
  else if self.inflight ≠ [] then topUp fuel cap fuel self
  else do
    match ← ask .blockingRecv with
    | none => topUp fuel cap fuel { self with closed := true }
    | some req => match ← admitRequest fuel cap self req with
      | none => pure none
      | some self => topUp fuel cap fuel self

/-- A parked request comes before the channel. -/
def admission (fuel cap : ℕ) (self : Reactor) : Task (Option Reactor) :=
  match self.parked with
  | none => receiveNext fuel cap self
  | some req => do
    match ← admitRequest fuel cap { self with parked := none } req with
    | none => pure none
    | some self => receiveNext fuel cap self

def dropAll : List ℕ → Task Unit
  | [] => pure ()
  | owner::owners => do
    ask (.dropKeepAlive owner)
    dropAll owners

/-- `reactor_loop`. Nothing when the fuel is gone before the channel is closed and all is drained. -/
def loop (cap : ℕ) : ℕ → Reactor → Task (Option Unit)
  | 0, _ => pure none
  | fuel+1, self => do
    match ← admission fuel cap self with
    | none => pure none
    | some self =>
      if self.closed && self.inflight.isEmpty && self.parked.isNone then do
        dropAll self.leakedKeepAlives
        pure (some ())
      else match ← completions fuel self with
        | none => pure none
        | some self => loop cap fuel self

end Reactor

section Callers
variable (iovecs : List Buffer)

def bufIdxFor (ptr : Buffer) : Except IoError ℕ :=
  if ptr ∈ iovecs then .ok (iovecs.idxOf ptr%2^16) else .error .notRegistered

/-- The first loop of `submit_batch_with_owner`. -/
def prepareAll : List (ℕ × Buffer) → Task (Except IoError (List Prepared))
  | [] => pure (.ok [])
  | (id,ptr)::reads =>
    match bufIdxFor iovecs ptr with
    | .error error => pure (.error error)
    | .ok bufIdx => do
      match ← ask (.fdFor id) with
      | .error error => pure (.error error)
      | .ok fd => match ← prepareAll reads with
        | .error error => pure (.error error)
        | .ok prepared => pure (.ok (⟨fd,ptr,bufIdx,id⟩::prepared))

def dropBuffers : List Buffer → Task Unit
  | [] => pure ()
  | buffer::buffers => do
    ask (.dropBuffer buffer)
    dropBuffers buffers

/-- As many buffers as there are reads, without waiting; those so far when there are too few. -/
def acquireAll : ℕ → List Buffer → Task (Except (List Buffer) (List Buffer))
  | 0, buffers => pure (.ok buffers)
  | left+1, buffers => do
    match ← ask .tryAcquire with
    | some buffer => acquireAll left (buffers++[buffer])
    | none => pure (.error buffers)

/-- `read_experts_batch_fixed_owned_recover`, over `submit_batch_with_owner`. -/
def readOwned (len : ℕ) (ids : List ℕ) (bufs : List Buffer) :
    Task (Option (Except IoError (List Buffer))) := do
  match ← prepareAll iovecs (ids.zip bufs) with
  | .error error => do
    dropBuffers bufs
    pure (some (.error error))
  | .ok prepared => do
    let request ← ask (.newRequest prepared len)
    match ← ask (.send request) with
    | none => do
      ask (.dropCaller request.keepAlive)
      pure none
    | some (.error _) => do
      ask (.dropCaller request.keepAlive)
      pure (some (.error .channelClosed))
    | some (.ok _) => match ← ask (.receive request.reply) with
      | none => do
        ask (.dropCaller request.keepAlive)
        pure none
      | some (.error _) => do
        ask (.dropCaller request.keepAlive)
        pure (some (.error .reactorPanicked))
      | some (.ok (.error error)) => do
        ask (.dropCaller request.keepAlive)
        pure (some (.error error))
      | some (.ok (.ok _)) => match ← ask (.recover request.keepAlive) with
        | none => do
          ask (.dropCaller request.keepAlive)
          pure (some (.error .lostOwnership))
        | some recovered => do
          ask (.dropCaller request.keepAlive)
          pure (some (.ok recovered))

/-- How a program ended. -/
inductive Report
  | reactor (stopped : Bool)
  | starved (ids : List ℕ)
  | read (ids : List ℕ) (result : Option (Except IoError Unit))
  | closed
  deriving Repr

def reactorTask (fuel queueDepth : ℕ) : Task Report := do
  match ← Reactor.loop (max queueDepth 1) fuel .start with
  | none => pure (.reactor false)
  | some _ => pure (.reactor true)

/-- A caller works with the buffers that it gets back and lets them go. -/
def readTask (len : ℕ) (ids : List ℕ) : Task Report := do
  match ← acquireAll ids.length [] with
  | .error bufs => do
    dropBuffers bufs
    pure (.starved ids)
  | .ok bufs => match ← readOwned iovecs len ids bufs with
    | none => pure (.read ids none)
    | some (.error error) => pure (.read ids (some (.error error)))
    | some (.ok recovered) => do
      ask (.compute (ids.zip recovered))
      dropBuffers recovered
      pure (.read ids (some (.ok ())))

/-- The last handle of the backend is dropped. -/
def closeTask : Task Report := do
  ask .close
  pure .closed

end Callers

end MicroExpertRouter.IoUring
