import MicroExpertRouter.IoUring.Reactor
import Mathlib.Data.Multiset.Bind

/-! Who owns what of the io_uring backend. The reactor owns the ring, and with a request its reply,
its half of the cell and the buffers that no entry is writing; a caller owns his half and, with the
reply, the filled buffers. On a ring that never failed everything is promised; on one that failed,
only while no batch is larger than the queue, the slots are not used up and nobody closes it. -/
namespace MicroExpertRouter.IoUring

/-- What the reactor knows: the entries that it pushed and did not see completed, how many requests
it took, whether all entries were handed over, and whether the channel is at its end. -/
structure View where
  entries : Multiset Sqe
  taken : ℕ
  flushed : Bool
  ended : Bool

/-- A buffer that a request brought waits for its read, or was read. -/
inductive Token
  | ring (view : View)
  | request (req : ReactorRequest)
  | keepAlive (req : ReactorRequest)
  | spent (req : ReactorRequest)
  | target (buffer : Buffer) (read : Option ℕ)
  | unsent (req : ReactorRequest)
  | receiver (req : ReactorRequest)
  | granted (req : ReactorRequest)
  | caller (req : ReactorRequest)
  | buffer (buffer : Buffer)
  | filled (id : ℕ) (buffer : Buffer)

section Projections

@[simp] def Token.views : Token → Multiset View
  | ring view => {view}
  | _ => 0

/-- Who is to answer a request. -/
@[simp] def Token.senders : Token → Multiset ReactorRequest
  | request req => {req}
  | unsent req => {req}
  | _ => 0

/-- Who has the reactor's `Arc`. -/
@[simp] def Token.arcs : Token → Multiset ReactorRequest
  | keepAlive req => {req}
  | spent req => {req}
  | unsent req => {req}
  | _ => 0

@[simp] def Token.keeps : Token → Multiset ReactorRequest
  | keepAlive req => {req}
  | _ => 0

@[simp] def Token.targets : Token → Multiset (Buffer × Option ℕ)
  | target b read => {(b,read)}
  | _ => 0

@[simp] def Token.unsents : Token → Multiset ReactorRequest
  | unsent req => {req}
  | _ => 0

@[simp] def Token.callers : Token → Multiset ReactorRequest
  | caller req => {req}
  | _ => 0

/-- Who may still take the buffers back. -/
@[simp] def Token.claims : Token → Multiset ReactorRequest
  | unsent req => {req}
  | receiver req => {req}
  | granted req => {req}
  | _ => 0

@[simp] def Token.receivers : Token → Multiset ReactorRequest
  | receiver req => {req}
  | _ => 0

@[simp] def Token.grants : Token → Multiset ReactorRequest
  | granted req => {req}
  | _ => 0

@[simp] def Token.raw : Token → Multiset Buffer
  | buffer b => {b}
  | filled _ b => {b}
  | _ => 0

/-- The experts that the owner takes the bytes of his buffers for. -/
@[simp] def Token.known : Token → Multiset (ℕ × Buffer)
  | filled id b => {(id,b)}
  | target b (some id) => {(id,b)}
  | _ => 0

end Projections

namespace ReactorRequest

def ptrs (self : ReactorRequest) : Multiset Buffer := self.prepared.map Prepared.ptr

/-- The buffers before any read. -/
def unread (self : ReactorRequest) : Multiset (Buffer × Option ℕ) :=
  (self.prepared : Multiset Prepared).map fun read => (read.ptr,none)

/-- The buffers when all reads are full. -/
def allRead (self : ReactorRequest) : Multiset (Buffer × Option ℕ) :=
  (self.prepared : Multiset Prepared).map fun read => (read.ptr,some read.fd)

@[simp] lemma unread_fst (self : ReactorRequest) : self.unread.map Prod.fst = self.ptrs := by
  simp [unread, ptrs, Function.comp_def]

@[simp] lemma allRead_fst (self : ReactorRequest) : self.allRead.map Prod.fst = self.ptrs := by
  simp [allRead, ptrs, Function.comp_def]

end ReactorRequest

def targetTokens (targets : Multiset (Buffer × Option ℕ)) : Multiset Token :=
  targets.map fun target => .target target.1 target.2

def bufferTokens (buffers : List Buffer) : Multiset Token :=
  (buffers : Multiset Buffer).map Token.buffer

def filledTokens (experts : List (ℕ × Buffer)) : Multiset Token :=
  (experts : Multiset (ℕ × Buffer)).map fun expert => .filled expert.1 expert.2

/-- The reads of a request as the caller gets them. -/
def ReactorRequest.experts (self : ReactorRequest) : List (ℕ × Buffer) :=
  self.prepared.map fun read => (read.fd,read.ptr)

section Lists
variable {β : Type} (f : Token → Multiset β)

@[simp] lemma targetTokens_zero : targetTokens 0 = 0 := rfl

@[simp] lemma targetTokens_cons (target : Buffer × Option ℕ) (targets : Multiset (Buffer × Option ℕ)) :
    targetTokens (target::ₘ targets) = {.target target.1 target.2}+targetTokens targets := by
  simp [targetTokens, Multiset.singleton_add]

@[simp] lemma targetTokens_add (targets more : Multiset (Buffer × Option ℕ)) :
    targetTokens (targets+more) = targetTokens targets+targetTokens more := by
  simp [targetTokens]

@[simp] lemma bufferTokens_nil : bufferTokens [] = 0 := rfl

@[simp] lemma bufferTokens_cons (b : Buffer) (buffers : List Buffer) :
    bufferTokens (b::buffers) = {.buffer b}+bufferTokens buffers := rfl

lemma bufferTokens_append (buffers more : List Buffer) :
    bufferTokens (buffers++more) = bufferTokens buffers+bufferTokens more := by
  rw [bufferTokens, ← Multiset.coe_add, Multiset.map_add]
  rfl

@[simp] lemma filledTokens_nil : filledTokens [] = 0 := rfl

@[simp] lemma filledTokens_cons (expert : ℕ × Buffer) (experts : List (ℕ × Buffer)) :
    filledTokens (expert::experts) = {.filled expert.1 expert.2}+filledTokens experts := rfl

@[simp] lemma bind_targetTokens (targets : Multiset (Buffer × Option ℕ)) :
    (targetTokens targets).bind f = targets.bind fun target => f (.target target.1 target.2) := by
  rw [targetTokens, Multiset.bind_map]

@[simp high] lemma targets_targetTokens (targets : Multiset (Buffer × Option ℕ)) :
    (targetTokens targets).bind Token.targets = targets := by
  rw [bind_targetTokens]
  exact Multiset.bind_singleton targets id |>.trans (Multiset.map_id targets)

@[simp high] lemma known_unread (req : ReactorRequest) :
    (targetTokens req.unread).bind Token.known = 0 := by
  rw [bind_targetTokens, ReactorRequest.unread, Multiset.bind_map]
  exact Multiset.bind_zero _

@[simp] lemma bind_bufferTokens (buffers : List Buffer) :
    (bufferTokens buffers).bind f = (buffers : Multiset Buffer).bind fun b => f (.buffer b) := by
  rw [bufferTokens, Multiset.bind_map]

@[simp] lemma bind_filledTokens (experts : List (ℕ × Buffer)) :
    (filledTokens experts).bind f =
      (experts : Multiset (ℕ × Buffer)).bind fun expert => f (.filled expert.1 expert.2) := by
  rw [filledTokens, Multiset.bind_map]

end Lists

/-- What a caller reports when a reply got lost, or the buffers did. -/
def IoError.isInternal : IoError → Bool
  | reactorPanicked => true
  | lostOwnership => true
  | _ => false

section Leaves
variable (healthy : Bool) (cap : ℕ)

/-- A request that is taken from the channel. -/
def recvLeaves (view : View) (req : ReactorRequest) : Option (Multiset Token) :=
  if healthy = true ∨ req.prepared.length ≤ cap ∧ view.taken+1<2^32 then
    some ({.ring { view with taken := view.taken+1 }}+{.request req}+{.keepAlive req}+
      targetTokens req.unread)
  else none

/-- The channel is closed and empty. -/
def endLeaves (view : View) : Option (Multiset Token) :=
  if healthy then some {.ring { view with ended := true }} else none

/-- What a failed call into the ring leaves. -/
def faultLeaves (left : Multiset Token) : Option (Multiset Token) :=
  if healthy then none else some left

/-- A completion gives the buffer back, filled if the read was full. -/
def completionLeaves (view : View) (cqe : Cqe) : Option (Multiset Token) :=
  if cqe.entry ∈ view.entries ∧ cqe.result ≤ cqe.entry.len then
    some ({.ring { view with entries := view.entries.erase cqe.entry }}+
      {.target cqe.entry.ptr (if cqe.result = cqe.entry.len then some cqe.entry.fd else none)})
  else none

/-- What each operation needs, and leaves with an answer. -/
inductive Rule : (op : Op) → Multiset Token → (Answer op → Option (Multiset Token)) → Prop
  | push (view : View) (sqe : Sqe) : Rule (.push sqe) ({.ring view}+{.target sqe.ptr none})
      fun (pushed : Bool) => if pushed then
        some {.ring { view with entries := sqe::ₘ view.entries, flushed := false }}
      else faultLeaves healthy ({.ring view}+{.target sqe.ptr none})
  | submit (view : View) : Rule .submit {.ring view} fun (result : Except ℕ ℕ) => match result with
      | .ok _ => some {.ring { view with flushed := true }}
      | .error _ => faultLeaves healthy {.ring view}
  -- the reactor never waits for more completions than can come
  | waitFor (view : View) (want : ℕ) (hflushed : view.flushed = true)
      (hwant : want ≤ Multiset.card view.entries) :
      Rule (.waitFor want) {.ring view} fun (result : Except ℕ Unit) => match result with
      | .ok _ => some {.ring view}
      | .error _ => faultLeaves healthy {.ring view}
  | nextCompletion (view : View) : Rule .nextCompletion {.ring view}
      fun (cqe : Option Cqe) => match cqe with
      | none => some {.ring view}
      | some cqe => completionLeaves view cqe
  | blockingRecv (view : View) (hidle : healthy = true → view.entries = 0) :
      Rule .blockingRecv {.ring view} fun (req : Option ReactorRequest) => match req with
      | some req => recvLeaves healthy cap view req
      | none => endLeaves healthy view
  | tryRecv (view : View) : Rule .tryRecv {.ring view}
      fun (req : Except TryRecvError ReactorRequest) => match req with
      | .ok req => recvLeaves healthy cap view req
      | .error .empty => some {.ring view}
      | .error .disconnected => endLeaves healthy view
  | replyOk (req : ReactorRequest) : Rule (.reply req.reply (.ok (req.prepared.length*req.len)))
      ({.request req}+{.keepAlive req}+targetTokens req.allRead) fun _ => some {.spent req}
  | replyError (req : ReactorRequest) (error : IoError) (herror : error.isInternal = false) :
      Rule (.reply req.reply (.error error)) {.request req} fun _ => some 0
  | dropSpent (req : ReactorRequest) : Rule (.dropKeepAlive req.keepAlive) {.spent req}
      fun _ => some 0
  -- no entry writes to its buffers
  | dropKeepAlive (req : ReactorRequest) (targets : Multiset (Buffer × Option ℕ))
      (htargets : targets.map Prod.fst = req.ptrs) : Rule (.dropKeepAlive req.keepAlive)
      ({.keepAlive req}+targetTokens targets) fun _ => some 0
  | tryAcquire : Rule .tryAcquire 0 fun (acquired : Option Buffer) =>
      some ((acquired.map fun b => {Token.buffer b}).getD 0)
  | fdFor (id : ℕ) : Rule (.fdFor id) 0 fun (fd : Except IoError ℕ) => match fd with
      | .ok fd => if fd = id then some 0 else none
      | .error (.os _) => some 0
      | .error _ => none
  | newRequest (prepared : List Prepared) (len : ℕ) : Rule (.newRequest prepared len)
      (bufferTokens (prepared.map Prepared.ptr)) fun (req : ReactorRequest) =>
        if req.prepared = prepared ∧ req.len = len then some ({.unsent req}+{.caller req}) else none
  | send (req : ReactorRequest) : Rule (.send req) {.unsent req}
      fun (sent : Option (Except Unit Unit)) => match sent with
      | some (.ok _) => some {.receiver req}
      | some (.error _) => some 0
      | none => some 0
  -- a reply always comes
  | receive (req : ReactorRequest) : Rule (.receive req.reply) {.receiver req}
      fun (received : Option (Except Unit (Except IoError ℕ))) => match received with
      | some (.ok (.ok n)) =>
        if n = req.prepared.length*req.len then some {.granted req} else none
      | some (.ok (.error error)) => if error.isInternal = false then some 0 else none
      | some (.error _) => none
      | none => some 0
  | recover (req : ReactorRequest) : Rule (.recover req.keepAlive) ({.caller req}+{.granted req})
      fun (taken : Option (List Buffer)) =>
        if taken = some (req.prepared.map Prepared.ptr) then
          some ({.caller req}+filledTokens req.experts) else none
  | dropCaller (req : ReactorRequest) : Rule (.dropCaller req.keepAlive) {.caller req}
      fun _ => some 0
  | dropBuffer (b : Buffer) : Rule (.dropBuffer b) {.buffer b} fun _ => some 0
  | dropFilled (id : ℕ) (b : Buffer) : Rule (.dropBuffer b) {.filled id b} fun _ => some 0
  | compute (experts : List (ℕ × Buffer)) : Rule (.compute experts) (filledTokens experts)
      fun _ => some (filledTokens experts)
  | close : Rule .close 0 fun _ => some 0

/-- On a ring that never failed the reactor blocks on the channel with nothing in its hands. Who
sends or waits for a reply has his half of the cell. -/
def logic : Logic Op Answer Token where
  rule := Rule healthy cap
  keeps
    | .blockingRecv, _ => healthy = false
    | .send _, t => match t with
      | .caller _ => True
      | _ => False
    | .receive _, t => match t with
      | .caller _ => True
      | _ => False
    | _, _ => True
  disposable _ := False

end Leaves

section Shared

def Oneshot.isWaiting : Oneshot → Bool
  | waiting => true
  | _ => false

/-- The reactor's view of the ring and the channel is right. -/
structure View.Right (s : Backend) (view : View) : Prop where
  entries : view.entries = (s.queued : Multiset Sqe)+s.serving+s.completed.map Cqe.entry
  flushed : view.flushed = true → s.queued = []
  ended : view.ended = true → s.closed = true ∧ s.channel = []

/-- What the reactor keeps alive is what the entries write to, and what waits or was read. -/
structure Entries (s : Backend) (held : Multiset Token) : Prop where
  single : ∃ view, held.bind Token.views = {view}
  right : ∀ view ∈ held.bind Token.views, view.Right s
  taken : ∀ view ∈ held.bind Token.views, view.taken+s.channel.length+
    Multiset.card (held.bind Token.unsents) ≤ s.requests.length
  results : ∀ cqe ∈ s.completed, cqe.result ≤ cqe.entry.len
  kept : (held.bind Token.keeps).bind ReactorRequest.ptrs =
    ((held.bind Token.views).bind fun view => view.entries.map Sqe.ptr)+
      (held.bind Token.targets).map Prod.fst

variable (requests channel : List ReactorRequest) (shared : ℕ → Shared) (replies : ℕ → Oneshot)

/-- Every oneshot and every half of a cell has its owner. -/
structure Cells (held : Multiset Token) : Prop where
  senders : held.bind Token.senders+channel =
    (requests : Multiset ReactorRequest).filter fun req => (replies req.reply).isWaiting = true
  arcs : held.bind Token.arcs+channel =
    (requests : Multiset ReactorRequest).filter fun req => (shared req.keepAlive).reactor = true
  callers : held.bind Token.callers =
    (requests : Multiset ReactorRequest).filter fun req => (shared req.keepAlive).caller = true
  claims : held.bind Token.claims ≤ (requests : Multiset ReactorRequest)
  buffers : ∀ req ∈ requests, (shared req.keepAlive).buffers = some (req.prepared.map Prepared.ptr) ∨
    (shared req.keepAlive).buffers = none ∧ ∃ n, replies req.reply = .sent (.ok n)
  untaken : ∀ req ∈ held.bind Token.claims,
    (shared req.keepAlive).buffers = some (req.prepared.map Prepared.ptr)
  granted : ∀ req ∈ held.bind Token.grants, ∃ n, replies req.reply = .sent (.ok n)
  received : ∀ req ∈ held.bind Token.receivers, replies req.reply ≠ .dropped
  unanswered : ∀ req ∈ held.bind Token.keeps, ∀ n, replies req.reply ≠ .sent (.ok n)

/-- The buffers in the cells. -/
def lent : Multiset Buffer :=
  (requests : Multiset ReactorRequest).bind fun req => ((shared req.keepAlive).kept : Multiset Buffer)

/-- What full reads brought whose completions are still in the queue. -/
def landed (completed : List Cqe) : Multiset (ℕ × Buffer) :=
  (completed : Multiset Cqe).bind fun cqe =>
    if cqe.result = cqe.entry.len then {(cqe.entry.fd,cqe.entry.ptr)} else 0

/-- Every buffer is free, with a caller or in a cell, and holds what it is taken for. -/
structure Bytes (iovecs free : List Buffer) (content : Buffer → Option ℕ) (completed : List Cqe)
    (held : Multiset Token) : Prop where
  whole : (free : Multiset Buffer)+held.bind Token.raw+lent requests shared = iovecs
  contents : ∀ expert ∈ held.bind Token.known+landed completed, content expert.2 = some expert.1
  answered : ∀ req ∈ requests, ∀ n, replies req.reply = .sent (.ok n) →
    n = req.prepared.length*req.len ∧ ∀ read ∈ req.prepared,
      read.ptr ∈ (shared req.keepAlive).kept → content read.ptr = some read.fd

end Shared

/-- The shared state fits what the programs own. -/
structure Fits (iovecs : List Buffer) (s : Backend) (held : Multiset Token) : Prop where
  distinct : iovecs.Nodup
  replies : s.requests.map ReactorRequest.reply = List.range s.requests.length
  owners : s.requests.map ReactorRequest.keepAlive = List.range s.requests.length
  honest : ∀ req ∈ s.requests, ∀ e, s.replies req.reply = .sent (.error e) → e.isInternal = false
  entries : Entries s held
  cells : Cells s.requests s.channel s.shared s.replies held
  bytes : Bytes s.requests s.shared s.replies iovecs s.free s.content s.completed held

/-- What is asked of a ring: that it never failed, or that it may have, but no batch is larger than
the queue, the slots are not used up and the channel is open. -/
def Allowed (healthy : Bool) (cap : ℕ) (s : Backend) : Prop :=
  match healthy with
  | true => s.faults = 0
  | false => (∀ req ∈ s.requests, req.prepared.length ≤ cap) ∧ s.requests.length<2^32 ∧
      s.closed = false

end MicroExpertRouter.IoUring
