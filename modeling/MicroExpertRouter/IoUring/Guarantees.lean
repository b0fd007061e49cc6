import MicroExpertRouter.IoUring.Discipline

/-! What holds of the io_uring backend however the reactor, the callers and the drive take turns:
nobody touches a buffer that an entry may still write to, a caller that is told that its reads are
done has the bytes of its own experts, every reply comes, and nothing is left behind. -/
namespace MicroExpertRouter.IoUring

section Tasks
variable {healthy : Bool} {iovecs : List Buffer} {queueDepth : ℕ}

/-- The reactor ends with nothing on the ring; a caller ends with no buffer, and neither its reply
nor its buffers got lost. -/
def Settled : Report → Multiset Token → Prop
  | .reactor stopped, held => stopped = true →
      ∃ view : View, held = {.ring view} ∧ view.entries = 0 ∧ view.ended = true
  | .read _ result, held => held = 0 ∧ result ≠ some (.error .reactorPanicked) ∧
      result ≠ some (.error .lostOwnership)
  | .starved _, held => held = 0
  | .closed, held => held = 0

def View.start : View := ⟨0,0,true,false⟩

lemma kept_start (ledger : ℕ → Ledger) :
    Kept healthy (max queueDepth 1) .start .start ledger 0 0 where
  slots := List.nodup_nil
  booked := fun _ h => absurd h List.not_mem_nil
  entries := rfl
  pending := rfl
  strangers := fun _ h => absurd h (Multiset.notMem_zero _)
  inRange := by norm_num [Reactor.start]
  ended := fun h => Bool.noConfusion h
  whole := fun _ => ⟨rfl,rfl,rfl,rfl⟩
  contained := fun _ => ⟨by norm_num [View.start],le_rfl,fun _ h => absurd h List.not_mem_nil,
    fun _ h => absurd h (Multiset.notMem_zero _),fun _ h => absurd h (Option.not_mem_none _),rfl⟩

lemma owns_reactorTask (fuel : ℕ) : Owns (logic healthy (max queueDepth 1)) Settled
    (reactorTask fuel queueDepth) {.ring .start} := by
  rw [reactorTask, ← add_zero {Token.ring View.start}]
  refine owns_loop fuel (fun held hstopped => ?_)
    ⟨fun _ => ⟨⟨[],0,0,0⟩,0,0⟩,0,0,kept_start _,rfl⟩ fun view hentries hended _ => ?_
  · cases hstopped
  · exact ⟨view,rfl,hentries,hended⟩

lemma owns_readTask (len : ℕ) (ids : List ℕ) : Owns (logic healthy (max queueDepth 1)) Settled
    (readTask iovecs len ids) 0 := by
  rw [readTask, ← add_zero (0 : Multiset Token), ← bufferTokens_nil]
  refine owns_acquireAll ids.length [] (fun bufs hlength => ?_) fun bufs => ?_
  · rw [List.length_nil, zero_add] at hlength
    rw [bufferTokens_nil, add_zero]
    refine owns_readOwned len ids bufs hlength ?_ fun result hpanicked hlost hbufs => ?_
    · refine Owns.ask 0 (.compute (ids.zip bufs)) (add_zero _).symm (fun _ _ => trivial) ?_
      rintro ⟨⟩ left ⟨⟩
      have hsnd : (ids.zip bufs).map Prod.snd = bufs := List.map_snd_zip hlength.le
      nth_rewrite 1 [← hsnd]
      exact owns_dropFilled (ids.zip bufs) ⟨rfl,nofun,nofun⟩
    · obtain _ | (error | bufs) := result
      · exact ⟨rfl,nofun,nofun⟩
      · refine ⟨rfl,fun h => hpanicked ?_,fun h => hlost ?_⟩
        · cases h
          rfl
        · cases h
          rfl
      · exact absurd rfl (hbufs bufs)
  · exact owns_dropBuffers bufs rfl

lemma owns_closeTask : Owns (logic healthy (max queueDepth 1)) Settled closeTask 0 := by
  refine Owns.ask 0 .close (add_zero _).symm (fun _ _ => trivial) ?_
  rintro ⟨⟩ left ⟨⟩
  rfl

end Tasks

/-- What is asked of the backend. -/
inductive Request
  | read (len : ℕ) (ids : List ℕ)
  | close
  deriving DecidableEq, Repr

def Request.task (iovecs : List Buffer) : Request → Task Report
  | read len ids => readTask iovecs len ids
  | close => closeTask

abbrev System : Type := Concurrent Backend Op Answer Report

namespace System

/-- The reactor and its callers. -/
def start (iovecs : List Buffer) (queueDepth fuel : ℕ) (requests : List Request) : System :=
  ⟨.new iovecs queueDepth,reactorTask fuel queueDepth::requests.map (Request.task iovecs)⟩

/-- The next operation of a program. -/
def next (self : System) (i : ℕ) : Option Op :=
  match self.programs[i]? with
  | some (.call op _) => some op
  | _ => none

/-- How a program ended. -/
def report (self : System) (i : ℕ) : Option Report :=
  match self.programs[i]? with
  | some (.done report) => some report
  | _ => none

/-- The reads that the kernel may still do. -/
def pending (self : System) : List Sqe := self.shared.queued++self.shared.serving

end System

/-- No call into the ring failed; or no batch is larger than the queue, less than a round of slots was
used and the backend is open. -/
def Trusted (queueDepth : ℕ) (s : Backend) : Prop :=
  s.faults = 0 ∨ (∀ req ∈ s.requests, req.prepared.length ≤ max queueDepth 1) ∧
    s.requests.length<2^32 ∧ s.closed = false

section Small

/-- A turn without failures; and one before which the drive completes the oldest read in full. -/
def goOn (i : ℕ) : ℕ × Choice := (i,⟨[],none,true⟩)

def arrive (i : ℕ) : ℕ × Choice := (i,⟨[(0,4)],none,true⟩)

def failing (i : ℕ) : ℕ × Choice := (i,⟨[],some 5,true⟩)

/-- A run over three buffers and a queue of two. -/
def smallRun (requests : List Request) (turns : List (ℕ × Choice)) : Option System :=
  (System.start [0,1,2] 2 4 requests).run Backend.exec turns

lemma of_smallRun {requests : List Request} {turns : List (ℕ × Choice)} {β : Type} {view : System → β}
    {seen : β} (h : (smallRun requests turns).map view = some seen) :
    ∃ system : System, (System.start [0,1,2] 2 4 requests).run Backend.exec turns = some system ∧
      view system = seen :=
  Option.map_eq_some_iff.mp h

/-- Two reads on their way to the drive. -/
def twoReads : List (ℕ × Choice) := List.replicate 6 (goOn 1)++List.replicate 4 (goOn 0)

/-- Both have arrived and the caller has its buffers. -/
def bothRead : List (ℕ × Choice) :=
  twoReads++[goOn 0,goOn 0,arrive 0,goOn 0,goOn 0,goOn 0,goOn 0,arrive 0]++
    List.replicate 4 (goOn 0)++List.replicate 3 (goOn 1)

/-- The caller lets them go and the backend is dropped. -/
def allDone : List (ℕ × Choice) := bothRead++List.replicate 3 (goOn 1)++[goOn 2,goOn 0]

/-- A batch larger than the queue, of which the last hand-over fails, and then another caller. -/
def brokenBatch : List (ℕ × Choice) :=
  List.replicate 8 (goOn 1)++List.replicate 5 (goOn 0)++[failing 0,goOn 0,goOn 0,goOn 1,goOn 1]++
    List.replicate 4 (goOn 2)++List.replicate 5 (goOn 0)++[arrive 0]++List.replicate 3 (goOn 0)++
      List.replicate 3 (goOn 2)

end Small

section Runs
variable {iovecs : List Buffer} {queueDepth fuel : ℕ} {requests : List Request}
  {turns : List (ℕ × Choice)} {system : System}

lemma next_eq_some {i : ℕ} {op : Op} (h : system.next i = some op) :
    ∃ rest, system.programs[i]? = some (.call op rest) := by
  unfold System.next at h
  split at h
  case h_1 op' rest hprogram =>
    cases h
    exact ⟨rest,hprogram⟩
  case h_2 => cases h

lemma report_eq_some {i : ℕ} {report : Report} (h : system.report i = some report) :
    system.programs[i]? = some (.done report) := by
  unfold System.report at h
  split at h
  case h_1 report' hprogram =>
    cases h
    exact hprogram
  case h_2 => cases h

/-- A new ring over distinct buffers. -/
lemma fits_new (hdistinct : iovecs.Nodup) :
    Fits iovecs (.new iovecs queueDepth) {.ring .start} := by
  refine ⟨hdistinct,rfl,rfl,fun _ h => absurd h List.not_mem_nil,
    ⟨⟨.start,rfl⟩,fun view hview => ?_,fun view hview => ?_,fun _ h => absurd h List.not_mem_nil,rfl⟩,
    ⟨rfl,rfl,rfl,Multiset.zero_le _,fun _ h => absurd h List.not_mem_nil,?_,?_,?_,?_⟩,
    ⟨?_,?_,fun _ h => absurd h List.not_mem_nil⟩⟩
  · rw [Multiset.singleton_bind, Token.views, Multiset.mem_singleton] at hview
    rw [hview]
    exact ⟨rfl,fun _ => rfl,fun h => by cases h⟩
  · rw [Multiset.singleton_bind, Token.views, Multiset.mem_singleton] at hview
    rw [hview]
    exact le_rfl
  · simp
  · simp
  · simp
  · simp
  · simp [Backend.new, lent]
  · simp [Backend.new, landed]

/-- The callers start with nothing in hand. -/
lemma owns_tasks (healthy : Bool) (requests : List Request) :
    List.Forall₂ (Owns (logic healthy (max queueDepth 1)) Settled) (requests.map (Request.task iovecs))
      (List.replicate requests.length 0) := by
  induction requests with
  | nil => exact .nil
  | cons request requests ih =>
    refine .cons ?_ ih
    cases request with
    | read len ids => exact owns_readTask len ids
    | close => exact owns_closeTask

/-- The shared state fits what the reactor and the callers own, after every run. -/
lemma governed (healthy : Bool) (hdistinct : iovecs.Nodup)
    (hrun : (System.start iovecs queueDepth fuel requests).run Backend.exec turns = some system)
    (hallowed : Allowed healthy (max queueDepth 1) system.shared) :
    system.Governed (logic healthy (max queueDepth 1)) Settled (Fits iovecs) := by
  refine Concurrent.Governed.run_bounded (sound iovecs healthy (max queueDepth 1)) ?_ allowed_back ?_
    hrun hallowed
  · intro s junk rest hjunk hfits
    obtain rfl : junk = 0 := Multiset.eq_zero_of_forall_notMem fun t ht => hjunk t ht
    rwa [zero_add] at hfits
  · refine ⟨{.ring .start}::List.replicate requests.length 0,.cons (owns_reactorTask fuel) ?_,?_⟩
    · exact owns_tasks healthy requests
    · rw [List.sum_cons, List.sum_replicate, smul_zero, add_zero]
      exact fits_new hdistinct

lemma allowed_of_trusted (h : Trusted queueDepth system.shared) :
    ∃ healthy, Allowed healthy (max queueDepth 1) system.shared := by
  obtain hhealthy | hcontained := h
  · exact ⟨true,hhealthy⟩
  · exact ⟨false,hcontained⟩

lemma pending_le {held : Multiset Token} {view : View} (h : Fits iovecs system.shared held)
    (hview : held.bind Token.views = {view}) :
    (system.pending.map Sqe.ptr : Multiset Buffer) ≤ view.entries.map Sqe.ptr := by
  rw [(h.entries.right view (by simp [hview])).entries, System.pending, Multiset.map_add,
    List.map_append, ← Multiset.coe_add, Multiset.map_add]
  exact Multiset.le_add_right _ _

lemma pending_nodup {held : Multiset Token} (h : Fits iovecs system.shared held) :
    (system.pending.map Sqe.ptr).Nodup := by
  obtain ⟨view,hview⟩ := h.entries.single
  exact Multiset.coe_nodup.mp (Multiset.nodup_of_le
    ((pending_le h hview).trans (Multiset.le_add_right _ _)) (h.targets_nodup hview))

/-- The cell of a request that is not answered as done keeps the buffer of an entry. -/
lemma pinned {held : Multiset Token} (h : Fits iovecs system.shared held) (entry : Sqe)
    (hentry : entry ∈ system.pending) : ∃ req ∈ held.bind Token.keeps, req ∈ system.shared.requests ∧
      entry.ptr ∈ (system.shared.shared req.keepAlive).kept := by
  obtain ⟨view,hview⟩ := h.entries.single
  exact h.entry_kept hview (Multiset.mem_add.mpr (.inl (Multiset.mem_of_le (pending_le h hview)
    (Multiset.mem_coe.mpr (List.mem_map_of_mem hentry)))))

variable (hdistinct : iovecs.Nodup)
  (hrun : (System.start iovecs queueDepth fuel requests).run Backend.exec turns = some system)
  (htrusted : Trusted queueDepth system.shared)
include hdistinct hrun htrusted

-- the bound on the batches is needed: an entry of a batch that failed halfway is still on the ring,
-- and the next batch takes its completion for its own
example : (smallRun [.read 4 [7,8,9],.read 4 [5]] brokenBatch).map (fun system =>
    (system.shared.faults,system.next 2,system.shared.content 0,system.pending.map Sqe.ptr,
      system.shared.free)) = some (1,some (.compute [(5,0)]),some 7,[1,2,0],[1,2]) := rfl

end Runs

section Rest
variable {iovecs : List Buffer} {queueDepth fuel cap : ℕ} {requests : List Request}
  {turns : List (ℕ × Choice)} {system : System}

/-- Nothing goes on, whatever the drive completes and although nothing fails. -/
def System.Stuck (self : System) : Prop :=
  ∀ i choice, choice.fails = none → choice.goesOn = true → self.step Backend.exec (i,choice) = none

/-- The drive may complete all that it has. -/
lemma completeAll_serving (s : Backend) (serving : List Sqe) (hserving : s.serving = serving) :
    ((List.replicate serving.length (0,(0 : ℤ))).foldl Backend.complete s).completed.length =
      s.completed.length+serving.length := by
  induction serving generalizing s with
  | nil => rfl
  | cons entry serving ih =>
    have hone : s.complete (0,0) = { s with
        serving := serving
        completed := s.completed++[⟨entry,min 0 entry.len⟩]
        content := Function.update s.content entry.ptr
          (if min 0 (entry.len : ℤ) = entry.len then some entry.fd else none) } := by
      rw [Backend.complete, hserving]
      rfl
    rw [List.length_cons, List.replicate_succ, List.foldl_cons, ih _ (by rw [hone]), hone,
      List.length_append, List.length_singleton]
    omega

lemma Stuck.exec_none (hstuck : system.Stuck) {i : ℕ} {op : Op} (hi : system.next i = some op)
    (completions : List (ℕ × ℤ)) : system.shared.exec op ⟨completions,none,true⟩ = none := by
  obtain ⟨rest,hprogram⟩ := next_eq_some hi
  have hnone := hstuck i ⟨completions,none,true⟩ rfl rfl
  rw [Concurrent.step, hprogram] at hnone
  exact Option.map_eq_none_iff.mp hnone

/-- What waits: for a request, for room in the channel, or for a reply. -/
lemma waits (hgoverned : system.Governed (logic true cap) Settled (Fits iovecs)) (hstuck : system.Stuck)
    {i : ℕ} {op : Op} (hi : system.next i = some op) :
    (op = .blockingRecv ∧ system.shared.channel = [] ∧ system.shared.closed = false) ∨
    (∃ req, op = .send req ∧ system.shared.depth ≤ system.shared.channel.length) ∨
    ∃ oneshot, op = .receive oneshot ∧ (system.shared.replies oneshot).isWaiting = true := by
  have hnone : system.shared.perform op ⟨[],none,true⟩ = none := Stuck.exec_none hstuck hi []
  cases op with
  | waitFor want =>
    obtain ⟨rest,hprogram⟩ := next_eq_some hi
    obtain ⟨needs,leaves,others,hrule,hfits⟩ := hgoverned.calls hprogram
    cases hrule with
    | waitFor view want hflushed hwant =>
      have hright := hfits.right
      rw [hright.entries, hright.flushed hflushed, Multiset.card_add, Multiset.card_add,
        Multiset.coe_card, Multiset.coe_card, Multiset.coe_card, List.length_map, List.length_nil] at hwant
      have hall := Stuck.exec_none hstuck hi
        (List.replicate system.shared.serving.length (0,(0 : ℤ)))
      change (if _ then _ else _) = none at hall
      rw [completeAll_serving _ _ rfl, if_pos (by omega)] at hall
      cases hall
  | blockingRecv =>
    change system.shared.blockingRecv = none at hnone
    unfold Backend.blockingRecv at hnone
    split at hnone
    · cases hnone
    · rename_i hchannel
      split_ifs at hnone with hclosed
      exact .inl ⟨rfl,hchannel,by simpa using hclosed⟩
  | send req =>
    change system.shared.send req true = none at hnone
    unfold Backend.send at hnone
    split_ifs at hnone with hcancelled hclosed hroom
    exact .inr (.inl ⟨req,rfl,Nat.le_of_not_lt hroom⟩)
  | receive oneshot =>
    change system.shared.receive oneshot true = none at hnone
    unfold Backend.receive at hnone
    refine .inr (.inr ⟨oneshot,rfl,?_⟩)
    cases hreply : system.shared.replies oneshot with
    | waiting => rfl
    | sent result => simp [hreply] at hnone
    | dropped => simp [hreply] at hnone
  | _ => cases hnone

/-- What a program owns that has ended or waits. -/
lemma owned_at_rest (hgoverned : system.Governed (logic true cap) Settled (Fits iovecs))
    (hstuck : system.Stuck) (hfuel : ∀ i, system.report i ≠ some (.reactor false)) {i : ℕ}
    {p : Task Report} {held : Multiset Token} (hprogram : system.programs[i]? = some p)
    (howns : Owns (logic true cap) Settled p held) {t : Token} (ht : t ∈ held) :
    (∃ view, t = .ring view ∧ view.entries = 0 ∧
      (view.ended = true ∨ system.shared.channel = [])) ∨
    (∃ req, system.next i = some (.send req)) ∨
    ∃ oneshot, system.next i = some (.receive oneshot) ∧
      ((∃ req, t = .receiver req) ∨ ∃ req, t = .caller req) := by
  cases p with
  | done report =>
    have hreport : system.report i = some report := by
      unfold System.report
      rw [hprogram]
    cases report with
    | reactor stopped =>
      cases stopped with
      | false => exact absurd hreport (hfuel i)
      | true =>
        obtain ⟨view,rfl,hentries,hended⟩ := howns rfl
        exact .inl ⟨view,Multiset.mem_singleton.mp ht,hentries,.inl hended⟩
    | read ids result =>
      rw [howns.1] at ht
      exact absurd ht (Multiset.notMem_zero _)
    | _ =>
      rw [show held = 0 from howns] at ht
      exact absurd ht (Multiset.notMem_zero _)
  | call op rest =>
    have hnext : system.next i = some op := by
      unfold System.next
      rw [hprogram]
    obtain ⟨needs,leaves,frame,junk,hrule,rfl,hkeeps,hjunk,-⟩ := howns
    have hmem : t ∈ needs ∨ t ∈ frame := by
      obtain hmem | hmem := Multiset.mem_add.mp ht
      · exact Multiset.mem_add.mp hmem
      · exact (hjunk t hmem).elim
    obtain ⟨rfl,hchannel,-⟩ | ⟨req,rfl,-⟩ | ⟨oneshot,rfl,-⟩ := waits hgoverned hstuck hnext
    · cases hrule with
      | blockingRecv view hidle =>
        obtain hmem | hmem := hmem
        · exact .inl ⟨view,Multiset.mem_singleton.mp hmem,hidle rfl,.inr hchannel⟩
        · exact Bool.noConfusion (hkeeps t hmem)
    · exact .inr (.inl ⟨req,hnext⟩)
    · refine .inr (.inr ⟨oneshot,hnext,?_⟩)
      cases hrule with
      | receive req =>
        obtain hmem | hmem := hmem
        · exact .inl ⟨req,Multiset.mem_singleton.mp hmem⟩
        · have hkept := hkeeps t hmem
          cases t with
          | caller req => exact .inr ⟨req,rfl⟩
          | _ => exact hkept.elim

/-- The ring is idle when nothing goes on. -/
lemma idle_at_rest (hgoverned : system.Governed (logic true cap) Settled (Fits iovecs))
    (hstuck : system.Stuck) (hfuel : ∀ i, system.report i ≠ some (.reactor false)) :
    system.pending = [] ∧ system.shared.completed = [] ∧ system.shared.channel = [] := by
  obtain ⟨all,hfits,howners⟩ := hgoverned.owners
  obtain ⟨view,hview⟩ := hfits.entries.single
  have hright := hfits.entries.right view (by simp [hview])
  obtain ⟨t,ht,hmem⟩ : ∃ t ∈ all, view ∈ t.views :=
    Multiset.mem_bind.mp (hview ▸ Multiset.mem_singleton_self view)
  obtain ⟨i,p,held,hprogram,howns,hheld⟩ := howners t ht
  have hempty : view.entries = 0 ∧ (view.ended = true ∨ system.shared.channel = []) := by
    obtain ⟨other,rfl,hentries,hrest⟩ | ⟨req,hnext⟩ | ⟨oneshot,-,⟨req,rfl⟩ | ⟨req,rfl⟩⟩ :=
      owned_at_rest hgoverned hstuck hfuel hprogram howns hheld
    · obtain rfl : view = other := Multiset.mem_singleton.mp hmem
      exact ⟨hentries,hrest⟩
    · -- who sends has no ring
      obtain ⟨rest,hcall⟩ := next_eq_some hnext
      rw [hprogram] at hcall
      cases hcall
      obtain ⟨needs,leaves,frame,junk,hrule,rfl,hkeeps,hjunk,-⟩ := howns
      cases hrule with
      | send req =>
        obtain hheld | hheld := Multiset.mem_add.mp hheld
        · obtain hheld | hheld := Multiset.mem_add.mp hheld
          · rw [Multiset.mem_singleton.mp hheld] at hmem
            exact absurd hmem (Multiset.notMem_zero _)
          · have hkept := hkeeps t hheld
            cases t with
            | ring other => exact hkept.elim
            | _ => exact absurd hmem (Multiset.notMem_zero _)
        · exact (hjunk t hheld).elim
    · exact absurd hmem (Multiset.notMem_zero _)
    · exact absurd hmem (Multiset.notMem_zero _)
  obtain ⟨hentries,hrest⟩ := hempty
  have hzero := hright.entries
  rw [hentries] at hzero
  have hcount : 0 = system.shared.queued.length+system.shared.serving.length+
      system.shared.completed.length := by
    have hcard := congrArg Multiset.card hzero
    rwa [Multiset.card_zero, Multiset.card_add, Multiset.card_add, Multiset.coe_card, Multiset.coe_card,
      Multiset.coe_card, List.length_map] at hcard
  refine ⟨List.length_eq_zero_iff.mp ?_,List.length_eq_zero_iff.mp (by omega),hrest.elim (fun hended =>
    (hright.ended hended).2) id⟩
  rw [System.pending, List.length_append]
  omega

/-- On a ring that never failed nobody is left waiting: when nothing goes on, the callers have ended,
an open reactor waits for requests, every request is answered, and every buffer is free. -/
theorem nothing_hangs (hdistinct : iovecs.Nodup)
    (hrun : (System.start iovecs queueDepth fuel requests).run Backend.exec turns = some system)
    (hhealthy : system.shared.faults = 0) (hstuck : system.Stuck)
    (hfuel : ∀ i, system.report i ≠ some (.reactor false)) :
    (∀ i op, system.next i = some op → op = .blockingRecv ∧ system.shared.closed = false) ∧
      system.pending = [] ∧ system.shared.completed = [] ∧ system.shared.channel = [] ∧
      (∀ req ∈ system.shared.requests, (system.shared.replies req.reply).isWaiting = false) ∧
      system.shared.free.Perm iovecs := by
  have hgoverned := governed true hdistinct hrun hhealthy
  obtain ⟨hpending,hcompleted,hchannel⟩ := idle_at_rest hgoverned hstuck hfuel
  have hdepth : system.shared.depth = max queueDepth 1 := by
    refine Concurrent.run_keeps (P := fun s : System => s.shared.depth = max queueDepth 1)
      (fun s turn next hs hstep => ?_) rfl hrun
    obtain ⟨op,rest,answer,shared,-,hexec,rfl⟩ := Concurrent.step_cases hstep
    exact (later_exec hexec).depth.trans hs
  have hsend : ∀ i req, system.next i ≠ some (.send req) := by
    intro i req hnext
    obtain ⟨h,-⟩ | ⟨_,_,hfull⟩ | ⟨_,h,_⟩ := waits hgoverned hstuck hnext
    · cases h
    · rw [hdepth, hchannel, List.length_nil] at hfull
      omega
    · cases h
  obtain ⟨all,hfits,howners⟩ := hgoverned.owners
  have hsenders : all.bind Token.senders = 0 := by
    refine Multiset.eq_zero_of_forall_notMem fun req hreq => ?_
    obtain ⟨t,ht,hmem⟩ := Multiset.mem_bind.mp hreq
    obtain ⟨i,p,held,hprogram,howns,hheld⟩ := howners t ht
    obtain ⟨view,rfl,-⟩ | ⟨other,hnext⟩ | ⟨oneshot,-,⟨other,rfl⟩ | ⟨other,rfl⟩⟩ :=
      owned_at_rest hgoverned hstuck hfuel hprogram howns hheld
    · exact absurd hmem (Multiset.notMem_zero _)
    · exact hsend i other hnext
    · exact absurd hmem (Multiset.notMem_zero _)
    · exact absurd hmem (Multiset.notMem_zero _)
  have hanswered : ∀ req ∈ system.shared.requests,
      (system.shared.replies req.reply).isWaiting = false := by
    intro req hreq
    have hnone := hfits.cells.senders
    rw [hsenders, hchannel, Multiset.coe_nil, add_zero] at hnone
    have hnot := Multiset.filter_eq_nil.mp hnone.symm req (Multiset.mem_coe.mpr hreq)
    exact Bool.eq_false_iff.mpr hnot
  have hreceive : ∀ i oneshot, system.next i ≠ some (.receive oneshot) := by
    intro i oneshot hnext
    obtain ⟨h,-⟩ | ⟨_,h,_⟩ | ⟨_,h,hwaiting⟩ := waits hgoverned hstuck hnext
    · cases h
    · cases h
    · cases h
      obtain ⟨rest,hprogram⟩ := next_eq_some hnext
      obtain ⟨needs,leaves,others,hrule,hboth⟩ := hgoverned.calls hprogram
      cases hrule with
      | receive req =>
        rw [hanswered req (hboth.claim_mem (by simp))] at hwaiting
        cases hwaiting
  have hring : ∀ t ∈ all, ∃ view, t = .ring view := by
    intro t ht
    obtain ⟨i,p,held,hprogram,howns,hheld⟩ := howners t ht
    obtain ⟨view,rfl,-⟩ | ⟨other,hnext⟩ | ⟨oneshot,hnext,-⟩ :=
      owned_at_rest hgoverned hstuck hfuel hprogram howns hheld
    · exact ⟨view,rfl⟩
    · exact absurd hnext (hsend i other)
    · exact absurd hnext (hreceive i oneshot)
  have hnone : ∀ {β : Type} (f : Token → Multiset β), (∀ view, f (.ring view) = 0) →
      all.bind f = 0 := by
    intro β f hf
    refine Multiset.eq_zero_of_forall_notMem fun b hb => ?_
    obtain ⟨t,ht,hmem⟩ := Multiset.mem_bind.mp hb
    obtain ⟨view,rfl⟩ := hring t ht
    rw [hf] at hmem
    exact Multiset.notMem_zero b hmem
  refine ⟨fun i op hnext => ?_,hpending,hcompleted,hchannel,hanswered,?_⟩
  · obtain ⟨rfl,-,hopen⟩ | ⟨req,rfl,-⟩ | ⟨oneshot,rfl,-⟩ := waits hgoverned hstuck hnext
    · exact ⟨rfl,hopen⟩
    · exact absurd hnext (hsend i req)
    · exact absurd hnext (hreceive i oneshot)
  · have harcs := hfits.cells.arcs
    rw [hnone Token.arcs fun _ => rfl, hchannel, Multiset.coe_nil, add_zero] at harcs
    have hcallers := hfits.cells.callers
    rw [hnone Token.callers fun _ => rfl] at hcallers
    have hlent : lent system.shared.requests system.shared.shared = 0 := by
      refine Multiset.eq_zero_of_forall_notMem fun b hb => ?_
      obtain ⟨req,hreq,hmem⟩ := Multiset.mem_bind.mp hb
      have hreactor := Multiset.filter_eq_nil.mp harcs.symm req hreq
      have hcaller := Multiset.filter_eq_nil.mp hcallers.symm req hreq
      rw [Shared.kept, Bool.eq_false_iff.mpr hreactor, Bool.eq_false_iff.mpr hcaller] at hmem
      exact absurd hmem (Multiset.notMem_zero _)
    have hwhole := hfits.bytes.whole
    rw [hnone Token.raw fun _ => rfl, hlent, add_zero, add_zero] at hwhole
    exact Multiset.coe_eq_coe.mp hwhole

theorem nothing_hangs_two : ∃ system : System,
    system.report 1 = some (.read [7,8] (some (.ok ()))) ∧ system.pending = [] ∧
      system.shared.free.Perm [0,1,2] := by
  obtain ⟨system,hrun,hview⟩ := @of_smallRun [.read 4 [7,8],.close] allDone _
    (fun system => (system.report 0,system.report 1,system.report 2,system.programs.length,
      system.shared.faults)) (some (.reactor true),some (.read [7,8] (some (.ok ()))),some .closed,3,0) rfl
  obtain ⟨hreactor,hview⟩ := Prod.mk.inj hview
  obtain ⟨hread,hview⟩ := Prod.mk.inj hview
  obtain ⟨hclosed,hview⟩ := Prod.mk.inj hview
  obtain ⟨hlength,hfaults⟩ := Prod.mk.inj hview
  have hall : ∀ i, system.report i ≠ some (.reactor false) ∧
      ∀ choice, system.step Backend.exec (i,choice) = none := by
    intro i
    have hdone : ∀ report, system.report i = some report → report ≠ .reactor false →
        system.report i ≠ some (.reactor false) ∧ ∀ choice, system.step Backend.exec (i,choice) = none := by
      intro report hreport hne
      refine ⟨fun h => hne (Option.some.inj (hreport.symm.trans h)),fun choice => ?_⟩
      rw [Concurrent.step, report_eq_some hreport]
    obtain rfl | hi := Nat.eq_zero_or_pos i
    · exact hdone _ hreactor (by simp)
    obtain rfl | hi := Nat.eq_or_lt_of_le hi
    · exact hdone _ hread (by simp)
    obtain rfl | hi := Nat.eq_or_lt_of_le hi
    · exact hdone _ hclosed (by simp)
    have hnone : system.programs[i]? = none := List.getElem?_eq_none (hlength ▸ hi)
    refine ⟨fun h => ?_,fun choice => ?_⟩
    · rw [report_eq_some h] at hnone
      cases hnone
    · rw [Concurrent.step, hnone]
  obtain ⟨-,hpending,-,-,-,hfree⟩ := nothing_hangs (by decide) hrun hfaults
    (fun i choice _ _ => (hall i).2 choice) fun i => (hall i).1
  exact ⟨system,hread,hpending,hfree⟩

end Rest

end MicroExpertRouter.IoUring
