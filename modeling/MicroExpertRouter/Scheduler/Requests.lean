import MicroExpertRouter.Scheduler.Registry

/-! The request state of `server.rs` over the registry: each token step goes to the scheduler or runs
directly, and a step whose reply is lost is run again directly, on the caches as the lost step left
them. -/
namespace MicroExpertRouter.Scheduler
open Relation (ReflTransGen)

inductive GenerateError
  | inference (message : String)
  | kvStateLost (message : String)
  deriving DecidableEq, Repr

structure RealRequestState where
  scheduler : Bool
  requestId : Option ℕ
  kv : Option (List KvCache)

/-- A token step of a request. -/
structure TokenCall where
  row : Row
  mode : StepMode

namespace RealRequestState

def new (scheduler : Bool) (kv : List KvCache) : RealRequestState := ⟨scheduler,none,some kv⟩

def ensureSchedulerRegistered (self : RealRequestState) (registry : RequestRegistry) :
    Option ℕ × RealRequestState × RequestRegistry :=
  match self.scheduler,self.requestId,self.kv with
  | false, _, _ => (none,self,registry)
  | true, some id, _ => (some id,self,registry)
  | true, none, none => (none,self,registry)
  | true, none, some kv =>
    (some (registry.register kv).1,{ self with requestId := some (registry.register kv).1, kv := none },
      (registry.register kv).2)

/-- Both handles are taken also when only one of them is there. -/
def releaseSchedulerToLocal (self : RealRequestState) (registry : RequestRegistry) :
    Except GenerateError Unit × RealRequestState × RequestRegistry :=
  match self.scheduler,self.requestId with
  | true, some id =>
    let (kv,rest) := registry.release id
    let result := if kv.isNone then
        .error (.kvStateLost (s!"scheduler could not return the exact KV state for request {id}; "++
          "refusing to continue the sequence on a fresh KV cache"))
      else .ok ()
    (result,⟨false,none,kv⟩,rest)
  | _, _ => (.ok (),⟨false,none,self.kv⟩,registry)

/-- The caches, or the error of a request without any. -/
def localKv (self : RealRequestState) (message : String) : Except GenerateError (List KvCache) :=
  match self.kv with
  | some kv => .ok kv
  | none => .error (.kvStateLost message)

def directKv (self : RealRequestState) (registry : RequestRegistry) :
    Except GenerateError (List KvCache) × RealRequestState × RequestRegistry :=
  let message := "request holds no KV state and none is registered with the scheduler"
  if self.kv.isNone then
    let (released,state,rest) := self.releaseSchedulerToLocal registry
    (released.bind fun _ => state.localKv message,state,rest)
  else (self.localKv message,self,registry)

def takeKv (self : RealRequestState) (registry : RequestRegistry) :
    Except GenerateError (List KvCache) × RealRequestState × RequestRegistry :=
  let (released,state,rest) := self.releaseSchedulerToLocal registry
  (released.bind fun _ => state.localKv "request holds no KV state to persist",
    { state with kv := none },rest)

/-- The registry entry that a call is submitted for: only a decode step registers the request. -/
def submit (self : RealRequestState) (registry : RequestRegistry) :
    StepMode → Option ℕ × RealRequestState × RequestRegistry
  | .decode => self.ensureSchedulerRegistered registry
  | .forwardHidden => (if self.scheduler then self.requestId else none,self,registry)

end RealRequestState

/-- What the caller of `step_registered` or `forward_registered` gets at the end of a task. -/
def received (mode : StepMode) : Phase → Option (Except BatchError ScheduledResponse)
  | .replied (.ok response) =>
    some (if response.mode = mode then .ok response else .error .schedulerClosed)
  | .replied (.error e) => some (.error e)
  | .lost _ => some (.error .schedulerClosed)
  | _ => none

/-- The rows that a task without a reply has left behind. -/
def Phase.appended : Phase → ℕ
  | .lost k => k
  | _ => 0

/-- The call of the model on the caches of the request. -/
inductive Direct (call : TokenCall) : RealRequestState × RequestRegistry →
    Except GenerateError ScheduledResponse → RealRequestState × RequestRegistry → Prop
  | complete {state registry kv state' registry' response}
    (h : RealRequestState.directKv state registry = (.ok kv,state',registry'))
    (hmode : response.mode = call.mode) :
    Direct call (state,registry) (.ok response)
      ({ state' with kv := some (appendLeading kv.length call.row kv) },registry')
  | fail {state registry kv state' registry' message k}
    (h : RealRequestState.directKv state registry = (.ok kv,state',registry'))
    (hk : k ≤ kv.length) :
    Direct call (state,registry) (.error (.inference message))
      ({ state' with kv := some (appendLeading k call.row kv) },registry')
  | none {state registry e state' registry'}
    (h : RealRequestState.directKv state registry = (.error e,state',registry')) :
    Direct call (state,registry) (.error e) (state',registry')

/-- `forward_token_hidden` and `decode_step`, with the rows that a lost step has left behind. -/
inductive Call (call : TokenCall) : RealRequestState × RequestRegistry →
    Except GenerateError ScheduledResponse → ℕ → RealRequestState × RequestRegistry → Prop
  | answered {state registry id state' registry' phase after response}
    (h : RealRequestState.submit state registry call.mode = (some id,state',registry'))
    (hrun : ReflTransGen (TaskStep ⟨id,call.row,call.mode⟩) (.queued,registry') (phase,after))
    (hreply : received call.mode phase = some (.ok response)) :
    Call call (state,registry) (.ok response) 0 (state',after)
  | failed {state registry id state' registry' phase after message}
    (h : RealRequestState.submit state registry call.mode = (some id,state',registry'))
    (hrun : ReflTransGen (TaskStep ⟨id,call.row,call.mode⟩) (.queued,registry') (phase,after))
    (hreply : received call.mode phase = some (.error (.inference message))) :
    Call call (state,registry) (.error (.inference s!"inference failed: {message}")) 0 (state',after)
  | fellBack {state registry id state' registry' phase after e result final}
    (h : RealRequestState.submit state registry call.mode = (some id,state',registry'))
    (hrun : ReflTransGen (TaskStep ⟨id,call.row,call.mode⟩) (.queued,registry') (phase,after))
    (hreply : received call.mode phase = some (.error e)) (he : ∀ message, e ≠ .inference message)
    (hdirect : Direct call (state',after) result final) :
    Call call (state,registry) result phase.appended final
  | direct {state registry state' registry' result final}
    (h : RealRequestState.submit state registry call.mode = (none,state',registry'))
    (hdirect : Direct call (state',registry') result final) :
    Call call (state,registry) result 0 final

/-- A call of a request that went on, and the rows that a lost step of it has left behind. -/
structure Served where
  call : TokenCall
  lost : ℕ

/-- A request whose calls all succeed, between the operations of other requests. -/
inductive Serves : RealRequestState × RequestRegistry → List Served →
    RealRequestState × RequestRegistry → Prop
  | start {state registry} : Serves (state,registry) [] (state,registry)
  | others {begun served state before after} (hserves : Serves begun served (state,before))
    (h : ∀ id, state.requestId = some id → RequestRegistry.Others id before after)
    (hnext : before.next ≤ after.next) : Serves begun served (state,after)
  | call {begun served current call response lost next} (hserves : Serves begun served current)
    (h : Call call current (.ok response) lost next) :
    Serves begun (served++[⟨call,lost⟩]) next

/-- The caches of a request stay with it or stand in the registry, with no task that holds them. -/
inductive Has : RealRequestState × RequestRegistry → List KvCache → Prop
  | own {scheduler registry kv} : Has (⟨scheduler,none,some kv⟩,registry) kv
  | registered {id registry kv} (h : registry.table id = some ⟨kv,1⟩) :
    Has (⟨true,some id,none⟩,registry) kv

section Calls
variable {state state' : RealRequestState} {registry registry' : RequestRegistry}
  {kv : List KvCache} {token : TokenCall}

/-- A release of what the request has. -/
lemma Has.release (h : Has (state,registry) kv) : ∃ rest,
    state.releaseSchedulerToLocal registry = (.ok (),⟨false,none,some kv⟩,rest) := by
  cases h with
  | @own scheduler =>
    cases scheduler with
    | false => exact ⟨registry,rfl⟩
    | true => exact ⟨registry,rfl⟩
  | @registered id registry kv h =>
    refine ⟨(registry.release id).2,?_⟩
    unfold RealRequestState.releaseSchedulerToLocal
    dsimp only
    rw [RequestRegistry.release_of_last h]
    rfl

/-- What the direct path finds. -/
lemma Has.directKv (h : Has (state,registry) kv) : ∃ scheduler rest,
    state.directKv registry = (.ok kv,⟨scheduler,none,some kv⟩,rest) := by
  cases h with
  | @own scheduler => exact ⟨scheduler,registry,rfl⟩
  | @registered id registry kv h =>
    obtain ⟨rest,hrelease⟩ := (Has.registered h).release
    refine ⟨false,rest,?_⟩
    unfold RealRequestState.directKv
    dsimp only
    rw [if_pos (by simp), hrelease]
    rfl

/-- A direct call that succeeds appends one row to each layer. -/
lemma Has.direct (h : Has (state,registry) kv) {response : ScheduledResponse}
    {final : RealRequestState × RequestRegistry}
    (hdirect : Direct token (state,registry) (.ok response) final) :
    Has final (appendLeading kv.length token.row kv) := by
  obtain ⟨scheduler,rest,hkv⟩ := h.directKv
  cases hdirect with
  | complete hdirect _ =>
    rw [hkv] at hdirect
    cases hdirect
    exact .own

/-- A submitted step is registered with the caches of the request. -/
lemma Has.submit (h : Has (state,registry) kv) {mode : StepMode} {id : ℕ}
    (hsubmit : state.submit registry mode = (some id,state',registry')) :
    state' = ⟨true,some id,none⟩ ∧ registry'.table id = some ⟨kv,1⟩ := by
  cases h with
  | @own scheduler =>
    cases scheduler with
    | false => cases mode <;> cases hsubmit
    | true =>
      cases mode with
      | decode =>
        cases hsubmit
        exact ⟨rfl,RequestRegistry.table_register registry kv⟩
      | forwardHidden => cases hsubmit
  | registered h =>
    cases mode with
    | decode =>
      cases hsubmit
      exact ⟨rfl,h⟩
    | forwardHidden =>
      cases hsubmit
      exact ⟨rfl,h⟩

lemma Has.submit_none (h : Has (state,registry) kv) {mode : StepMode}
    (hsubmit : state.submit registry mode = (none,state',registry')) :
    state' = state ∧ registry' = registry := by
  cases h with
  | @own scheduler =>
    cases scheduler with
    | false => cases mode <;> cases hsubmit <;> exact ⟨rfl,rfl⟩
    | true =>
      cases mode with
      | decode => cases hsubmit
      | forwardHidden =>
        cases hsubmit
        exact ⟨rfl,rfl⟩
  | registered h =>
    cases mode with
    | decode => cases hsubmit
    | forwardHidden => cases hsubmit

/-- What a successful call leaves: the row of the token behind the rows of a lost step. -/
lemma Has.call (h : Has (state,registry) kv) {response : ScheduledResponse} {lost : ℕ}
    {final : RealRequestState × RequestRegistry}
    (hcall : Call token (state,registry) (.ok response) lost final) : lost ≤ kv.length ∧
      Has final ((appendLeading lost token.row kv).map (·++[token.row])) := by
  cases hcall with
  | @answered _ _ id _ _ phase after _ hsubmit hrun hreply =>
    obtain ⟨rfl,hentry⟩ := h.submit hsubmit
    obtain ⟨entry,hentry',hholds⟩ := holds_run hentry hrun
    cases phase with
    | replied result =>
      obtain ⟨k,rfl,hdone⟩ := hholds
      cases result with
      | error e => cases hreply
      | ok response' =>
        obtain ⟨rfl,-⟩ := hdone
        rw [appendLeading_zero, ← appendLeading_length]
        exact ⟨Nat.zero_le _,.registered hentry'⟩
    | _ => cases hreply
  | @fellBack _ _ id _ _ phase after e _ _ hsubmit hrun hreply he hdirect =>
    obtain ⟨rfl,hentry⟩ := h.submit hsubmit
    obtain ⟨entry,hentry',hholds⟩ := holds_run hentry hrun
    cases phase with
    | replied result =>
      obtain ⟨k,rfl,hdone⟩ := hholds
      cases result with
      | error e' =>
        obtain ⟨hk,message,rfl⟩ := hdone
        cases hreply
        exact absurd rfl (he message)
      | ok response' =>
        obtain ⟨-,hmode⟩ := hdone
        rw [received, if_pos hmode] at hreply
        cases hreply
    | lost k =>
      obtain ⟨hk,rfl⟩ := hholds
      have hhas := (Has.registered hentry').direct hdirect
      rw [appendLeading_length] at hhas
      exact ⟨hk,hhas⟩
    | _ => cases hreply
  | direct hsubmit hdirect =>
    obtain ⟨rfl,rfl⟩ := h.submit_none hsubmit
    rw [appendLeading_zero, ← appendLeading_length]
    exact ⟨Nat.zero_le _,h.direct hdirect⟩

lemma Has.others {before after : RequestRegistry} (h : Has (state,before) kv)
    (hothers : ∀ id, state.requestId = some id → RequestRegistry.Others id before after) :
    Has (state,after) kv := by
  cases h with
  | own => exact .own
  | registered h => exact .registered ((hothers _ rfl).entry.trans h)

end Calls

section Runs
variable {kv : List KvCache} {served : List Served}

/-- The caches after a call: the rows a lost step has left behind, then the row of the token. -/
def ingestOne (kv : List KvCache) (step : Served) : List KvCache :=
  (appendLeading step.lost step.call.row kv).map (·++[step.call.row])

def ingest (kv : List KvCache) (served : List Served) : List KvCache := served.foldl ingestOne kv

/-- The number of rows of all layers. -/
def rows (kv : List KvCache) : ℕ := (kv.map List.length).sum

@[simp] lemma length_ingest (kv : List KvCache) (served : List Served) :
    (ingest kv served).length = kv.length := by
  induction served using List.reverseRecOn with
  | nil => rfl
  | append_singleton served step ih => simp [ingest, ingestOne] at ih ⊢; exact ih

lemma rows_map (row : Row) (kv : List KvCache) : rows (kv.map (·++[row])) = rows kv+kv.length := by
  induction kv with
  | nil => rfl
  | cons layer kv ih =>
    simp only [rows, List.map_cons, List.sum_cons, List.length_append, List.length_cons,
      List.length_nil] at ih ⊢
    omega

lemma rows_append (a b : List KvCache) : rows (a++b) = rows a+rows b := by simp [rows]

lemma rows_appendLeading {k : ℕ} (hk : k ≤ kv.length) (row : Row) :
    rows (appendLeading k row kv) = rows kv+k := by
  have hsplit := congrArg rows (List.take_append_drop k kv)
  rw [rows_append] at hsplit
  rw [appendLeading, rows_append, rows_map, List.length_take, min_eq_left hk]
  omega

/-- Every call adds a row to each layer, and the rows of its lost step. -/
lemma rows_ingest (hlost : ∀ step ∈ served, step.lost ≤ kv.length) :
    rows (ingest kv served) =
      rows kv+(served.map Served.lost).sum+served.length*kv.length := by
  induction served using List.reverseRecOn with
  | nil => simp [ingest]
  | append_singleton served step ih =>
    have hstep := hlost step (by simp)
    have hrest := ih fun other hmem => hlost other (List.mem_append_left _ hmem)
    have hone : ingest kv (served++[step]) = ingestOne (ingest kv served) step := by simp [ingest]
    rw [hone, ingestOne, rows_map, length_appendLeading, length_ingest,
      rows_appendLeading (by rw [length_ingest]; exact hstep), hrest]
    simp only [List.map_append, List.map_cons, List.map_nil, List.sum_append, List.sum_cons,
      List.sum_nil, List.length_append, List.length_cons, List.length_nil, Nat.add_mul]
    omega

lemma rows_exact (kv : List KvCache) (new : List Row) :
    rows (kv.map (·++new)) = rows kv+new.length*kv.length := by
  induction kv with
  | nil => simp [rows]
  | cons layer kv ih =>
    simp only [rows, List.map_cons, List.sum_cons, List.length_append, List.length_cons,
      Nat.mul_add] at ih ⊢
    omega

/-- The caches hold one row for each call exactly when no lost step has left any behind. -/
lemma ingest_eq_iff (hlost : ∀ step ∈ served, step.lost ≤ kv.length) :
    ingest kv served = kv.map (·++served.map fun step => step.call.row) ↔
      ∀ step ∈ served, step.lost = 0 := by
  constructor
  · intro h
    have hrows := congrArg rows h
    rw [rows_ingest hlost, rows_exact, List.length_map] at hrows
    have hsum : (served.map Served.lost).sum = 0 := by omega
    intro step hmem
    exact List.sum_eq_zero_iff.mp hsum _ (List.mem_map_of_mem hmem)
  · intro h
    clear hlost
    induction served using List.reverseRecOn with
    | nil => simp [ingest]
    | append_singleton served step ih =>
      have hone : ingest kv (served++[step]) = ingestOne (ingest kv served) step := by simp [ingest]
      rw [hone, ih fun other hmem => h other (List.mem_append_left _ hmem), ingestOne,
        h step (by simp), appendLeading_zero]
      simp

/-- What a request has at every moment of its run; by induction on its calls. -/
lemma Serves.has {scheduler : Bool} {registry : RequestRegistry}
    {current : RealRequestState × RequestRegistry}
    (hserves : Serves (RealRequestState.new scheduler kv,registry) served current) :
    (∀ step ∈ served, step.lost ≤ kv.length) ∧ Has current (ingest kv served) := by
  generalize hbegun : (RealRequestState.new scheduler kv,registry) = begun at hserves
  induction hserves with
  | start =>
    cases hbegun
    exact ⟨by simp,.own⟩
  | others _ hothers _ ih =>
    obtain ⟨hlost,hhas⟩ := ih hbegun
    exact ⟨hlost,hhas.others hothers⟩
  | @call begun served current token response lost next _ hcall ih =>
    obtain ⟨hlost,hhas⟩ := ih hbegun
    obtain ⟨hle,hnext⟩ := hhas.call hcall
    rw [length_ingest] at hle
    refine ⟨fun step hmem => ?_,?_⟩
    · rcases List.mem_append.mp hmem with hold | hnew
      · exact hlost step hold
      · rw [List.mem_singleton.mp hnew]
        exact hle
    · rw [ingest, List.foldl_append]
      exact hnext

lemma Has.takeKv {state : RealRequestState} {registry : RequestRegistry}
    (h : Has (state,registry) kv) : ∃ rest, state.takeKv registry = (.ok kv,rest) := by
  obtain ⟨rest,hrelease⟩ := h.release
  refine ⟨(⟨false,none,none⟩,rest),?_⟩
  unfold RealRequestState.takeKv
  rw [hrelease]
  rfl

end Runs

/-- A request that ends well has one row for each of its tokens in every layer, in order, exactly when
no lost step has left rows behind; and a release after a reply returns its caches. -/
theorem ingested_once_iff (scheduler : Bool) (kv : List KvCache) (registry registry' : RequestRegistry)
    (served : List Served) (state : RealRequestState)
    (hserves : Serves (RealRequestState.new scheduler kv,registry) served (state,registry')) :
    (∃ final rest, state.takeKv registry' = (.ok final,rest) ∧
      (final = kv.map (·++served.map fun step => step.call.row) ↔
        ∀ step ∈ served, step.lost = 0)) ∧
    ∀ (id : ℕ) (row : Row) (mode : StepMode) (begun : RealRequestState)
      (before after : RequestRegistry) (result : Except BatchError ScheduledResponse),
      state.submit registry' mode = (some id,begun,before) →
      ReflTransGen (TaskStep ⟨id,row,mode⟩) (.queued,before) (.replied result,after) →
      ∃ k ≤ kv.length, (after.release id).1 = some (appendLeading k row (ingest kv served)) := by
  obtain ⟨hlost,hhas⟩ := hserves.has
  refine ⟨?_,fun id row mode begun before after result hsubmit hrun => ?_⟩
  · obtain ⟨rest,htake⟩ := hhas.takeKv
    exact ⟨_,rest,htake,ingest_eq_iff hlost⟩
  · obtain ⟨-,hentry⟩ := hhas.submit hsubmit
    have hrelease := @release_of_replied ⟨id,row,mode⟩ _ _ _ _ hentry hrun
    rw [length_ingest] at hrelease
    exact hrelease

/-- A registry without requests. -/
def RequestRegistry.empty : RequestRegistry := ⟨0,fun _ => none,fun _ _ => rfl⟩

/-- The first token of a request with one layer, as a decode step. -/
def firstToken : TokenCall := ⟨⟨7,0⟩,.decode⟩

/-- The registry when the step is submitted. -/
def firstSubmitted : RequestRegistry := (RequestRegistry.empty.register [[]]).2

/-- The registry when the task of the step has come to its end. -/
def firstEnded : RequestRegistry := ((firstSubmitted.get 0).append 0 1 ⟨7,0⟩).dropClone 0

lemma task_completes : ReflTransGen (TaskStep ⟨0,⟨7,0⟩,.decode⟩) (.queued,firstSubmitted)
    (.replied (.ok (.nextToken 1)),firstEnded) := by
  have hentry : (firstSubmitted.get 0).table 0 = some ⟨[[]],2⟩ := rfl
  have hget : firstSubmitted.table 0 ≠ none := Option.some_ne_none _
  exact .tail (.tail (.tail (.single (.get hget)) (.complete hentry rfl)) .drop) .send

lemma task_panics : ReflTransGen (TaskStep ⟨0,⟨7,0⟩,.decode⟩) (.queued,firstSubmitted)
    (.lost 1,firstEnded) := by
  have hentry : (firstSubmitted.get 0).table 0 = some ⟨[[]],2⟩ := rfl
  have hget : firstSubmitted.table 0 ≠ none := Option.some_ne_none _
  exact .tail (.tail (.tail (.single (.get hget)) (.panic hentry le_rfl)) .unwind) .hangUp

/-- The row is in the caches when the step is completed. -/
theorem ingested_once_completed : ∃ state registry final rest,
    RealRequestState.takeKv state registry = (.ok final,rest) ∧
      (final = [[]].map (·++[⟨firstToken,0⟩].map fun step : Served => step.call.row) ↔
        ∀ step ∈ [(⟨firstToken,0⟩ : Served)], step.lost = 0) := by
  have hcall : Call firstToken (RealRequestState.new true [[]],RequestRegistry.empty)
    (.ok (.nextToken 1)) 0 (⟨true,some 0,none⟩,firstEnded) := .answered rfl task_completes rfl
  exact ⟨_,_,(ingested_once_iff true [[]] _ _ _ _ (.call .start hcall)).1⟩

/-- A step that dies behind its row is run again: the request ends well with the row twice. -/
theorem firstToken_ingested_twice : ∃ state registry rest, Serves
    (RealRequestState.new true [[]],RequestRegistry.empty) [⟨firstToken,1⟩] (state,registry) ∧
    state.takeKv registry = (.ok [[⟨7,0⟩,⟨7,0⟩]],rest) := by
  have hkv : RealRequestState.directKv ⟨true,some 0,none⟩ firstEnded =
    (.ok [[⟨7,0⟩]],⟨false,none,some [[⟨7,0⟩]]⟩,(firstEnded.release 0).2) := rfl
  have hdirect := @Direct.complete firstToken _ _ _ _ _ (.nextToken 1) hkv rfl
  have hcall : Call firstToken (RealRequestState.new true [[]],RequestRegistry.empty) _ 1 _ :=
    .fellBack rfl task_panics rfl (by simp) hdirect
  exact ⟨_,_,_,.call .start hcall,rfl⟩

end MicroExpertRouter.Scheduler
