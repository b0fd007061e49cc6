import MicroExpertRouter.IoUring.Soundness

/-! The reactor and the callers of the io_uring backend do what the ownership logic allows. What
carries the reactor is its table of batches: each has as many entries on the ring as it counts, under
its own slot, and every completion so far is booked. -/
namespace MicroExpertRouter.IoUring

section Records
variable {req : ReactorRequest} {entries : Multiset Sqe} {targets : Multiset (Buffer × Option ℕ)}
  {totalBytes : ℕ} {firstErr : Option IoError} {cqe : Cqe}

/-- What a completion leaves in the buffer. -/
def Cqe.read (self : Cqe) : Option ℕ :=
  if self.result = self.entry.len then some self.entry.fd else none

/-- The completions of a request so far: these entries are still to come, and the buffers of the
others are back. Without an error all of them are full reads. -/
structure Recorded (req : ReactorRequest) (entries : Multiset Sqe)
    (targets : Multiset (Buffer × Option ℕ)) (totalBytes : ℕ) (firstErr : Option IoError) : Prop where
  whole : entries.map Sqe.ptr+targets.map Prod.fst = req.ptrs
  clean : firstErr = none → entries.map (fun entry => (entry.ptr,some entry.fd))+targets = req.allRead
  total : firstErr = none → totalBytes = Multiset.card targets*req.len
  lens : ∀ entry ∈ entries, entry.len = req.len%2^32
  honest : ∀ e, firstErr = some e → e.isInternal = false

/-- What a request is answered when no entry writes to its buffers any more. -/
structure Answered (req : ReactorRequest) (targets : Multiset (Buffer × Option ℕ))
    (result : Except IoError ℕ) : Prop where
  whole : targets.map Prod.fst = req.ptrs
  full : ∀ n, result = .ok n → n = req.prepared.length*req.len ∧ targets = req.allRead
  honest : ∀ e, result = .error e → e.isInternal = false

/-- A completion of exactly the asked length was full. -/
lemma record_none {len id : ℕ} {result : ℤ} (h : (record len id result totalBytes firstErr).2 = none) :
    firstErr = none ∧ result = len ∧
      (record len id result totalBytes firstErr).1 = totalBytes+len := by
  unfold record at h ⊢
  split_ifs at h ⊢ with hnegative hshort
  rw [not_not] at hshort
  exact ⟨h,by omega,by rw [hshort]⟩

lemma record_honest {len id : ℕ} {result : ℤ} (h : ∀ e, firstErr = some e → e.isInternal = false) :
    ∀ e, (record len id result totalBytes firstErr).2 = some e → e.isInternal = false := by
  intro e he
  unfold record at he
  split_ifs at he
  · cases firstErr with
    | none =>
      cases he
      rfl
    | some first => exact h e he
  · cases firstErr with
    | none =>
      cases he
      rfl
    | some first => exact h e he
  · exact h e he

lemma Recorded.next (h : Recorded req entries targets totalBytes firstErr)
    (hmem : cqe.entry ∈ entries) (hle : cqe.result ≤ cqe.entry.len) (id : ℕ) :
    Recorded req (entries.erase cqe.entry) ((cqe.entry.ptr,cqe.read)::ₘ targets)
      (record req.len id cqe.result totalBytes firstErr).1
      (record req.len id cqe.result totalBytes firstErr).2 := by
  obtain ⟨rest,rfl⟩ := Multiset.exists_cons_of_mem hmem
  rw [Multiset.erase_cons_head]
  refine ⟨?_,fun hnone => ?_,fun hnone => ?_,fun entry hentry => h.lens entry (by simp [hentry]),
    record_honest h.honest⟩
  · rw [← h.whole, Multiset.map_cons, Multiset.map_cons, Multiset.add_cons, Multiset.cons_add]
  · obtain ⟨hfirst,hresult,-⟩ := record_none hnone
    have hlen := h.lens cqe.entry (Multiset.mem_cons_self _ _)
    have hfull : cqe.read = some cqe.entry.fd := by
      refine if_pos ?_
      have hmod := Nat.mod_le req.len (2^32)
      omega
    rw [← h.clean hfirst, hfull, Multiset.map_cons, Multiset.add_cons, Multiset.cons_add]
  · obtain ⟨hfirst,-,htotal⟩ := record_none hnone
    rw [htotal, h.total hfirst, Multiset.card_cons, Nat.add_mul, Nat.one_mul]

/-- With the last completion the reply is right. -/
lemma Recorded.last (h : Recorded req 0 targets totalBytes firstErr) :
    Answered req targets (outcome totalBytes firstErr) := by
  refine ⟨by simpa using h.whole,fun n hn => ?_,fun e he => ?_⟩
  · cases firstErr with
    | some e => cases hn
    | none =>
      cases hn
      have hall : targets = req.allRead := by simpa using h.clean rfl
      refine ⟨?_,hall⟩
      rw [h.total rfl, hall, ReactorRequest.allRead, Multiset.card_map, Multiset.coe_card]
  · cases firstErr with
    | some first =>
      cases he
      exact h.honest e rfl
    | none => cases he

end Records

section Ring
variable {healthy : Bool} {cap : ℕ} {α : Type} {goal : α → Multiset Token → Prop}
  {frame : Multiset Token} {view : View} {req : ReactorRequest}

/-- The same entries and requests. -/
structure View.Same (view next : View) : Prop where
  entries : next.entries = view.entries
  taken : next.taken = view.taken
  ended : next.ended = view.ended

lemma View.Same.refl (view : View) : view.Same view := ⟨rfl,rfl,rfl⟩

/-- A completion belongs to an entry that was pushed. -/
lemma completionLeaves_cases {cqe : Cqe} {left : Multiset Token}
    (h : completionLeaves view cqe = some left) :
    cqe.entry ∈ view.entries ∧ cqe.result ≤ cqe.entry.len ∧
      left = {.ring { view with entries := view.entries.erase cqe.entry }}+
        {.target cqe.entry.ptr cqe.read} := by
  rw [completionLeaves] at h
  split at h
  · rename_i hcqe
    exact ⟨hcqe.1,hcqe.2,(Option.some.inj h).symm⟩
  · cases h

/-- One more entry. -/
def View.push (self : View) (sqe : Sqe) : View :=
  { self with entries := sqe::ₘ self.entries, flushed := false }

lemma owns_pushRetrying {f : Except PushFailure ℕ → Task α} (sqe : Sqe) (left submitted : ℕ)
    (hok : ∀ n, Owns (logic healthy cap) goal (f (.ok n)) ({.ring (view.push sqe)}+frame))
    (hfail : ∀ failure next, healthy = false → view.Same next → Owns (logic healthy cap) goal
      (f (.error failure)) ({.ring next}+({.target sqe.ptr none}+frame))) :
    Owns (logic healthy cap) goal (pushRetrying sqe left submitted >>= f)
      ({.ring view}+({.target sqe.ptr none}+frame)) := by
  induction left generalizing submitted view with
  | zero =>
    rw [pushRetrying, bind_assoc]
    refine Owns.ask frame (.push view sqe) (by abel) (fun _ _ => trivial) ?_
    rintro (_ | _) left hleft
    · cases healthy with
      | true => cases hleft
      | false =>
        cases hleft
        rw [add_assoc]
        exact hfail _ _ rfl (.refl view)
    · cases hleft
      exact hok submitted
  | succ left ih =>
    rw [pushRetrying, bind_assoc]
    refine Owns.ask frame (.push view sqe) (by abel) (fun _ _ => trivial) ?_
    rintro (_ | _) after hafter
    · cases healthy with
      | true => cases hafter
      | false =>
        cases hafter
        simp only [bind_assoc]
        refine Owns.ask ({.target sqe.ptr none}+frame) (.submit view) (by abel) (fun _ _ => trivial) ?_
        rintro (code | n) after hafter
        · cases hafter
          exact hfail _ _ rfl (.refl view)
        · cases hafter
          exact ih (submitted+n) hok fun failure next _ hsame =>
            hfail failure next rfl ⟨hsame.entries,hsame.taken,hsame.ended⟩
    · cases hafter
      exact hok submitted

/-- The entries of some reads. -/
def entriesOf (slot len : ℕ) (reads : List Prepared) : Multiset Sqe :=
  (reads : Multiset Prepared).map (sqeOf slot len)

def unreadOf (reads : List Prepared) : Multiset (Buffer × Option ℕ) :=
  (reads : Multiset Prepared).map fun read => (read.ptr,none)

@[simp] lemma entriesOf_nil (slot len : ℕ) : entriesOf slot len [] = 0 := rfl

@[simp] lemma entriesOf_cons (slot len : ℕ) (read : Prepared) (reads : List Prepared) :
    entriesOf slot len (read::reads) = sqeOf slot len read::ₘ entriesOf slot len reads := rfl

@[simp] lemma unreadOf_nil : unreadOf [] = 0 := rfl

@[simp] lemma unreadOf_cons (read : Prepared) (reads : List Prepared) :
    unreadOf (read::reads) = (read.ptr,none)::ₘ unreadOf reads := rfl

lemma unreadOf_prepared (req : ReactorRequest) : unreadOf req.prepared = req.unread := rfl

@[simp] lemma map_ptr_entriesOf (slot len : ℕ) (reads : List Prepared) :
    (entriesOf slot len reads).map Sqe.ptr = (unreadOf reads).map Prod.fst := by
  simp [entriesOf, unreadOf, sqeOf, Function.comp_def]

/-- A batch of which these entries were pushed. -/
lemma Recorded.pushed {done rest : List Prepared} {pushErr : Option IoError} (slot : ℕ)
    (hreads : req.prepared = done++rest) (hrest : pushErr = none → rest = [])
    (hhonest : ∀ e, pushErr = some e → e.isInternal = false) :
    Recorded req (entriesOf slot req.len done) (unreadOf rest) 0 pushErr where
  whole := by
    rw [map_ptr_entriesOf, ← Multiset.map_add, unreadOf, unreadOf, ← Multiset.map_add, Multiset.coe_add,
      ← hreads]
    exact req.unread_fst
  clean hnone := by
    rw [ReactorRequest.allRead, hreads, hrest hnone, List.append_nil, unreadOf_nil, add_zero, entriesOf,
      Multiset.map_map]
    rfl
  total hnone := by rw [hrest hnone, unreadOf_nil, Multiset.card_zero, Nat.zero_mul]
  lens entry hentry := by
    obtain ⟨read,-,rfl⟩ := Multiset.mem_map.mp hentry
    rfl
  honest := hhonest

lemma Recorded.start (slot : ℕ) (req : ReactorRequest) :
    Recorded req (entriesOf slot req.len req.prepared) 0 0 none :=
  .pushed slot (List.append_nil _).symm (fun _ => rfl) nofun

/-- The entries of a batch are pushed in order, all of them on a ring that never failed. -/
lemma owns_pushBatch {f : ℕ × Option IoError → Task α} (slot len : ℕ) (reads : List Prepared) (pushed : ℕ)
    (hnext : ∀ done rest pushErr next, reads = done++rest → (pushErr = none → rest = []) →
      (∀ e, pushErr = some e → e.isInternal = false) → next.entries = view.entries+entriesOf slot len done →
      next.taken = view.taken → next.ended = view.ended →
      Owns (logic healthy cap) goal (f (pushed+done.length,pushErr))
        ({.ring next}+(targetTokens (unreadOf rest)+frame))) :
    Owns (logic healthy cap) goal (Reactor.pushBatch slot len reads pushed >>= f)
      ({.ring view}+(targetTokens (unreadOf reads)+frame)) := by
  induction reads generalizing pushed view with
  | nil => exact hnext [] [] none view rfl (fun _ => rfl) nofun (by simp) rfl rfl
  | cons read reads ih =>
    rw [Reactor.pushBatch, bind_assoc, unreadOf_cons, targetTokens_cons, add_assoc]
    refine owns_pushRetrying (sqeOf slot len read) maxPushRetries 0 (fun n => ?_)
      (fun failure next _ hsame => ?_)
    · refine ih (pushed+1) fun done rest pushErr next hreads hrest herr hentries htaken hended => ?_
      have hmore := hnext (read::done) rest pushErr next (by rw [hreads]; rfl) hrest herr
        (by rw [hentries, View.push, entriesOf_cons]; simp) htaken hended
      rw [List.length_cons] at hmore
      convert hmore using 3
      omega
    · have hstop : ∀ e, e.isInternal = false → Owns (logic healthy cap) goal (f (pushed,some e))
          ({.ring next}+({.target (sqeOf slot len read).ptr none}+(targetTokens (unreadOf reads)+frame))) := by
        intro e he
        have hmore := hnext [] (read::reads) (some e) next rfl nofun
          (fun other hother => Option.some.inj hother ▸ he) (by simp [hsame.entries]) hsame.taken
          hsame.ended
        rw [unreadOf_cons, targetTokens_cons, add_assoc] at hmore
        exact hmore
      cases failure with
      | refused submitted => exact hstop _ rfl
      | submit code => exact hstop _ rfl

/-- The reply to a request whose buffers no entry writes to any more. -/
lemma owns_answer {f : Unit → Task α} {result : Except IoError ℕ}
    {targets : Multiset (Buffer × Option ℕ)} (h : Answered req targets result)
    (hnext : Owns (logic healthy cap) goal (f ()) frame) :
    Owns (logic healthy cap) goal (Reactor.answer req.reply req.keepAlive result >>= f)
      ({.request req}+{.keepAlive req}+targetTokens targets+frame) := by
  rw [Reactor.answer, bind_assoc]
  cases result with
  | error e =>
    refine Owns.ask ({.keepAlive req}+targetTokens targets+frame) (.replyError req e (h.honest e rfl))
      (by abel) (fun _ _ => trivial) ?_
    rintro ⟨⟩ left ⟨⟩
    rw [zero_add]
    refine Owns.ask frame (.dropKeepAlive req targets h.whole) rfl (fun _ _ => trivial) ?_
    rintro ⟨⟩ left ⟨⟩
    rwa [zero_add]
  | ok n =>
    obtain ⟨rfl,rfl⟩ := h.full n rfl
    refine Owns.ask frame (.replyOk req) rfl (fun _ _ => trivial) ?_
    rintro ⟨⟩ left ⟨⟩
    refine Owns.ask frame (.dropSpent req) rfl (fun _ _ => trivial) ?_
    rintro ⟨⟩ left ⟨⟩
    rwa [zero_add]

/-- What was handed over is waited for. -/
lemma owns_submitAndWait {f : Except ℕ Unit → Task α} {want : ℕ}
    (hwant : want ≤ Multiset.card view.entries)
    (hok : ∀ next, view.Same next → Owns (logic healthy cap) goal (f (.ok ())) ({.ring next}+frame))
    (hfail : ∀ code next, healthy = false → view.Same next →
      Owns (logic healthy cap) goal (f (.error code)) ({.ring next}+frame)) :
    Owns (logic healthy cap) goal (submitAndWait want >>= f) ({.ring view}+frame) := by
  rw [submitAndWait, bind_assoc]
  refine Owns.ask frame (.submit view) rfl (fun _ _ => trivial) ?_
  rintro (code | n) left hleft
  · cases healthy with
    | true => cases hleft
    | false =>
      cases hleft
      exact hfail code view rfl (.refl view)
  · cases hleft
    refine Owns.ask frame (.waitFor { view with flushed := true } want rfl hwant) rfl
      (fun _ _ => trivial) ?_
    rintro (code | ⟨⟩) left hleft
    · cases healthy with
      | true => cases hleft
      | false =>
        cases hleft
        exact hfail code _ rfl ⟨rfl,rfl,rfl⟩
    · cases hleft
      exact hok _ ⟨rfl,rfl,rfl⟩

end Ring

section Exclusive
variable {cap : ℕ} {α : Type} {goal : α → Multiset Token → Prop} {frame : Multiset Token}
  {view : View} {req : ReactorRequest}

/-- On a ring that never failed all windows are pushed. -/
lemma owns_pushWindows {f : Except PushFailure ℕ → Task α} (window len : ℕ) (reads : List Prepared)
    (pushed submitted : ℕ)
    (hnext : ∀ n next, next.entries = view.entries+entriesOf 0 len reads → next.taken = view.taken →
      next.ended = view.ended → Owns (logic true cap) goal (f (.ok n)) ({.ring next}+frame)) :
    Owns (logic true cap) goal (pushWindows window len reads pushed submitted >>= f)
      ({.ring view}+(targetTokens (unreadOf reads)+frame)) := by
  induction reads generalizing pushed submitted view with
  | nil =>
    rw [unreadOf_nil, targetTokens_zero, zero_add]
    exact hnext submitted view (by simp) rfl rfl
  | cons read reads ih =>
    rw [pushWindows, bind_assoc, unreadOf_cons, targetTokens_cons, add_assoc]
    refine owns_pushRetrying (sqeOf 0 len read) maxPushRetries submitted (fun n => ?_)
      (fun _ _ hfaulty _ => Bool.noConfusion hfaulty)
    have hrest : ∀ submitted flushed, Owns (logic true cap) goal
        (pushWindows window len reads (pushed+1) submitted >>= f)
        ({.ring { view.push (sqeOf 0 len read) with flushed := flushed }}+
          (targetTokens (unreadOf reads)+frame)) := by
      refine fun submitted flushed => ih (pushed+1) submitted fun n next hentries htaken hended =>
        hnext n next ?_ htaken hended
      rw [hentries, View.push, entriesOf_cons]
      simp
    dsimp only
    split_ifs with hwindow
    · simp only [bind_assoc]
      refine Owns.ask (targetTokens (unreadOf reads)+frame) (.submit _) rfl (fun _ _ => trivial) ?_
      rintro (code | more) left hleft
      · cases hleft
      · cases hleft
        exact hrest _ true
    · exact hrest n false

/-- What a batch alone on the ring still waits for is on the ring. -/
lemma owns_drainWindow {f : Option (Except IoError ℕ) → Task α} (total : ℕ)
    (hout : ∀ held, Owns (logic true cap) goal (f none) held) (fuel drained totalBytes : ℕ)
    (firstErr : Option IoError) (targets : Multiset (Buffer × Option ℕ))
    (hrecorded : Recorded req view.entries targets totalBytes firstErr)
    (hdrained : drained+Multiset.card view.entries = total)
    (hnext : ∀ result next targets, Answered req targets result → next.entries = 0 →
      next.taken = view.taken → next.ended = view.ended → Owns (logic true cap) goal (f (some result)) ({.ring next}+(targetTokens targets+frame))) :
    Owns (logic true cap) goal (drainWindow req.len total fuel drained totalBytes firstErr >>= f)
      ({.ring view}+(targetTokens targets+frame)) := by
  induction fuel generalizing drained totalBytes firstErr targets view with
  | zero => exact hout _
  | succ fuel ih =>
    rw [drainWindow]
    split_ifs with hall
    · have hzero : view.entries = 0 := Multiset.card_eq_zero.mp (by omega)
      rw [hzero] at hrecorded
      exact hnext _ view targets hrecorded.last hzero rfl rfl
    · simp only [bind_assoc]
      refine Owns.ask (targetTokens targets+frame) (.nextCompletion view) rfl (fun _ _ => trivial) ?_
      rintro (_ | cqe) left hleft
      · cases hleft
        simp only [bind_assoc]
        refine Owns.ask (targetTokens targets+frame) (.submit view) rfl (fun _ _ => trivial) ?_
        rintro (code | n) left hleft
        · cases hleft
        · cases hleft
          exact ih drained totalBytes firstErr targets hrecorded hdrained hnext
      · obtain ⟨hmem,hle,rfl⟩ := completionLeaves_cases hleft
        have hcard := Multiset.card_erase_add_one hmem
        have hmore := @ih { view with entries := view.entries.erase cqe.entry } (drained+1) _ _ _
          (hrecorded.next hmem hle cqe.userData) (by dsimp only; omega) hnext
        rw [targetTokens_cons] at hmore
        convert hmore using 1
        abel

/-- A batch that is alone on the ring. -/
lemma owns_processOne {f : Option (Except IoError ℕ) → Task α} (fuel window : ℕ)
    (hout : ∀ held, Owns (logic true cap) goal (f none) held) (hidle : view.entries = 0)
    (hnext : ∀ result next targets, Answered req targets result → next.entries = 0 →
      next.taken = view.taken → next.ended = view.ended → Owns (logic true cap) goal (f (some result)) ({.ring next}+(targetTokens targets+frame))) :
    Owns (logic true cap) goal (processOne fuel window req.prepared req.len >>= f)
      ({.ring view}+(targetTokens req.unread+frame)) := by
  rw [processOne, bind_assoc]
  refine owns_pushWindows window req.len req.prepared 0 0 fun n pushed hentries htaken hended => ?_
  rw [hidle, zero_add] at hentries
  have hcard : Multiset.card pushed.entries = req.prepared.length := by
    rw [hentries, entriesOf, Multiset.card_map, Multiset.coe_card]
  simp only [bind_assoc]
  refine owns_submitAndWait hcard.ge (fun next hsame => ?_)
    (fun _ _ hfaulty _ => Bool.noConfusion hfaulty)
  have hstart : Recorded req next.entries 0 0 none := by
    rw [hsame.entries, hentries]
    exact Recorded.start 0 req
  rw [← zero_add frame, ← targetTokens_zero]
  refine owns_drainWindow req.prepared.length hout fuel 0 0 none 0 hstart
    (by rw [hsame.entries, hcard, zero_add]) fun result last targets hanswered hzero hlast hend => ?_
  exact hnext result last targets hanswered hzero (hlast.trans (hsame.taken.trans htaken))
    (hend.trans (hsame.ended.trans hended))

end Exclusive

section Table
variable {healthy : Bool} {cap : ℕ} {reactor : Reactor} {view next : View} {orphans : Multiset Sqe}
  {lost : Multiset Token} {slot : ℕ} {batch : InflightBatch} {inflight : List (ℕ × InflightBatch)}

/-- A batch on the ring: its request, the entries that are still to come, and the buffers that are
back or were never asked for. -/
structure Ledger where
  req : ReactorRequest
  entries : Multiset Sqe
  targets : Multiset (Buffer × Option ℕ)

namespace Ledger

/-- What stays of a batch that was answered while its entries are on the ring. -/
def kept (self : Ledger) : Multiset Token := {.keepAlive self.req}+targetTokens self.targets

def tokens (self : Ledger) : Multiset Token := {.request self.req}+self.kept

end Ledger

/-- The book-keeping of a batch is right. -/
structure Booked (slot : ℕ) (batch : InflightBatch) (ledger : Ledger) : Prop where
  reply : batch.reply = ledger.req.reply
  keepAlive : batch.keepAlive = ledger.req.keepAlive
  len : batch.len = ledger.req.len
  remaining : batch.remaining = Multiset.card ledger.entries
  alive : 0<batch.remaining
  slots : ∀ entry ∈ ledger.entries, slotOf entry.userData = slot
  recorded : Recorded ledger.req ledger.entries ledger.targets batch.totalBytes batch.firstErr

variable {ledger : ℕ → Ledger} {new : Ledger}

def batchTokens (ledger : ℕ → Ledger) (inflight : List (ℕ × InflightBatch)) : Multiset Token :=
  (inflight.map fun entry => (ledger entry.1).tokens).sum

def batchEntries (ledger : ℕ → Ledger) (inflight : List (ℕ × InflightBatch)) : Multiset Sqe :=
  (inflight.map fun entry => (ledger entry.1).entries).sum

@[simp] lemma batchTokens_nil (ledger : ℕ → Ledger) : batchTokens ledger [] = 0 := rfl

@[simp] lemma batchEntries_nil (ledger : ℕ → Ledger) : batchEntries ledger [] = 0 := rfl

@[simp] lemma batchTokens_cons (ledger : ℕ → Ledger) (entry : ℕ × InflightBatch) :
    batchTokens ledger (entry::inflight) = (ledger entry.1).tokens+batchTokens ledger inflight := rfl

@[simp] lemma batchEntries_cons (ledger : ℕ → Ledger) (entry : ℕ × InflightBatch) :
    batchEntries ledger (entry::inflight) = (ledger entry.1).entries+batchEntries ledger inflight := rfl

lemma update_of_free (hfree : slot ∉ inflight.map Prod.fst) :
    ∀ entry ∈ inflight, Function.update ledger slot new entry.1 = ledger entry.1 := by
  intro entry hentry
  refine Function.update_of_ne ?_ _ _
  rintro rfl
  exact hfree (List.mem_map_of_mem hentry)

lemma batchTokens_update (hfree : slot ∉ inflight.map Prod.fst) :
    batchTokens (Function.update ledger slot new) inflight = batchTokens ledger inflight := by
  rw [batchTokens, List.map_congr_left fun entry hentry => congrArg Ledger.tokens
    (update_of_free hfree entry hentry)]
  rfl

lemma batchEntries_update (hfree : slot ∉ inflight.map Prod.fst) :
    batchEntries (Function.update ledger slot new) inflight = batchEntries ledger inflight := by
  rw [batchEntries, List.map_congr_left fun entry hentry => congrArg Ledger.entries
    (update_of_free hfree entry hentry)]
  rfl

lemma mem_batchEntries {entry : Sqe} (h : entry ∈ batchEntries ledger inflight) :
    ∃ batch ∈ inflight, entry ∈ (ledger batch.1).entries := by
  induction inflight with
  | nil => exact absurd h (Multiset.notMem_zero _)
  | cons batch inflight ih =>
    rw [batchEntries_cons] at h
    obtain h | h := Multiset.mem_add.mp h
    · exact ⟨batch,List.mem_cons_self,h⟩
    · obtain ⟨other,hother,hentry⟩ := ih h
      exact ⟨other,List.mem_cons_of_mem _ hother,hentry⟩

/-- The batch of a slot is apart from the others. -/
lemma lookup_perm (hnodup : (inflight.map Prod.fst).Nodup) (h : inflight.lookup slot = some batch) :
    inflight.Perm ((slot,batch)::inflight.filter fun entry => decide (entry.1 ≠ slot)) := by
  obtain ⟨front,back,rfl,hfront⟩ := List.lookup_eq_some_iff.mp h
  have hback : ∀ entry ∈ back, entry.1 ≠ slot := by
    rw [List.map_append, List.map_cons, List.nodup_append] at hnodup
    rintro entry hentry rfl
    exact (List.nodup_cons.mp hnodup.2.1).1 (List.mem_map.mpr ⟨entry,hentry,rfl⟩)
  have hfilterFront : front.filter (fun entry => decide (entry.1 ≠ slot)) = front :=
    List.filter_eq_self.mpr fun entry hentry => by
      have hne := hfront entry hentry
      simp only [bne_iff_ne] at hne
      simpa using Ne.symm hne
  have hfilterBack : back.filter (fun entry => decide (entry.1 ≠ slot)) = back :=
    List.filter_eq_self.mpr fun entry hentry => by simpa using hback entry hentry
  rw [List.filter_append, List.filter_cons, hfilterFront, hfilterBack]
  simp [List.perm_middle]

lemma lookup_none (h : inflight.lookup slot = none) : slot ∉ inflight.map Prod.fst := by
  intro hmem
  obtain ⟨entry,hentry,rfl⟩ := List.mem_map.mp hmem
  have hne := List.lookup_eq_none_iff.mp h entry hentry
  simp at hne

/-- A request that the reactor took and did nothing with. -/
def requestTokens (req : ReactorRequest) : Multiset Token :=
  {.request req}+{.keepAlive req}+targetTokens req.unread

def parkedTokens : Option ReactorRequest → Multiset Token
  | none => 0
  | some req => requestTokens req

/-- On a ring that may fail no slot is ever used again. -/
structure Contained (cap : ℕ) (reactor : Reactor) (view : View) (orphans : Multiset Sqe) : Prop where
  taken : view.taken<2^32
  room : reactor.nextSlot+reactor.parked.toList.length ≤ view.taken
  live : ∀ entry ∈ reactor.inflight, entry.1<reactor.nextSlot
  late : ∀ entry ∈ orphans, slotOf entry.userData<reactor.nextSlot
  small : ∀ req ∈ reactor.parked, req.prepared.length ≤ cap
  stillOpen : reactor.closed = false

/-- The table of batches is right: what is on the ring belongs to its batches, or to batches that
were failed and whose slots nobody has. -/
structure Kept (healthy : Bool) (cap : ℕ) (reactor : Reactor) (view : View) (ledger : ℕ → Ledger)
    (orphans : Multiset Sqe) (lost : Multiset Token) : Prop where
  slots : (reactor.inflight.map Prod.fst).Nodup
  booked : ∀ entry ∈ reactor.inflight, Booked entry.1 entry.2 (ledger entry.1)
  entries : view.entries = batchEntries ledger reactor.inflight+orphans
  pending : reactor.pendingOps = (reactor.inflight.map fun entry => entry.2.remaining).sum
  strangers : ∀ entry ∈ orphans, slotOf entry.userData ∉ reactor.inflight.map Prod.fst
  inRange : reactor.nextSlot<2^32
  ended : reactor.closed = true → view.ended = true
  whole : healthy = true → orphans = 0 ∧ lost = 0 ∧ reactor.orphanedOps = 0 ∧ reactor.leakedKeepAlives = []
  contained : healthy = false → Contained cap reactor view orphans

/-- What the reactor has besides the ring. -/
def Holds (healthy : Bool) (cap : ℕ) (reactor : Reactor) (view : View) (held : Multiset Token) : Prop :=
  ∃ ledger orphans lost, Kept healthy cap reactor view ledger orphans lost ∧
    held = batchTokens ledger reactor.inflight+parkedTokens reactor.parked+lost

namespace Kept

lemma same (h : Kept healthy cap reactor view ledger orphans lost) (hsame : view.Same next) :
    Kept healthy cap reactor next ledger orphans lost :=
  { h with
    entries := hsame.entries.trans h.entries
    ended := fun hclosed => hsame.ended.trans (h.ended hclosed)
    contained := fun hfaulty => { h.contained hfaulty with
      taken := hsame.taken ▸ (h.contained hfaulty).taken
      room := hsame.taken ▸ (h.contained hfaulty).room } }

/-- The counter of operations counts what is on the ring for the batches. -/
lemma card_entries (h : Kept healthy cap reactor view ledger orphans lost) :
    Multiset.card view.entries = reactor.pendingOps+Multiset.card orphans := by
  rw [h.entries, Multiset.card_add, h.pending]
  have hsum : ∀ inflight : List (ℕ × InflightBatch),
      (∀ entry ∈ inflight, Booked entry.1 entry.2 (ledger entry.1)) →
      Multiset.card (batchEntries ledger inflight) =
        (inflight.map fun entry => entry.2.remaining).sum := by
    intro inflight hbooked
    induction inflight with
    | nil => rfl
    | cons entry inflight ih =>
      rw [batchEntries_cons, Multiset.card_add, List.map_cons, List.sum_cons,
        ih fun other hother => hbooked other (List.mem_cons_of_mem _ hother),
        (hbooked entry List.mem_cons_self).remaining]
  rw [hsum reactor.inflight h.booked]

lemma pending_pos (h : Kept healthy cap reactor view ledger orphans lost) (hbusy : reactor.inflight ≠ []) :
    0<reactor.pendingOps := by
  obtain ⟨entry,hentry⟩ := List.exists_mem_of_ne_nil _ hbusy
  rw [h.pending]
  exact (h.booked entry hentry).alive.trans_le
    (List.single_le_sum (fun _ _ => Nat.zero_le _) _ (List.mem_map_of_mem hentry))

/-- A new batch under a slot that nobody has. -/
lemma insert (h : Kept healthy cap reactor view ledger orphans lost) (hbooked : Booked slot batch new)
    (hfree : slot ∉ reactor.inflight.map Prod.fst)
    (hlate : ∀ entry ∈ orphans, slotOf entry.userData ≠ slot)
    (hroom : healthy = false → slot<reactor.nextSlot)
    (hentries : next.entries = view.entries+new.entries) (htaken : next.taken = view.taken)
    (hended : next.ended = view.ended) :
    Kept healthy cap { reactor with
      pendingOps := reactor.pendingOps+batch.remaining
      inflight := (slot,batch)::reactor.inflight } next (Function.update ledger slot new) orphans lost where
  slots := by
    rw [List.map_cons]
    exact List.nodup_cons.mpr ⟨hfree,h.slots⟩
  booked := by
    refine List.forall_mem_cons.mpr ⟨?_,fun entry hentry => ?_⟩
    · rwa [Function.update_self]
    · rw [update_of_free hfree entry hentry]
      exact h.booked entry hentry
  entries := by
    rw [hentries, h.entries, batchEntries_cons, Function.update_self, batchEntries_update hfree]
    abel
  pending := by
    rw [List.map_cons, List.sum_cons, h.pending, add_comm]
  strangers := by
    intro entry hentry
    rw [List.map_cons, List.mem_cons, not_or]
    exact ⟨hlate entry hentry,h.strangers entry hentry⟩
  inRange := h.inRange
  ended := fun hclosed => hended.trans (h.ended hclosed)
  whole := h.whole
  contained hfaulty := { h.contained hfaulty with
    taken := htaken ▸ (h.contained hfaulty).taken
    room := htaken ▸ (h.contained hfaulty).room
    live := List.forall_mem_cons.mpr ⟨hroom hfaulty,(h.contained hfaulty).live⟩ }

/-- The batch of a slot is taken out. -/
lemma erase (h : Kept healthy cap reactor view ledger orphans lost)
    (hlookup : reactor.inflight.lookup slot = some batch)
    (hentries : view.entries = (ledger slot).entries+next.entries) (htaken : next.taken = view.taken)
    (hended : next.ended = view.ended) :
    Kept healthy cap { reactor with
      pendingOps := reactor.pendingOps-batch.remaining
      inflight := reactor.inflight.filter fun entry => decide (entry.1 ≠ slot) } next ledger orphans lost := by
  have hperm := lookup_perm h.slots hlookup
  have hsub : (reactor.inflight.filter fun entry => decide (entry.1 ≠ slot)).Sublist reactor.inflight :=
    List.filter_sublist
  constructor
  case slots => exact h.slots.sublist (hsub.map _)
  case booked => exact fun entry hentry => h.booked entry (hsub.subset hentry)
  case entries =>
    have hall := h.entries
    rw [hentries, batchEntries, (hperm.map _).sum_eq, List.map_cons, List.sum_cons, add_assoc] at hall
    exact add_left_cancel hall
  case pending =>
    have hall := h.pending
    rw [(hperm.map _).sum_eq, List.map_cons, List.sum_cons] at hall
    dsimp only at hall ⊢
    omega
  case strangers =>
    exact fun entry hentry hmem => h.strangers entry hentry ((hsub.map _).subset hmem)
  case inRange => exact h.inRange
  case ended => exact fun hclosed => hended.trans (h.ended hclosed)
  case whole => exact h.whole
  case contained =>
    exact fun hfaulty => { h.contained hfaulty with
      taken := htaken ▸ (h.contained hfaulty).taken
      room := htaken ▸ (h.contained hfaulty).room
      live := fun entry hentry => (h.contained hfaulty).live entry (hsub.subset hentry) }

/-- A completion under the slot of a batch belongs to that batch. -/
lemma entry_of_batch (h : Kept healthy cap reactor view ledger orphans lost)
    (hlookup : reactor.inflight.lookup slot = some batch) {entry : Sqe} (hentry : entry ∈ view.entries)
    (hslot : slotOf entry.userData = slot) : entry ∈ (ledger slot).entries := by
  rw [h.entries] at hentry
  have hkey : slot ∈ reactor.inflight.map Prod.fst :=
    List.mem_map_of_mem ((lookup_perm h.slots hlookup).mem_iff.mpr List.mem_cons_self)
  obtain hentry | hentry := Multiset.mem_add.mp hentry
  · obtain ⟨other,hother,hmem⟩ := mem_batchEntries hentry
    rwa [← hslot, (h.booked other hother).slots entry hmem]
  · exact absurd (hslot ▸ hkey) (h.strangers entry hentry)

/-- Under any other slot it belongs to nobody. -/
lemma entry_of_nobody (h : Kept healthy cap reactor view ledger orphans lost) {entry : Sqe}
    (hlookup : reactor.inflight.lookup (slotOf entry.userData) = none) (hentry : entry ∈ view.entries) :
    entry ∈ orphans := by
  rw [h.entries] at hentry
  obtain hentry | hentry := Multiset.mem_add.mp hentry
  · obtain ⟨other,hother,hmem⟩ := mem_batchEntries hentry
    refine absurd ?_ (lookup_none hlookup)
    rw [(h.booked other hother).slots entry hmem]
    exact List.mem_map_of_mem hother
  · exact hentry

end Kept

end Table

section Admission
variable {healthy : Bool} {cap : ℕ} {α : Type} {goal : α → Multiset Token → Prop}
  {reactor : Reactor} {view : View} {ledger : ℕ → Ledger} {orphans : Multiset Sqe}
  {lost held : Multiset Token} {slot : ℕ} {req : ReactorRequest}

lemma slotOf_sqeOf (hslot : slot<2^32) (len : ℕ) (read : Prepared) :
    slotOf (sqeOf slot len read).userData = slot := by
  have hid := Nat.mod_lt read.expertId (show 0<2^32 by norm_num)
  rw [slotOf, sqeOf, Nat.mul_comm slot, Nat.mul_add_div (by norm_num), Nat.div_eq_of_lt hid,
    add_zero, Nat.mod_eq_of_lt hslot]

/-- The slot that is found is nobody's, and it is the next one if that is nobody's. -/
lemma freeSlot_spec {inflight : List (ℕ × InflightBatch)} {fuel nextSlot next : ℕ}
    (h : Reactor.freeSlot inflight fuel nextSlot = some (slot,next)) (hlt : nextSlot<2^32) :
    slot ∉ inflight.map Prod.fst ∧ slot<2^32 ∧ next = (slot+1)%2^32 ∧
      (nextSlot ∉ inflight.map Prod.fst → slot = nextSlot) := by
  induction fuel generalizing nextSlot with
  | zero => cases h
  | succ fuel ih =>
    rw [Reactor.freeSlot] at h
    split_ifs at h with hused
    · obtain ⟨hfree,hslot,hnext,-⟩ := ih h (Nat.mod_lt _ (by norm_num))
      refine ⟨hfree,hslot,hnext,fun hunused => absurd ?_ hunused⟩
      obtain ⟨batch,hbatch⟩ := Option.isSome_iff_exists.mp hused
      obtain ⟨front,back,rfl,-⟩ := List.lookup_eq_some_iff.mp hbatch
      simp
    · cases h
      rw [Bool.not_eq_true, Option.isSome_eq_false_iff, Option.isNone_iff_eq_none] at hused
      exact ⟨lookup_none hused,hlt,rfl,fun _ => rfl⟩

/-- A batch goes on the ring under its slot, or is answered when nothing could be pushed. -/
lemma owns_admitBatch {f : Reactor → Task α} (h : Kept healthy cap reactor view ledger orphans lost)
    (hparked : reactor.parked = none) (hfree : slot ∉ reactor.inflight.map Prod.fst)
    (hslot : slot<2^32) (hlate : ∀ entry ∈ orphans, slotOf entry.userData ≠ slot)
    (hroom : healthy = false → slot<reactor.nextSlot)
    (hnext : ∀ after next held, Holds healthy cap after next held → after.parked = none →
      Owns (logic healthy cap) goal (f after) ({.ring next}+held)) :
    Owns (logic healthy cap) goal (reactor.admitBatch slot req >>= f)
      ({.ring view}+(requestTokens req+(batchTokens ledger reactor.inflight+lost))) := by
  have hnobody : parkedTokens reactor.parked = 0 := by rw [hparked, parkedTokens]
  rw [Reactor.admitBatch, bind_assoc]
  have hrequest : requestTokens req+(batchTokens ledger reactor.inflight+lost) =
      targetTokens (unreadOf req.prepared)+({.request req}+{.keepAlive req}+
        (batchTokens ledger reactor.inflight+lost)) := by
    rw [requestTokens, unreadOf_prepared]
    abel
  rw [hrequest]
  refine owns_pushBatch slot req.len req.prepared 0
    fun done rest pushErr next hreads hrest herr hentries htaken hended => ?_
  dsimp only
  rw [zero_add]
  split_ifs with hpushed
  · obtain rfl := List.length_eq_zero_iff.mp hpushed
    obtain rfl : req.prepared = rest := hreads
    rw [bind_assoc]
    have hsame : view.Same next := ⟨by rw [hentries, entriesOf_nil, add_zero],htaken,hended⟩
    rw [← add_assoc (targetTokens _), add_comm (targetTokens _), ← add_assoc, add_comm {Token.ring next},
      add_assoc]
    refine owns_answer ⟨by rw [unreadOf_prepared, req.unread_fst],nofun,fun e he => ?_⟩ ?_
    · cases he
      cases pushErr with
      | none => rfl
      | some e => exact herr e rfl
    · exact hnext reactor next _ ⟨ledger,orphans,lost,h.same hsame,by rw [hnobody, add_zero]⟩ hparked
  · simp only [bind_assoc]
    have hbatch : ∀ (failure : Option IoError) flushed, (failure = none → pushErr = none) →
        Owns (logic healthy cap) goal (f { reactor with
          pendingOps := reactor.pendingOps+done.length
          inflight := (slot,⟨done.length,req.len,0,failure.map .partiallySubmitted,req.reply,
            req.keepAlive⟩)::reactor.inflight })
          ({.ring { next with flushed := flushed }}+(targetTokens (unreadOf rest)+({.request req}+
            {.keepAlive req}+(batchTokens ledger reactor.inflight+lost)))) := by
      intro failure flushed hfailure
      have hbooked : Booked slot ⟨done.length,req.len,0,failure.map .partiallySubmitted,req.reply,
          req.keepAlive⟩ ⟨req,entriesOf slot req.len done,unreadOf rest⟩ := by
        refine ⟨rfl,rfl,rfl,?_,Nat.pos_of_ne_zero hpushed,fun entry hentry => ?_,?_⟩
        · rw [entriesOf, Multiset.card_map, Multiset.coe_card]
        · dsimp only [entriesOf] at hentry
          obtain ⟨read,-,rfl⟩ := Multiset.mem_map.mp hentry
          exact slotOf_sqeOf hslot req.len read
        · refine .pushed slot hreads (fun hnone => hrest (hfailure (Option.map_eq_none_iff.mp hnone)))
            fun e he => ?_
          obtain ⟨_,-,rfl⟩ := Option.map_eq_some_iff.mp he
          rfl
      have hkept : Kept healthy cap _ { next with flushed := flushed } _ orphans lost :=
        h.insert hbooked hfree hlate hroom hentries htaken hended
      refine hnext _ _ _ ⟨_,orphans,lost,hkept,?_⟩ hparked
      rw [hnobody, batchTokens_cons, batchTokens_update hfree, Function.update_self, Ledger.tokens,
        Ledger.kept]
      abel
    refine Owns.ask _ (.submit next) rfl (fun _ _ => trivial) ?_
    rintro (code | n) left hleft
    · cases healthy with
      | true => cases hleft
      | false =>
        cases hleft
        exact hbatch (some (pushErr.getD (.os code))) _ nofun
    · cases hleft
      exact hbatch pushErr true id

lemma Kept.park (h : Kept healthy cap reactor view ledger orphans lost)
    (hfits : healthy = false → req.prepared.length ≤ cap ∧ reactor.nextSlot+1 ≤ view.taken) :
    Kept healthy cap { reactor with parked := some req } view ledger orphans lost :=
  { h with contained := fun hfaulty => { h.contained hfaulty with
      room := (hfits hfaulty).2
      small := by
        rintro other ⟨⟩
        exact (hfits hfaulty).1 } }

/-- The search for a slot moves on past the one that it found. -/
lemma Kept.advance {fuel nextSlot : ℕ} (h : Kept healthy cap reactor view ledger orphans lost)
    (hparked : reactor.parked = none) (hroom : healthy = false → reactor.nextSlot+1 ≤ view.taken)
    (hfound : Reactor.freeSlot reactor.inflight fuel reactor.nextSlot = some (slot,nextSlot)) :
    Kept healthy cap { reactor with nextSlot := nextSlot } view ledger orphans lost ∧
      (∀ entry ∈ orphans, slotOf entry.userData ≠ slot) ∧ (healthy = false → slot<nextSlot) := by
  obtain ⟨-,-,rfl,hsame⟩ := freeSlot_spec hfound h.inRange
  have hnew : healthy = false → slot = reactor.nextSlot ∧ (slot+1)%2^32 = slot+1 := by
    intro hfaulty
    have hslot := hsame fun hmem => by
      obtain ⟨entry,hentry,heq⟩ := List.mem_map.mp hmem
      exact absurd ((h.contained hfaulty).live entry hentry) (heq ▸ Nat.lt_irrefl _)
    refine ⟨hslot,Nat.mod_eq_of_lt ?_⟩
    rw [hslot]
    exact (hroom hfaulty).trans_lt (h.contained hfaulty).taken
  refine ⟨{ h with
    inRange := Nat.mod_lt _ (by norm_num)
    contained := fun hfaulty => ?_ },fun entry hentry => ?_,fun hfaulty => ?_⟩
  · obtain ⟨hslot,hmod⟩ := hnew hfaulty
    have hold := h.contained hfaulty
    refine { hold with
      room := ?_
      live := fun entry hentry => ?_
      late := fun entry hentry => ?_ }
    · rw [hparked, hmod, hslot]
      exact hroom hfaulty
    · have hlt := hold.live entry hentry
      dsimp only
      omega
    · have hlt := hold.late entry hentry
      dsimp only
      omega
  · cases healthy with
    | true =>
      rw [(h.whole rfl).1] at hentry
      exact absurd hentry (Multiset.notMem_zero _)
    | false =>
      rw [(hnew rfl).1]
      exact ((h.contained rfl).late entry hentry).ne
  · rw [(hnew hfaulty).2]
    exact Nat.lt_succ_self slot

/-- A request is answered, goes on the ring or is parked; it is parked only behind others. -/
lemma owns_admitRequest {f : Option Reactor → Task α} (fuel : ℕ)
    (hout : ∀ held, Owns (logic healthy cap) goal (f none) held)
    (h : Holds healthy cap reactor view held) (hparked : reactor.parked = none)
    (hfits : healthy = false → req.prepared.length ≤ cap ∧ reactor.nextSlot+1 ≤ view.taken)
    (hnext : ∀ after next held, Holds healthy cap after next held →
      (after.parked.isSome → after.inflight ≠ []) →
      Owns (logic healthy cap) goal (f (some after)) ({.ring next}+held)) :
    Owns (logic healthy cap) goal (reactor.admitRequest fuel cap req >>= f)
      ({.ring view}+(requestTokens req+held)) := by
  obtain ⟨ledger,orphans,lost,hkept,rfl⟩ := h
  have hnobody : parkedTokens reactor.parked = 0 := by rw [hparked, parkedTokens]
  have hself : { reactor with parked := none } = reactor := by
    cases reactor
    cases hparked
    rfl
  have hpark : reactor.inflight ≠ [] → Owns (logic healthy cap) goal
      (f (some { reactor with parked := some req })) ({.ring view}+(requestTokens req+
        (batchTokens ledger reactor.inflight+parkedTokens reactor.parked+lost))) := by
    intro hbusy
    refine hnext _ _ _ ⟨ledger,orphans,lost,hkept.park hfits,?_⟩ fun _ => hbusy
    rw [hnobody, parkedTokens]
    abel
  rw [Reactor.admitRequest]
  split_ifs with hempty hlarge hbusy hfull
  · have hreads : req.prepared = [] := List.length_eq_zero_iff.mp hempty
    rw [bind_assoc, requestTokens, ← add_assoc, add_comm {Token.ring view}, add_assoc]
    refine owns_answer ⟨req.unread_fst,fun n hn => ?_,nofun⟩ ?_
    · cases hn
      rw [hreads, ReactorRequest.unread, ReactorRequest.allRead, hreads, List.length_nil, Nat.zero_mul]
      exact ⟨rfl,rfl⟩
    · rw [hself]
      exact hnext _ _ _ ⟨ledger,orphans,lost,hkept,rfl⟩ fun hsome => by
        rw [hparked] at hsome
        cases hsome
  · refine hpark (hbusy.resolve_right fun horphans => ?_)
    cases healthy with
    | true => exact horphans.ne' (hkept.whole rfl).2.2.1
    | false => exact hlarge.not_ge (hfits rfl).1
  · -- only on a ring that never failed
    cases healthy with
    | false => exact absurd (hfits rfl).1 hlarge.not_ge
    | true =>
      rw [not_or, not_not] at hbusy
      have hidle : view.entries = 0 := by
        rw [hkept.entries, hbusy.1, (hkept.whole rfl).1]
        rfl
      have hrequest : requestTokens req+(batchTokens ledger reactor.inflight+
          parkedTokens reactor.parked+lost) = targetTokens req.unread+({.request req}+
            {.keepAlive req}+(batchTokens ledger reactor.inflight+parkedTokens reactor.parked+lost)) := by
        rw [requestTokens]
        abel
      rw [bind_assoc, hrequest]
      refine owns_processOne fuel cap hout hidle
        fun result next targets hanswered hentries htaken hended => ?_
      simp only [bind_assoc]
      rw [← add_assoc (targetTokens _), add_comm (targetTokens _), ← add_assoc,
        add_comm {Token.ring next}, add_assoc]
      refine owns_answer hanswered ?_
      rw [pure_bind, hself]
      have hsame : view.Same next := ⟨hentries.trans hidle.symm,htaken,hended⟩
      exact hnext _ _ _ ⟨ledger,orphans,lost,hkept.same hsame,rfl⟩ fun hsome => by
        rw [hparked] at hsome
        cases hsome
  · refine hpark fun hnone => ?_
    have hpending : reactor.pendingOps = 0 := by
      rw [hkept.pending, hnone]
      rfl
    rw [hnone, List.length_nil, maxInflightRequests] at hfull
    omega
  · split
    · exact hout _
    · rename_i slot nextSlot hfound
      obtain ⟨hfree,hslot,-⟩ := freeSlot_spec hfound hkept.inRange
      obtain ⟨hadvanced,hlate,hroom⟩ := hkept.advance hparked (fun hfaulty => (hfits hfaulty).2) hfound
      have hnone : { reactor with nextSlot := nextSlot, parked := none } =
          { reactor with nextSlot := nextSlot } := by rw [← hparked]
      rw [bind_assoc, hnone, hnobody, add_zero]
      exact owns_admitBatch hadvanced hparked hfree hslot hlate hroom fun after next held hholds hidle =>
        hnext after next held hholds fun hsome => by
          rw [hidle] at hsome
          cases hsome

end Admission

section Completion
variable {healthy : Bool} {cap : ℕ} {α : Type} {goal : α → Multiset Token → Prop}
  {reactor : Reactor} {view : View} {ledger : ℕ → Ledger} {orphans : Multiset Sqe}
  {lost held : Multiset Token} {slot : ℕ} {batch : InflightBatch} {cqe : Cqe}

/-- A completion of nobody's slot comes from a batch that was failed. -/
lemma Kept.orphan (h : Kept healthy cap reactor view ledger orphans lost) (hmem : cqe.entry ∈ view.entries)
    (hlookup : reactor.inflight.lookup (slotOf cqe.userData) = none) :
    Kept healthy cap { reactor with orphanedOps := reactor.orphanedOps-1 }
      { view with entries := view.entries.erase cqe.entry } ledger (orphans.erase cqe.entry)
      ({.target cqe.entry.ptr cqe.read}+lost) := by
  have horphan := h.entry_of_nobody hlookup hmem
  have hsub : ∀ entry ∈ orphans.erase cqe.entry, entry ∈ orphans := fun _ => Multiset.mem_of_mem_erase
  refine { h with
    entries := ?_
    strangers := fun entry hentry => h.strangers entry (hsub entry hentry)
    whole := fun hhealthy => ?_
    contained := fun hfaulty => { h.contained hfaulty with
      late := fun entry hentry => (h.contained hfaulty).late entry (hsub entry hentry) } }
  · dsimp only
    rw [h.entries, Multiset.erase_add_right_pos _ horphan]
  · rw [(h.whole hhealthy).1] at horphan
    exact absurd horphan (Multiset.notMem_zero _)

/-- The batch with one more completion. -/
def InflightBatch.next (self : InflightBatch) (cqe : Cqe) : InflightBatch :=
  { self with
    remaining := self.remaining-1
    totalBytes := (record self.len (cqe.userData%2^32) cqe.result self.totalBytes self.firstErr).1
    firstErr := (record self.len (cqe.userData%2^32) cqe.result self.totalBytes self.firstErr).2 }

def Ledger.next (self : Ledger) (cqe : Cqe) : Ledger :=
  ⟨self.req,self.entries.erase cqe.entry,(cqe.entry.ptr,cqe.read)::ₘ self.targets⟩

/-- The other batches. -/
def Reactor.others (self : Reactor) (slot : ℕ) : List (ℕ × InflightBatch) :=
  self.inflight.filter fun entry => decide (entry.1 ≠ slot)

lemma Reactor.free_others (self : Reactor) (slot : ℕ) : slot ∉ (self.others slot).map Prod.fst := by
  intro hkey
  obtain ⟨entry,hin,heq⟩ := List.mem_map.mp hkey
  simp [Reactor.others, heq] at hin

lemma Booked.recorded_next (h : Booked slot batch (ledger slot)) (hentry : cqe.entry ∈ (ledger slot).entries)
    (hle : cqe.result ≤ cqe.entry.len) :
    Recorded (ledger slot).req ((ledger slot).next cqe).entries ((ledger slot).next cqe).targets
      (batch.next cqe).totalBytes (batch.next cqe).firstErr := by
  have hrecorded := h.recorded.next hentry hle (cqe.userData%2^32)
  rw [← h.len] at hrecorded
  exact hrecorded

lemma Booked.next (h : Booked slot batch (ledger slot)) (hentry : cqe.entry ∈ (ledger slot).entries)
    (hle : cqe.result ≤ cqe.entry.len) (hmore : batch.remaining-1 ≠ 0) :
    Booked slot (batch.next cqe) ((ledger slot).next cqe) where
  reply := h.reply
  keepAlive := h.keepAlive
  len := h.len
  remaining := by
    have hcard := Multiset.card_erase_add_one hentry
    have hremaining := h.remaining
    dsimp only [InflightBatch.next, Ledger.next]
    omega
  alive := Nat.pos_of_ne_zero hmore
  slots := fun entry hin => h.slots entry (Multiset.mem_of_mem_erase hin)
  recorded := h.recorded_next hentry hle

/-- A batch and the others. -/
lemma Kept.apart (h : Kept healthy cap reactor view ledger orphans lost)
    (hlookup : reactor.inflight.lookup slot = some batch) :
    (slot,batch) ∈ reactor.inflight ∧ batchTokens ledger reactor.inflight =
      (ledger slot).tokens+batchTokens ledger (reactor.others slot) ∧
    ∃ rest, view.entries = (ledger slot).entries+rest := by
  have hperm := lookup_perm h.slots hlookup
  refine ⟨hperm.mem_iff.mpr List.mem_cons_self,?_,view.entries-(ledger slot).entries,
    (add_tsub_cancel_of_le ?_).symm⟩
  · rw [batchTokens, (hperm.map _).sum_eq, List.map_cons, List.sum_cons]
    rfl
  · rw [h.entries, batchEntries, (hperm.map _).sum_eq, List.map_cons, List.sum_cons, add_assoc]
    exact Multiset.le_add_right _ _

/-- The last completion of a batch. -/
lemma Kept.finish (h : Kept healthy cap reactor view ledger orphans lost)
    (hlookup : reactor.inflight.lookup slot = some batch) (hentry : cqe.entry ∈ (ledger slot).entries)
    (hlast : batch.remaining-1 = 0) :
    ((ledger slot).next cqe).entries = 0 ∧
      Kept healthy cap { reactor with
        pendingOps := reactor.pendingOps-1
        inflight := reactor.others slot } { view with entries := view.entries.erase cqe.entry }
        ledger orphans lost := by
  obtain ⟨hmem,-,rest,hrest⟩ := h.apart hlookup
  have hbooked := h.booked _ hmem
  have hcard := Multiset.card_erase_add_one hentry
  have hremaining : batch.remaining = Multiset.card (ledger slot).entries := hbooked.remaining
  have hzero : (ledger slot).entries.erase cqe.entry = 0 := Multiset.card_eq_zero.mp (by omega)
  have hleft : view.entries.erase cqe.entry = rest := by
    rw [hrest, Multiset.erase_add_left_pos _ hentry, hzero, zero_add]
  have hone : batch.remaining = 1 := by omega
  refine ⟨hzero,?_⟩
  have hothers : Kept healthy cap _ { view with entries := rest } ledger orphans lost :=
    h.erase hlookup hrest rfl rfl
  rw [hleft]
  rw [hone] at hothers
  exact hothers

/-- A completion of a batch that waits for more. -/
lemma Kept.count (h : Kept healthy cap reactor view ledger orphans lost)
    (hlookup : reactor.inflight.lookup slot = some batch) (hentry : cqe.entry ∈ (ledger slot).entries)
    (hle : cqe.result ≤ cqe.entry.len) (hmore : batch.remaining-1 ≠ 0) :
    Kept healthy cap { reactor with
      pendingOps := reactor.pendingOps-1
      inflight := (slot,batch.next cqe)::reactor.others slot }
      { view with entries := view.entries.erase cqe.entry }
      (Function.update ledger slot ((ledger slot).next cqe)) orphans lost := by
  obtain ⟨hmem,-,rest,hrest⟩ := h.apart hlookup
  have hothers : Kept healthy cap _ { view with entries := rest } ledger orphans lost :=
    h.erase hlookup hrest rfl rfl
  have hleft : view.entries.erase cqe.entry = rest+((ledger slot).next cqe).entries := by
    rw [hrest, Multiset.erase_add_left_pos _ hentry, add_comm]
    rfl
  have hkey : slot ∈ reactor.inflight.map Prod.fst := List.mem_map_of_mem hmem
  have hafter : Kept healthy cap _ { view with entries := view.entries.erase cqe.entry } _ orphans lost :=
    hothers.insert ((h.booked _ hmem).next hentry hle hmore) (reactor.free_others slot)
      (fun entry hin heq => h.strangers entry hin (heq ▸ hkey))
      (fun hfaulty => (h.contained hfaulty).live _ hmem) hleft rfl rfl
  have hpending : reactor.pendingOps-1 = reactor.pendingOps-batch.remaining+(batch.next cqe).remaining := by
    have hsum := h.pending
    rw [((lookup_perm h.slots hlookup).map _).sum_eq, List.map_cons, List.sum_cons] at hsum
    dsimp only [InflightBatch.next] at hsum ⊢
    omega
  rw [hpending]
  exact hafter

lemma owns_handleCqe {f : Reactor → Task α} (h : Holds healthy cap reactor view held)
    (hmem : cqe.entry ∈ view.entries) (hle : cqe.result ≤ cqe.entry.len)
    (hnext : ∀ after next held, Holds healthy cap after next held →
      Owns (logic healthy cap) goal (f after) ({.ring next}+held)) :
    Owns (logic healthy cap) goal (reactor.handleCqe cqe >>= f)
      ({.ring { view with entries := view.entries.erase cqe.entry }}+
        {.target cqe.entry.ptr cqe.read}+held) := by
  obtain ⟨ledger,orphans,lost,hkept,rfl⟩ := h
  rw [Reactor.handleCqe]
  dsimp only
  split
  · rename_i hlookup
    rw [pure_bind, add_assoc]
    refine hnext _ _ _ ⟨ledger,_,_,hkept.orphan hmem hlookup,?_⟩
    abel
  · rename_i batch hlookup
    obtain ⟨hin,htokens,-⟩ := hkept.apart hlookup
    have hentry := hkept.entry_of_batch hlookup hmem rfl
    have hbooked := hkept.booked _ hin
    split_ifs with hlast
    · obtain ⟨hzero,hafter⟩ := hkept.finish hlookup hentry hlast
      have hrecorded := hbooked.recorded_next hentry hle
      rw [hzero] at hrecorded
      have hheld : {Token.ring { view with entries := view.entries.erase cqe.entry }}+
          {Token.target cqe.entry.ptr cqe.read}+(batchTokens ledger reactor.inflight+
            parkedTokens reactor.parked+lost) =
          {.request (ledger (slotOf cqe.userData)).req}+
            {.keepAlive (ledger (slotOf cqe.userData)).req}+
            targetTokens ((ledger (slotOf cqe.userData)).next cqe).targets+
          ({.ring { view with entries := view.entries.erase cqe.entry }}+(batchTokens ledger
            (reactor.others (slotOf cqe.userData))+parkedTokens reactor.parked+lost)) := by
        rw [htokens, Ledger.tokens, Ledger.kept, Ledger.next, targetTokens_cons]
        abel
      rw [bind_assoc, hheld, hbooked.reply, hbooked.keepAlive]
      refine owns_answer hrecorded.last ?_
      rw [pure_bind]
      exact hnext _ _ _ ⟨ledger,orphans,lost,hafter,rfl⟩
    · rw [pure_bind, add_assoc]
      refine hnext _ _ _ ⟨_,orphans,lost,hkept.count hlookup hentry hle hlast,?_⟩
      change _ = batchTokens _ ((_,batch.next cqe)::reactor.others (slotOf cqe.userData))+
        parkedTokens reactor.parked+lost
      rw [batchTokens_cons, batchTokens_update (reactor.free_others _), Function.update_self, htokens,
        Ledger.tokens, Ledger.tokens, Ledger.kept, Ledger.kept, Ledger.next, targetTokens_cons]
      abel

lemma owns_drainReady {f : Option Reactor → Task α} (fuel : ℕ)
    (hout : ∀ held, Owns (logic healthy cap) goal (f none) held) (h : Holds healthy cap reactor view held)
    (hnext : ∀ after next held, Holds healthy cap after next held →
      Owns (logic healthy cap) goal (f (some after)) ({.ring next}+held)) :
    Owns (logic healthy cap) goal (Reactor.drainReady fuel reactor >>= f) ({.ring view}+held) := by
  induction fuel generalizing reactor view held with
  | zero => exact hout _
  | succ fuel ih =>
    rw [Reactor.drainReady, bind_assoc]
    refine Owns.ask held (.nextCompletion view) rfl (fun _ _ => trivial) ?_
    rintro (_ | cqe) left hleft
    · cases hleft
      exact hnext _ _ _ h
    · obtain ⟨hmem,hle,rfl⟩ := completionLeaves_cases hleft
      simp only [bind_assoc]
      exact owns_handleCqe h hmem hle fun after next held hholds => ih hholds

/-- What the failed batches leave behind. -/
def batchKept (ledger : ℕ → Ledger) (inflight : List (ℕ × InflightBatch)) : Multiset Token :=
  (inflight.map fun entry => (ledger entry.1).kept).sum

lemma owns_replyAll {f : Unit → Task α} (code : ℕ) (inflight : List (ℕ × InflightBatch))
    (hbooked : ∀ entry ∈ inflight, Booked entry.1 entry.2 (ledger entry.1))
    (hnext : Owns (logic healthy cap) goal (f ()) (batchKept ledger inflight+held)) :
    Owns (logic healthy cap) goal (Reactor.replyAll code inflight >>= f)
      (batchTokens ledger inflight+held) := by
  induction inflight generalizing held with
  | nil => exact hnext
  | cons entry inflight ih =>
    rw [Reactor.replyAll, bind_assoc, (hbooked entry List.mem_cons_self).reply, batchTokens_cons,
      Ledger.tokens]
    refine Owns.ask ((ledger entry.1).kept+(batchTokens ledger inflight+held))
      (.replyError (ledger entry.1).req _ rfl) (by abel) (fun _ _ => trivial) ?_
    rintro ⟨⟩ left ⟨⟩
    rw [zero_add, add_left_comm]
    refine ih (fun other hother => hbooked other (List.mem_cons_of_mem _ hother)) ?_
    rw [batchKept, List.map_cons, List.sum_cons, ← batchKept] at hnext
    convert hnext using 1
    abel

/-- The entries of the failed batches become nobody's. -/
lemma Kept.fail (h : Kept false cap reactor view ledger orphans lost) :
    Kept false cap reactor.failAll view ledger (batchEntries ledger reactor.inflight+orphans)
      (batchKept ledger reactor.inflight+lost) where
  slots := List.nodup_nil
  booked := fun entry hentry => absurd hentry List.not_mem_nil
  entries := by
    rw [h.entries]
    exact (zero_add _).symm
  pending := rfl
  strangers := fun entry _ => List.not_mem_nil
  inRange := h.inRange
  ended := h.ended
  whole := fun hhealthy => Bool.noConfusion hhealthy
  contained := fun hfaulty => { h.contained hfaulty with
    live := fun entry hentry => absurd hentry List.not_mem_nil
    late := by
      intro entry hentry
      obtain hentry | hentry := Multiset.mem_add.mp hentry
      · obtain ⟨batch,hbatch,hin⟩ := mem_batchEntries hentry
        rw [(h.booked batch hbatch).slots entry hin]
        exact (h.contained hfaulty).live batch hbatch
      · exact (h.contained hfaulty).late entry hentry }

/-- The reactor waits only while something is on the ring. -/
lemma owns_completions {f : Option Reactor → Task α} (fuel : ℕ)
    (hout : ∀ held, Owns (logic healthy cap) goal (f none) held) (h : Holds healthy cap reactor view held)
    (hbusy : reactor.parked.isSome → reactor.inflight ≠ [])
    (hnext : ∀ after next held, Holds healthy cap after next held →
      Owns (logic healthy cap) goal (f (some after)) ({.ring next}+held)) :
    Owns (logic healthy cap) goal (reactor.completions fuel >>= f) ({.ring view}+held) := by
  rw [Reactor.completions]
  split_ifs with hwait
  · simp only [bind_assoc]
    obtain ⟨ledger,orphans,lost,hkept,rfl⟩ := h
    have hcard := hkept.card_entries
    have hsome : 1 ≤ Multiset.card view.entries := by
      obtain hpending | ⟨-,hparked⟩ := hwait
      · omega
      · have hpending := hkept.pending_pos (hbusy hparked)
        omega
    refine owns_submitAndWait hsome (fun next hsame => ?_) (fun code next hfaulty hsame => ?_)
    · exact owns_drainReady fuel hout ⟨ledger,orphans,lost,hkept.same hsame,rfl⟩ hnext
    · subst hfaulty
      simp only [bind_assoc]
      rw [add_assoc (batchTokens _ _), add_left_comm]
      refine owns_replyAll code reactor.inflight hkept.booked ?_
      have hafter := hnext reactor.failAll next _ ⟨ledger,_,_,(hkept.same hsame).fail,rfl⟩
      rw [pure_bind]
      convert hafter using 1
      change _ = {Token.ring next}+(0+parkedTokens reactor.parked+(batchKept ledger reactor.inflight+lost))
      abel
  · exact hnext _ _ _ h

end Completion

section Loop
variable {healthy : Bool} {cap : ℕ} {α : Type} {goal : α → Multiset Token → Prop}
  {reactor : Reactor} {view : View} {held : Multiset Token}

/-- A request comes out of the channel. -/
lemma Holds.recv {req : ReactorRequest} {left : Multiset Token} (h : Holds healthy cap reactor view held)
    (hparked : reactor.parked = none) (hleft : recvLeaves healthy cap view req = some left) :
    left = {.ring { view with taken := view.taken+1 }}+requestTokens req ∧
      Holds healthy cap reactor { view with taken := view.taken+1 } held ∧
      (healthy = false → req.prepared.length ≤ cap ∧ reactor.nextSlot+1 ≤ view.taken+1) := by
  rw [recvLeaves] at hleft
  split_ifs at hleft with hfits
  cases hleft
  obtain ⟨ledger,orphans,lost,hkept,rfl⟩ := h
  have hroom : healthy = false → reactor.nextSlot ≤ view.taken := by
    intro hfaulty
    have hroom := (hkept.contained hfaulty).room
    rwa [hparked] at hroom
  have hsmall : healthy = false → req.prepared.length ≤ cap ∧ view.taken+1<2^32 := by
    rintro rfl
    exact hfits.resolve_left Bool.false_ne_true
  refine ⟨by rw [requestTokens]; abel,⟨ledger,orphans,lost,?_,rfl⟩,fun hfaulty =>
    ⟨(hsmall hfaulty).1,Nat.add_le_add_right (hroom hfaulty) 1⟩⟩
  exact { hkept with contained := fun hfaulty => { hkept.contained hfaulty with
    taken := (hsmall hfaulty).2
    room := (hkept.contained hfaulty).room.trans (Nat.le_succ _) } }

/-- The channel is at its end, on a ring that never failed. -/
lemma Holds.close {left : Multiset Token} (h : Holds healthy cap reactor view held)
    (hleft : endLeaves healthy view = some left) :
    left = {.ring { view with ended := true }} ∧
      Holds healthy cap { reactor with closed := true } { view with ended := true } held := by
  rw [endLeaves] at hleft
  split_ifs at hleft with hhealthy
  cases hleft
  obtain ⟨ledger,orphans,lost,hkept,rfl⟩ := h
  refine ⟨rfl,ledger,orphans,lost,?_,rfl⟩
  exact { hkept with
    ended := fun _ => rfl
    contained := fun hfaulty => by rw [hfaulty] at hhealthy; cases hhealthy }

lemma owns_topUp {f : Option Reactor → Task α} (fuel left : ℕ)
    (hout : ∀ held, Owns (logic healthy cap) goal (f none) held) (h : Holds healthy cap reactor view held)
    (hbusy : reactor.parked.isSome → reactor.inflight ≠ [])
    (hnext : ∀ after next held, Holds healthy cap after next held →
      (after.parked.isSome → after.inflight ≠ []) →
      Owns (logic healthy cap) goal (f (some after)) ({.ring next}+held)) :
    Owns (logic healthy cap) goal (Reactor.topUp fuel cap left reactor >>= f) ({.ring view}+held) := by
  induction left generalizing reactor view held with
  | zero => exact hout _
  | succ left ih =>
    rw [Reactor.topUp]
    split_ifs with hstop
    · exact hnext _ _ _ h hbusy
    · rw [Bool.or_eq_true, not_or, Bool.not_eq_true, Option.isSome_eq_false_iff,
        Option.isNone_iff_eq_none] at hstop
      simp only [bind_assoc]
      refine Owns.ask held (.tryRecv view) rfl (fun _ _ => trivial) ?_
      rintro ((_ | _) | req) rest hrest
      · cases hrest
        exact hnext _ _ _ h hbusy
      · obtain ⟨rfl,hholds⟩ := h.close hrest
        exact ih hholds hbusy
      · obtain ⟨rfl,hholds,hfits⟩ := h.recv hstop.1 hrest
        rw [add_assoc]
        simp only [bind_assoc]
        refine owns_admitRequest fuel (fun _ => hout _) hholds hstop.1 hfits ?_
        exact fun after next held hafter hbusy => ih hafter hbusy

/-- An idle reactor has nothing in its hands when it blocks. -/
lemma owns_receiveNext {f : Option Reactor → Task α} (fuel : ℕ)
    (hout : ∀ held, Owns (logic healthy cap) goal (f none) held) (h : Holds healthy cap reactor view held)
    (hbusy : reactor.parked.isSome → reactor.inflight ≠ [])
    (hnext : ∀ after next held, Holds healthy cap after next held →
      (after.parked.isSome → after.inflight ≠ []) →
      Owns (logic healthy cap) goal (f (some after)) ({.ring next}+held)) :
    Owns (logic healthy cap) goal (reactor.receiveNext fuel cap >>= f) ({.ring view}+held) := by
  rw [Reactor.receiveNext]
  split_ifs with hstop hsome
  · exact hnext _ _ _ h hbusy
  · exact owns_topUp fuel fuel hout h hbusy hnext
  · rw [Bool.or_eq_true, not_or, Bool.not_eq_true, Option.isSome_eq_false_iff,
      Option.isNone_iff_eq_none] at hstop
    rw [not_not] at hsome
    have hnone : healthy = true → view.entries = 0 ∧ held = 0 := by
      rintro rfl
      obtain ⟨ledger,orphans,lost,hkept,rfl⟩ := h
      obtain ⟨horphans,hlost,-⟩ := hkept.whole rfl
      rw [hkept.entries, hsome, hstop.1, horphans, hlost]
      exact ⟨rfl,rfl⟩
    simp only [bind_assoc]
    refine Owns.ask held (.blockingRecv view fun hhealthy => (hnone hhealthy).1) rfl (fun t ht => ?_) ?_
    · cases healthy with
      | true =>
        rw [(hnone rfl).2] at ht
        exact absurd ht (Multiset.notMem_zero _)
      | false => rfl
    rintro (_ | req) rest hrest
    · obtain ⟨rfl,hholds⟩ := h.close hrest
      exact owns_topUp fuel fuel hout hholds hbusy hnext
    · obtain ⟨rfl,hholds,hfits⟩ := h.recv hstop.1 hrest
      rw [add_assoc]
      simp only [bind_assoc]
      refine owns_admitRequest fuel (fun _ => hout _) hholds hstop.1 hfits ?_
      exact fun after next held hafter hbusy => owns_topUp fuel fuel hout hafter hbusy hnext

lemma owns_admission {f : Option Reactor → Task α} (fuel : ℕ)
    (hout : ∀ held, Owns (logic healthy cap) goal (f none) held) (h : Holds healthy cap reactor view held)
    (hnext : ∀ after next held, Holds healthy cap after next held →
      (after.parked.isSome → after.inflight ≠ []) →
      Owns (logic healthy cap) goal (f (some after)) ({.ring next}+held)) :
    Owns (logic healthy cap) goal (reactor.admission fuel cap >>= f) ({.ring view}+held) := by
  rw [Reactor.admission]
  split
  · rename_i hparked
    refine owns_receiveNext fuel hout h (fun hsome => ?_) hnext
    rw [hparked] at hsome
    cases hsome
  · rename_i req hparked
    obtain ⟨ledger,orphans,lost,hkept,rfl⟩ := h
    have hfits : healthy = false → req.prepared.length ≤ cap ∧ reactor.nextSlot+1 ≤ view.taken := by
      intro hfaulty
      have hroom := (hkept.contained hfaulty).room
      rw [hparked] at hroom
      exact ⟨(hkept.contained hfaulty).small req hparked,hroom⟩
    have hfree : Kept healthy cap { reactor with parked := none } view ledger orphans lost :=
      { hkept with contained := fun hfaulty => { hkept.contained hfaulty with
          room := (Nat.le_add_right _ _).trans (hkept.contained hfaulty).room
          small := fun other hother => by cases hother } }
    have hheld : batchTokens ledger reactor.inflight+parkedTokens reactor.parked+lost =
        requestTokens req+(batchTokens ledger reactor.inflight+parkedTokens none+lost) := by
      rw [hparked, parkedTokens, parkedTokens]
      abel
    rw [hheld]
    simp only [bind_assoc]
    refine owns_admitRequest fuel (fun _ => hout _) ⟨ledger,orphans,lost,hfree,rfl⟩ rfl hfits ?_
    exact fun after next held hafter hbusy => owns_receiveNext fuel hout hafter hbusy hnext

/-- The reactor ends with nothing on the ring and nothing in its hands. -/
lemma owns_loop {f : Option Unit → Task α} (fuel : ℕ)
    (hout : ∀ held, Owns (logic healthy cap) goal (f none) held) (h : Holds healthy cap reactor view held)
    (hend : ∀ next, next.entries = 0 → next.ended = true →
      Owns (logic healthy cap) goal (f (some ())) {.ring next}) :
    Owns (logic healthy cap) goal (Reactor.loop cap fuel reactor >>= f) ({.ring view}+held) := by
  induction fuel generalizing reactor view held with
  | zero => exact hout _
  | succ fuel ih =>
    rw [Reactor.loop, bind_assoc]
    refine owns_admission fuel (fun _ => hout _) h fun after next held hafter hbusy => ?_
    dsimp only
    split_ifs with hdone
    · obtain ⟨ledger,orphans,lost,hkept,rfl⟩ := hafter
      rw [Bool.and_eq_true, Bool.and_eq_true, List.isEmpty_iff, Option.isNone_iff_eq_none] at hdone
      obtain ⟨⟨hclosed,hnone⟩,hparked⟩ := hdone
      have hhealthy : healthy = true := by
        cases healthy with
        | true => rfl
        | false => exact absurd hclosed (by rw [(hkept.contained rfl).stillOpen]; exact Bool.false_ne_true)
      obtain ⟨horphans,hlost,-,hleaked⟩ := hkept.whole hhealthy
      have hzero : next.entries = 0 := by
        rw [hkept.entries, hnone, horphans]
        rfl
      rw [hleaked, hnone, hparked, hlost]
      exact hend next hzero (hkept.ended hclosed)
    · simp only [bind_assoc]
      refine owns_completions fuel (fun _ => hout _) hafter hbusy ?_
      exact fun last view held hlast => ih hlast

end Loop

section Callers
variable {healthy : Bool} {cap : ℕ} {α : Type} {goal : α → Multiset Token → Prop}
  {frame : Multiset Token} {iovecs : List Buffer}

lemma owns_prepareAll {f : Except IoError (List Prepared) → Task α} (reads : List (ℕ × Buffer))
    (hok : ∀ prepared, prepared.map (fun read : Prepared => (read.fd,read.ptr)) = reads →
      Owns (logic healthy cap) goal (f (.ok prepared)) frame)
    (hfail : ∀ error, error ≠ .reactorPanicked → error ≠ .lostOwnership →
      Owns (logic healthy cap) goal (f (.error error)) frame) :
    Owns (logic healthy cap) goal (prepareAll iovecs reads >>= f) frame := by
  induction reads generalizing f with
  | nil => exact hok [] rfl
  | cons read reads ih =>
    obtain ⟨id,ptr⟩ := read
    rw [prepareAll]
    split
    · rename_i error hindex
      rw [bufIdxFor] at hindex
      split_ifs at hindex
      cases hindex
      exact hfail _ nofun nofun
    · rename_i bufIdx _
      simp only [bind_assoc]
      refine Owns.look (.fdFor id) (fun _ _ => trivial) ?_
      rintro (error | fd) left hleft
      · cases error with
        | os code =>
          cases hleft
          rw [zero_add]
          exact hfail _ nofun nofun
        | _ => cases hleft
      · dsimp only at hleft
        split_ifs at hleft with hfd
        cases hleft
        rw [zero_add]
        simp only [bind_assoc]
        refine ih (fun prepared hprepared => ?_) (fun error hpanicked hlost => hfail error hpanicked hlost)
        refine hok _ ?_
        rw [List.map_cons, hprepared, hfd]

lemma owns_dropBuffers {f : Unit → Task α} (buffers : List Buffer)
    (hnext : Owns (logic healthy cap) goal (f ()) frame) :
    Owns (logic healthy cap) goal (dropBuffers buffers >>= f) (bufferTokens buffers+frame) := by
  induction buffers with
  | nil =>
    rw [bufferTokens_nil, zero_add]
    exact hnext
  | cons b buffers ih =>
    rw [dropBuffers, bind_assoc, bufferTokens_cons, add_assoc]
    refine Owns.ask _ (.dropBuffer b) rfl (fun _ _ => trivial) ?_
    rintro ⟨⟩ left ⟨⟩
    rwa [zero_add]

lemma owns_dropFilled {f : Unit → Task α} (experts : List (ℕ × Buffer))
    (hnext : Owns (logic healthy cap) goal (f ()) frame) :
    Owns (logic healthy cap) goal (dropBuffers (experts.map Prod.snd) >>= f)
      (filledTokens experts+frame) := by
  induction experts with
  | nil =>
    rw [filledTokens_nil, zero_add]
    exact hnext
  | cons expert experts ih =>
    rw [List.map_cons, dropBuffers, bind_assoc, filledTokens_cons, add_assoc]
    refine Owns.ask _ (.dropFilled expert.1 expert.2) rfl (fun _ _ => trivial) ?_
    rintro ⟨⟩ left ⟨⟩
    rwa [zero_add]

lemma owns_acquireAll {f : Except (List Buffer) (List Buffer) → Task α} (left : ℕ) (buffers : List Buffer)
    (hok : ∀ bufs, bufs.length = buffers.length+left →
      Owns (logic healthy cap) goal (f (.ok bufs)) (bufferTokens bufs+frame))
    (hfail : ∀ bufs, Owns (logic healthy cap) goal (f (.error bufs)) (bufferTokens bufs+frame)) :
    Owns (logic healthy cap) goal (acquireAll left buffers >>= f) (bufferTokens buffers+frame) := by
  induction left generalizing buffers with
  | zero => exact hok buffers rfl
  | succ left ih =>
    rw [acquireAll, bind_assoc]
    refine Owns.look .tryAcquire (fun _ _ => trivial) ?_
    rintro (_ | b) rest ⟨⟩
    · rw [Option.map_none, Option.getD_none, zero_add]
      exact hfail buffers
    · have hmore := ih (buffers++[b]) fun bufs hlength => hok bufs (by
        rw [hlength, List.length_append, List.length_singleton]
        omega)
      rw [bufferTokens_append, bufferTokens_cons, bufferTokens_nil, add_zero] at hmore
      convert hmore using 1
      rw [Option.map_some, Option.getD_some]
      abel

/-- A caller that waits has only his half of the cell, and gets his own experts. -/
lemma owns_readOwned {f : Option (Except IoError (List Buffer)) → Task α} (len : ℕ) (ids : List ℕ)
    (bufs : List Buffer) (hlength : bufs.length = ids.length)
    (hok : Owns (logic healthy cap) goal (f (some (.ok bufs))) (filledTokens (ids.zip bufs)))
    (hfail : ∀ result, result ≠ some (.error .reactorPanicked) → result ≠ some (.error .lostOwnership) →
      (∀ bufs, result ≠ some (.ok bufs)) → Owns (logic healthy cap) goal (f result) 0) :
    Owns (logic healthy cap) goal (readOwned iovecs len ids bufs >>= f) (bufferTokens bufs) := by
  have hsnd : (ids.zip bufs).map Prod.snd = bufs := List.map_snd_zip hlength.le
  have hgone : ∀ result (req : ReactorRequest), result ≠ some (.error .reactorPanicked) →
      result ≠ some (.error .lostOwnership) → (∀ bufs, result ≠ some (.ok bufs)) →
      Owns (logic healthy cap) goal (ask (.dropCaller req.keepAlive) >>= fun _ => f result)
        {.caller req} := by
    intro result req hpanicked hlost hbufs
    refine Owns.ask 0 (.dropCaller req) (add_zero _).symm (fun _ _ => trivial) ?_
    rintro ⟨⟩ left ⟨⟩
    exact hfail result hpanicked hlost hbufs
  have hkeeps : ∀ req : ReactorRequest, ∀ t ∈ ({.caller req} : Multiset Token), ∃ other, t = .caller other :=
    fun req t ht => ⟨req,Multiset.mem_singleton.mp ht⟩
  rw [readOwned, bind_assoc]
  refine owns_prepareAll _ (fun prepared hprepared => ?_) (fun error hpanicked hlost => ?_)
  · have hptrs : prepared.map Prepared.ptr = bufs := by
      rw [← hsnd, ← hprepared, List.map_map]
      rfl
    simp only [bind_assoc]
    refine Owns.ask 0 (.newRequest prepared len) (by rw [hptrs, add_zero]) (fun _ _ => trivial) ?_
    intro req left hleft
    split_ifs at hleft with hreq
    cases hleft
    rw [add_zero]
    refine Owns.ask {.caller req} (.send req) rfl (fun t ht => ?_) ?_
    · obtain ⟨other,rfl⟩ := hkeeps req t ht
      trivial
    rintro (_ | ⟨⟨⟩⟩ | ⟨⟨⟩⟩) left hleft
    · cases hleft
      simp only [bind_assoc, zero_add]
      exact hgone none req nofun nofun nofun
    · cases hleft
      simp only [bind_assoc, zero_add]
      exact hgone _ req nofun nofun nofun
    · cases hleft
      simp only [bind_assoc]
      refine Owns.ask {.caller req} (.receive req) rfl (fun t ht => ?_) ?_
      · obtain ⟨other,rfl⟩ := hkeeps req t ht
        trivial
      rintro (_ | ⟨⟨⟩⟩ | (error | n)) left hleft
      · cases hleft
        simp only [bind_assoc, zero_add]
        exact hgone none req nofun nofun nofun
      · cases hleft
      · dsimp only at hleft
        split_ifs at hleft with herror
        cases hleft
        simp only [bind_assoc, zero_add]
        refine hgone _ req (fun h => ?_) (fun h => ?_) nofun
        · cases h
          cases herror
        · cases h
          cases herror
      · dsimp only at hleft
        split_ifs at hleft with hn
        cases hleft
        simp only [bind_assoc]
        refine Owns.ask 0 (.recover req) (by abel) (fun _ _ => trivial) ?_
        intro taken left hleft
        split_ifs at hleft with htaken
        cases hleft
        rw [htaken, hreq.1, hptrs, add_zero]
        simp only [bind_assoc]
        refine Owns.ask (filledTokens req.experts) (.dropCaller req) rfl (fun _ _ => trivial) ?_
        rintro ⟨⟩ left ⟨⟩
        rw [zero_add, pure_bind, ReactorRequest.experts, hreq.1, hprepared]
        exact hok
  · rw [← add_zero (bufferTokens bufs)]
    simp only [bind_assoc]
    refine owns_dropBuffers bufs ?_
    rw [pure_bind]
    exact hfail _ (fun h => hpanicked (by cases h; rfl)) (fun h => hlost (by cases h; rfl)) nofun

end Callers

end MicroExpertRouter.IoUring
