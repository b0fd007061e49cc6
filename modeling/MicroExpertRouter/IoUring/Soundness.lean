import MicroExpertRouter.IoUring.Ownership

/-! Every rule of the ownership logic of the io_uring backend is right, and the drive may complete
reads at any time: it writes only to buffers that the reactor keeps alive. -/
namespace MicroExpertRouter.IoUring
open Backend

section Numbers
variable {α β : Type} {l : Multiset α} {a b : α} {f : α → ℕ} {g : ℕ → β} {v : β}

/-- A change that a predicate does not see. -/
lemma filter_update_same (p : β → Bool) (n : ℕ) (hsame : p v = p (g n)) :
    l.filter (fun x => p (Function.update g n v (f x)) = true) = l.filter fun x => p (g (f x)) = true := by
  refine Multiset.filter_congr fun x _ => ?_
  by_cases hx : f x = n
  · rw [hx, Function.update_self, hsame]
  · rw [Function.update_of_ne hx]

/-- A change after which one element less is counted. -/
lemma filter_update_less (p : β → Bool) (hnodup : (l.map f).Nodup) (ha : a ∈ l)
    (hold : p (g (f a)) = true) (hnew : p v = false) :
    l.filter (fun x => p (g (f x)) = true) =
      a::ₘ l.filter fun x => p (Function.update g (f a) v (f x)) = true := by
  obtain ⟨rest,rfl⟩ := Multiset.exists_cons_of_mem ha
  rw [Multiset.map_cons, Multiset.nodup_cons] at hnodup
  rw [Multiset.filter_cons_of_pos (p := fun x => p (g (f x)) = true) _ hold,
    Multiset.filter_cons_of_neg]
  · congr 1
    refine Multiset.filter_congr fun x hx => ?_
    rw [Function.update_of_ne]
    rintro heq
    exact hnodup.1 (Multiset.mem_map.mpr ⟨x,hx,heq⟩)
  · rw [Function.update_self, hnew]
    exact Bool.false_ne_true

lemma eq_of_nodup_map (hnodup : (l.map f).Nodup) (ha : a ∈ l) (hb : b ∈ l) (heq : f a = f b) : a = b := by
  by_contra hne
  obtain ⟨rest,rfl⟩ := Multiset.exists_cons_of_mem ha
  rw [Multiset.map_cons, Multiset.nodup_cons] at hnodup
  obtain rfl | hb := Multiset.mem_cons.mp hb
  · exact hne rfl
  · exact hnodup.1 (Multiset.mem_map.mpr ⟨b,hb,heq.symm⟩)

lemma update_of_other (hnodup : (l.map f).Nodup) (ha : a ∈ l) (hb : b ∈ l) (hne : b ≠ a) :
    Function.update g (f a) v (f b) = g (f b) :=
  Function.update_of_ne (fun heq => hne (eq_of_nodup_map hnodup hb ha heq)) _ _

end Numbers

section Facts
variable {iovecs : List Buffer} {s : Backend} {held : Multiset Token} {view : View}
  {req : ReactorRequest}

lemma bind_le {β : Type} {f g : Token → Multiset β} (hle : ∀ t, f t ≤ g t) (held : Multiset Token) :
    held.bind f ≤ held.bind g := by
  induction held using Multiset.induction with
  | empty => simp
  | cons t held ih =>
    rw [Multiset.cons_bind, Multiset.cons_bind]
    exact add_le_add (hle t) ih

lemma keeps_le_arcs (held : Multiset Token) : held.bind Token.keeps ≤ held.bind Token.arcs :=
  bind_le (fun t => by cases t <;> simp) held

lemma grants_le_claims (held : Multiset Token) : held.bind Token.grants ≤ held.bind Token.claims :=
  bind_le (fun t => by cases t <;> simp) held

lemma receivers_le_claims (held : Multiset Token) :
    held.bind Token.receivers ≤ held.bind Token.claims :=
  bind_le (fun t => by cases t <;> simp) held

/-- A buffer is known to its owner, who has it or has it as a target. -/
lemma mem_known {expert : ℕ × Buffer} (h : expert ∈ held.bind Token.known) :
    expert.2 ∈ held.bind Token.raw ∨ expert.2 ∈ (held.bind Token.targets).map Prod.fst := by
  obtain ⟨t,ht,hmem⟩ := Multiset.mem_bind.mp h
  cases t with
  | filled id b =>
    cases Multiset.mem_singleton.mp hmem
    exact .inl (Multiset.mem_bind.mpr ⟨_,ht,Multiset.mem_singleton_self _⟩)
  | target b read =>
    cases read with
    | none => exact absurd hmem (Multiset.notMem_zero _)
    | some id =>
      cases Multiset.mem_singleton.mp hmem
      exact .inr (Multiset.mem_map.mpr
        ⟨_,Multiset.mem_bind.mpr ⟨_,ht,Multiset.mem_singleton_self _⟩,rfl⟩)
  | _ => exact absurd hmem (Multiset.notMem_zero _)

namespace Fits

lemma replies_nodup (h : Fits iovecs s held) :
    ((s.requests : Multiset ReactorRequest).map ReactorRequest.reply).Nodup := by
  rw [Multiset.map_coe, h.replies]
  exact List.nodup_range

lemma owners_nodup (h : Fits iovecs s held) :
    ((s.requests : Multiset ReactorRequest).map ReactorRequest.keepAlive).Nodup := by
  rw [Multiset.map_coe, h.owners]
  exact List.nodup_range

lemma sender_mem (h : Fits iovecs s held) (hreq : req ∈ held.bind Token.senders) :
    req ∈ s.requests ∧ s.replies req.reply = .waiting := by
  have hmem : req ∈ held.bind Token.senders+s.channel := Multiset.mem_add.mpr (.inl hreq)
  rw [h.cells.senders, Multiset.mem_filter] at hmem
  refine ⟨hmem.1,?_⟩
  cases hreply : s.replies req.reply with
  | waiting => rfl
  | sent result => simp [hreply, Oneshot.isWaiting] at hmem
  | dropped => simp [hreply, Oneshot.isWaiting] at hmem

lemma arc_mem (h : Fits iovecs s held) (hreq : req ∈ held.bind Token.arcs) :
    req ∈ s.requests ∧ (s.shared req.keepAlive).reactor = true := by
  have hmem : req ∈ held.bind Token.arcs+s.channel := Multiset.mem_add.mpr (.inl hreq)
  rw [h.cells.arcs, Multiset.mem_filter] at hmem
  exact hmem

lemma caller_mem (h : Fits iovecs s held) (hreq : req ∈ held.bind Token.callers) :
    req ∈ s.requests ∧ (s.shared req.keepAlive).caller = true := by
  rw [h.cells.callers, Multiset.mem_filter] at hreq
  exact hreq

lemma claim_mem (h : Fits iovecs s held) (hreq : req ∈ held.bind Token.claims) : req ∈ s.requests :=
  Multiset.mem_of_le h.cells.claims hreq

/-- What a keep-alive keeps. -/
lemma kept_of_keeps (h : Fits iovecs s held) (hreq : req ∈ held.bind Token.keeps) :
    req ∈ s.requests ∧ (s.shared req.keepAlive).kept = req.prepared.map Prepared.ptr := by
  obtain ⟨hmem,hreactor⟩ := h.arc_mem (Multiset.mem_of_le (keeps_le_arcs held) hreq)
  refine ⟨hmem,?_⟩
  obtain hbuffers | ⟨-,n,hreply⟩ := h.cells.buffers req hmem
  · rw [Shared.kept, hreactor, Bool.or_true, if_pos rfl, hbuffers, Option.getD_some]
  · exact absurd hreply (h.cells.unanswered req hreq n)

lemma lent_nodup (h : Fits iovecs s held) : (lent s.requests s.shared).Nodup := by
  have hnodup : (iovecs : Multiset Buffer).Nodup := h.distinct
  rw [← h.bytes.whole, Multiset.nodup_add] at hnodup
  exact hnodup.2.1

/-- A buffer in a cell is neither free nor with a caller. -/
lemma lent_apart (h : Fits iovecs s held) {b : Buffer} (hb : b ∈ lent s.requests s.shared) :
    b ∉ s.free ∧ b ∉ held.bind Token.raw := by
  have hnodup : (iovecs : Multiset Buffer).Nodup := h.distinct
  rw [← h.bytes.whole, Multiset.nodup_add] at hnodup
  have hnot := Multiset.disjoint_right.mp hnodup.2.2 hb
  rw [Multiset.mem_add, not_or] at hnot
  exact hnot

lemma requests_nodup (h : Fits iovecs s held) : (s.requests : Multiset ReactorRequest).Nodup :=
  Multiset.Nodup.of_map _ h.replies_nodup

/-- A buffer is in one cell only. -/
lemma lent_unique (h : Fits iovecs s held) {other : ReactorRequest} {b : Buffer}
    (hreq : req ∈ s.requests) (hother : other ∈ s.requests)
    (hb : b ∈ (s.shared req.keepAlive).kept) (hb' : b ∈ (s.shared other.keepAlive).kept) :
    req = other := by
  by_contra hne
  have hnodup := h.lent_nodup
  obtain ⟨rest,hrest⟩ := Multiset.exists_cons_of_mem (Multiset.mem_coe.mpr hreq)
  have hin : other ∈ rest := by
    have hmem : other ∈ req::ₘ rest := hrest ▸ Multiset.mem_coe.mpr hother
    exact (Multiset.mem_cons.mp hmem).resolve_left (Ne.symm hne)
  rw [lent, hrest, Multiset.cons_bind, Multiset.nodup_add] at hnodup
  exact Multiset.disjoint_left.mp hnodup.2.2 (Multiset.mem_coe.mpr hb)
    (Multiset.mem_bind.mpr ⟨other,hin,Multiset.mem_coe.mpr hb'⟩)

lemma kept_le_lent (h : Fits iovecs s held) :
    (held.bind Token.keeps).bind ReactorRequest.ptrs ≤ lent s.requests s.shared := by
  have hle : held.bind Token.keeps ≤ (s.requests : Multiset ReactorRequest) := by
    refine (keeps_le_arcs held).trans ((Multiset.le_add_right _ (s.channel : Multiset _)).trans ?_)
    rw [h.cells.arcs]
    exact Multiset.filter_le _ _
  obtain ⟨rest,hrest⟩ := Multiset.le_iff_exists_add.mp hle
  rw [lent, hrest, Multiset.add_bind]
  refine le_trans (le_of_eq ?_) (Multiset.le_add_right _ _)
  refine Multiset.bind_congr fun req hreq => ?_
  rw [(h.kept_of_keeps hreq).2]
  rfl

/-- Distinct entries write to distinct buffers, and to none that waits or was read. -/
lemma targets_nodup (h : Fits iovecs s held) (hview : held.bind Token.views = {view}) :
    (view.entries.map Sqe.ptr+(held.bind Token.targets).map Prod.fst).Nodup := by
  have hkept := h.entries.kept
  rw [hview, Multiset.singleton_bind] at hkept
  rw [← hkept]
  exact Multiset.nodup_of_le h.kept_le_lent h.lent_nodup

/-- An entry writes to a buffer that is kept alive for an unanswered request, or for a failed one. -/
lemma entry_kept (h : Fits iovecs s held) (hview : held.bind Token.views = {view}) {b : Buffer}
    (hb : b ∈ view.entries.map Sqe.ptr+(held.bind Token.targets).map Prod.fst) :
    ∃ req ∈ held.bind Token.keeps, req ∈ s.requests ∧ b ∈ (s.shared req.keepAlive).kept := by
  have hkept := h.entries.kept
  rw [hview, Multiset.singleton_bind] at hkept
  rw [← hkept] at hb
  obtain ⟨req,hreq,hmem⟩ := Multiset.mem_bind.mp hb
  obtain ⟨hin,heq⟩ := h.kept_of_keeps hreq
  refine ⟨req,hreq,hin,?_⟩
  rw [heq]
  exact hmem

lemma mem_lent {b : Buffer} (hreq : req ∈ s.requests) (hb : b ∈ (s.shared req.keepAlive).kept) :
    b ∈ lent s.requests s.shared :=
  Multiset.mem_bind.mpr ⟨req,Multiset.mem_coe.mpr hreq,Multiset.mem_coe.mpr hb⟩

end Fits
end Facts

section Drive
variable {iovecs : List Buffer} {s : Backend} {held : Multiset Token}

/-- A read that the drive completes writes to its own buffer only. -/
lemma Fits.complete (h : Fits iovecs s held) (completion : ℕ × ℤ) :
    Fits iovecs (s.complete completion) held := by
  unfold Backend.complete
  split
  · exact h
  · rename_i entry hentry
    obtain ⟨view,hview⟩ := h.entries.single
    obtain ⟨hi,hget⟩ := List.getElem?_eq_some_iff.mp hentry
    have hserving : (s.serving : Multiset Sqe) = entry::ₘ s.serving.eraseIdx completion.1 := by
      rw [Multiset.cons_coe, Multiset.coe_eq_coe, ← hget]
      exact (List.getElem_cons_eraseIdx_perm hi).symm
    have hright := h.entries.right view (by simp [hview])
    have hentries := hright.entries
    rw [hserving] at hentries
    have hnodup := h.targets_nodup hview
    have hmap : view.entries.map Sqe.ptr = entry.ptr::ₘ
        ((s.queued : Multiset Sqe)+s.serving.eraseIdx completion.1+s.completed.map Cqe.entry).map
          Sqe.ptr := by
      rw [hentries, ← Multiset.map_cons]
      congr 1
      rw [Multiset.add_cons, Multiset.cons_add]
    rw [hmap, Multiset.cons_add, Multiset.nodup_cons] at hnodup
    have hpinned : entry.ptr ∈ view.entries.map Sqe.ptr+(held.bind Token.targets).map Prod.fst := by
      rw [hmap, Multiset.cons_add]
      exact Multiset.mem_cons_self _ _
    obtain ⟨keeper,hkeeper,hin,hkept⟩ := h.entry_kept hview hpinned
    obtain ⟨-,hraw⟩ := h.lent_apart (Fits.mem_lent hin hkept)
    refine ⟨h.distinct,h.replies,h.owners,h.honest,⟨h.entries.single,?_,h.entries.taken,?_,h.entries.kept⟩,
      h.cells,⟨h.bytes.whole,?_,?_⟩⟩
    · intro other hother
      rw [hview, Multiset.mem_singleton] at hother
      subst hother
      refine ⟨?_,hright.flushed,hright.ended⟩
      rw [hentries, List.map_append, ← Multiset.coe_add, List.map_singleton, Multiset.coe_singleton,
        ← Multiset.singleton_add]
      abel
    · intro cqe hcqe
      obtain hcqe | hcqe := List.mem_append.mp hcqe
      · exact h.entries.results cqe hcqe
      · rw [List.mem_singleton.mp hcqe]
        exact min_le_right _ _
    · intro expert hexpert
      dsimp only [landed] at hexpert ⊢
      rw [← Multiset.coe_add, Multiset.add_bind, Multiset.coe_singleton, Multiset.singleton_bind,
        ← add_assoc] at hexpert
      obtain hexpert | hexpert := Multiset.mem_add.mp hexpert
      · have hne : expert.2 ≠ entry.ptr := by
          intro heq
          obtain hexpert | hexpert := Multiset.mem_add.mp hexpert
          · obtain hmem | hmem := mem_known hexpert
            · exact hraw (heq ▸ hmem)
            · exact hnodup.1 (Multiset.mem_add.mpr (.inr (heq ▸ hmem)))
          · obtain ⟨cqe,hcqe,hmem⟩ := Multiset.mem_bind.mp hexpert
            split_ifs at hmem with hfull
            · cases Multiset.mem_singleton.mp hmem
              refine hnodup.1 (Multiset.mem_add.mpr (.inl (Multiset.mem_map.mpr ⟨cqe.entry,?_,heq⟩)))
              exact Multiset.mem_add.mpr (.inr (Multiset.mem_coe.mpr
                (List.mem_map_of_mem (Multiset.mem_coe.mp hcqe))))
            · exact absurd hmem (Multiset.notMem_zero _)
        rw [Function.update_of_ne hne]
        exact h.bytes.contents expert hexpert
      · split_ifs at hexpert with hfull
        · cases Multiset.mem_singleton.mp hexpert
          rw [Function.update_self, if_pos hfull]
        · exact absurd hexpert (Multiset.notMem_zero _)
    · intro req hreq n hreply
      obtain ⟨hn,hcontent⟩ := h.bytes.answered req hreq n hreply
      refine ⟨hn,fun read hread hmem => ?_⟩
      dsimp only at hmem ⊢
      rw [Function.update_of_ne]
      · exact hcontent read hread hmem
      · intro heq
        rw [heq] at hmem
        obtain rfl := h.lent_unique hreq hin hmem hkept
        exact h.cells.unanswered req hkeeper n hreply

lemma Fits.completeAll (h : Fits iovecs s held) (completions : List (ℕ × ℤ)) :
    Fits iovecs (completions.foldl Backend.complete s) held := by
  induction completions generalizing s with
  | nil => exact h
  | cons completion completions ih => exact ih (h.complete completion)

end Drive

section Same
variable {requests channel : List ReactorRequest} {shared : ℕ → Shared} {replies : ℕ → Oneshot}
  {iovecs free : List Buffer} {content : Buffer → Option ℕ} {completed : List Cqe}
  {held next : Multiset Token}

/-- The same oneshots and halves of cells are owned. -/
structure SameCells (held next : Multiset Token) : Prop where
  senders : next.bind Token.senders = held.bind Token.senders
  arcs : next.bind Token.arcs = held.bind Token.arcs
  callers : next.bind Token.callers = held.bind Token.callers
  claims : next.bind Token.claims = held.bind Token.claims
  grants : next.bind Token.grants = held.bind Token.grants
  receivers : next.bind Token.receivers = held.bind Token.receivers
  keeps : next.bind Token.keeps = held.bind Token.keeps

structure SameBytes (held next : Multiset Token) : Prop where
  raw : next.bind Token.raw = held.bind Token.raw
  known : next.bind Token.known = held.bind Token.known

lemma Cells.same (h : Cells requests channel shared replies held) (hsame : SameCells held next) :
    Cells requests channel shared replies next := by
  refine ⟨?_,?_,?_,?_,h.buffers,?_,?_,?_,?_⟩
  · simpa only [hsame.senders] using h.senders
  · simpa only [hsame.arcs] using h.arcs
  · simpa only [hsame.callers] using h.callers
  · simpa only [hsame.claims] using h.claims
  · simpa only [hsame.claims] using h.untaken
  · simpa only [hsame.grants] using h.granted
  · simpa only [hsame.receivers] using h.received
  · simpa only [hsame.keeps] using h.unanswered

lemma Bytes.same (h : Bytes requests shared replies iovecs free content completed held)
    (hsame : SameBytes held next) :
    Bytes requests shared replies iovecs free content completed next := by
  refine ⟨?_,?_,h.answered⟩
  · simpa only [hsame.raw] using h.whole
  · simpa only [hsame.known] using h.contents

end Same

section Ring
variable {iovecs : List Buffer} {s : Backend} {held : Multiset Token} {view : View}
  {req : ReactorRequest}

namespace Fits

/-- There is one view. -/
lemma others (h : Fits iovecs s ({.ring view}+held)) : held.bind Token.views = 0 := by
  obtain ⟨first,hfirst⟩ := h.entries.single
  have hcard := congrArg Multiset.card hfirst
  rw [Multiset.add_bind, Multiset.singleton_bind, Multiset.card_add] at hcard
  simp only [Token.views, Multiset.card_singleton] at hcard
  exact Multiset.card_eq_zero.mp (by omega)

lemma right (h : Fits iovecs s ({.ring view}+held)) : view.Right s :=
  h.entries.right view (by simp)

/-- What the reactor keeps alive, with its view spelled out. -/
lemma kept (h : Fits iovecs s ({.ring view}+held)) : (held.bind Token.keeps).bind ReactorRequest.ptrs =
    view.entries.map Sqe.ptr+(held.bind Token.targets).map Prod.fst := by
  have hkept := h.entries.kept
  simpa [h.others] using hkept

lemma taken (h : Fits iovecs s ({.ring view}+held)) : view.taken+s.channel.length+
    Multiset.card (held.bind Token.unsents) ≤ s.requests.length := by
  have htaken := h.entries.taken view (by simp)
  simpa only [Multiset.add_bind, Multiset.singleton_bind, Token.unsents, zero_add] using htaken

/-- A view that is right again. -/
lemma entries_of {next : Backend} {after : View} {rest : Multiset Token}
    (hothers : rest.bind Token.views = 0) (hright : after.Right next)
    (htaken : after.taken+next.channel.length+Multiset.card (rest.bind Token.unsents) ≤
      next.requests.length) (hresults : ∀ cqe ∈ next.completed, cqe.result ≤ cqe.entry.len)
    (hkept : (rest.bind Token.keeps).bind ReactorRequest.ptrs =
      after.entries.map Sqe.ptr+(rest.bind Token.targets).map Prod.fst) :
    Entries next ({.ring after}+rest) := by
  have hviews : (({.ring after} : Multiset Token)+rest).bind Token.views = {after} := by
    rw [Multiset.add_bind, Multiset.singleton_bind, hothers, add_zero]
    rfl
  refine ⟨⟨after,hviews⟩,?_,?_,hresults,?_⟩
  · rw [hviews]
    intro view hview
    rwa [Multiset.mem_singleton.mp hview]
  · rw [hviews]
    intro view hview
    rw [Multiset.mem_singleton.mp hview]
    simpa only [Multiset.add_bind, Multiset.singleton_bind, Token.unsents, zero_add] using htaken
  · rw [hviews]
    simpa using hkept

lemma faulted (h : Fits iovecs s held) : Fits iovecs s.faulted held :=
  ⟨h.distinct,h.replies,h.owners,h.honest,⟨h.entries.single,fun view hview =>
    ⟨(h.entries.right view hview).entries,(h.entries.right view hview).flushed,
      (h.entries.right view hview).ended⟩,h.entries.taken,h.entries.results,h.entries.kept⟩,
    h.cells,h.bytes⟩

lemma push {sqe : Sqe} (h : Fits iovecs s ({.ring view}+({.target sqe.ptr none}+held))) :
    Fits iovecs { s with queued := s.queued++[sqe] }
      ({.ring { view with entries := sqe::ₘ view.entries, flushed := false }}+held) := by
  have hright := h.right
  refine ⟨h.distinct,h.replies,h.owners,h.honest,entries_of (by simpa using h.others) ⟨?_,nofun,hright.ended⟩
    (by simpa using h.taken) h.entries.results ?_,h.cells.same ?_,h.bytes.same ?_⟩
  · dsimp only
    rw [hright.entries, ← Multiset.coe_add, Multiset.coe_singleton, ← Multiset.singleton_add]
    abel
  · have hkept := h.kept
    simp only [Multiset.add_bind, Multiset.singleton_bind, Token.keeps, Token.targets, zero_add,
      Multiset.map_add, Multiset.map_singleton] at hkept
    rw [hkept, Multiset.map_cons, ← Multiset.singleton_add]
    abel
  · constructor <;> simp
  · constructor <;> simp

lemma submit (h : Fits iovecs s ({.ring view}+held)) :
    Fits iovecs { s with queued := [], serving := s.serving++s.queued }
      ({.ring { view with flushed := true }}+held) := by
  have hright := h.right
  refine ⟨h.distinct,h.replies,h.owners,h.honest,entries_of h.others ⟨?_,fun _ => rfl,hright.ended⟩ h.taken
    h.entries.results h.kept,h.cells.same ?_,h.bytes.same ?_⟩
  · dsimp only
    rw [hright.entries, ← Multiset.coe_add, Multiset.coe_nil]
    abel
  · constructor <;> simp
  · constructor <;> simp

/-- The channel is at its end. -/
lemma finish (h : Fits iovecs s ({.ring view}+held)) (hclosed : s.closed = true)
    (hchannel : s.channel = []) : Fits iovecs s ({.ring { view with ended := true }}+held) := by
  have hright := h.right
  refine ⟨h.distinct,h.replies,h.owners,h.honest,entries_of h.others
    ⟨hright.entries,hright.flushed,fun _ => ⟨hclosed,hchannel⟩⟩ h.taken h.entries.results h.kept,
    h.cells.same ?_,h.bytes.same ?_⟩
  · constructor <;> simp
  · constructor <;> simp

/-- A completion that is taken out of the queue: its entry was pushed, and the drive is through with
the buffer. -/
lemma reap {cqe : Cqe} {completed : List Cqe} (h : Fits iovecs s ({.ring view}+held))
    (hcompleted : s.completed = cqe::completed) : ∃ left, completionLeaves view cqe = some left ∧
      Fits iovecs { s with completed := completed } (left+held) := by
  have hright := h.right
  have hresult := h.entries.results cqe (by simp [hcompleted])
  have hentries := hright.entries
  rw [hcompleted, List.map_cons, ← Multiset.cons_coe, Multiset.add_cons] at hentries
  have hmem : cqe.entry ∈ view.entries := by
    rw [hentries]
    exact Multiset.mem_cons_self _ _
  have herase : view.entries.erase cqe.entry =
      (s.queued : Multiset Sqe)+s.serving+completed.map Cqe.entry := by
    rw [hentries, Multiset.erase_cons_head]
  refine ⟨_,if_pos ⟨hmem,hresult⟩,?_⟩
  rw [add_assoc]
  refine ⟨h.distinct,h.replies,h.owners,h.honest,entries_of (by simpa using h.others)
    ⟨herase,hright.flushed,hright.ended⟩ (by simpa using h.taken) (fun other hother => ?_) ?_,
    h.cells.same ?_,?_,?_,h.bytes.answered⟩
  · exact h.entries.results other (by simp [hcompleted, hother])
  · have hkept := h.kept
    rw [← Multiset.cons_erase hmem, Multiset.map_cons, ← Multiset.singleton_add] at hkept
    simp only [Multiset.add_bind, Multiset.singleton_bind, Token.keeps, Token.targets, zero_add,
      Multiset.map_add, Multiset.map_singleton]
    rw [hkept]
    abel
  · constructor <;> simp
  · simpa using h.bytes.whole
  · intro expert hexpert
    refine h.bytes.contents expert ?_
    have hlanded : landed s.completed = (if cqe.result = cqe.entry.len then
        {(cqe.entry.fd,cqe.entry.ptr)} else 0)+landed completed := by
      rw [landed, hcompleted, ← Multiset.cons_coe, Multiset.cons_bind]
      rfl
    rw [hlanded]
    split_ifs at hexpert ⊢ <;> simpa [or_left_comm, or_assoc] using hexpert

lemma channel_waiting (h : Fits iovecs s held) (hreq : req ∈ s.channel) :
    req ∈ s.requests ∧ (s.replies req.reply).isWaiting = true := by
  have hmem : req ∈ held.bind Token.senders+s.channel := Multiset.mem_add.mpr (.inr hreq)
  rw [h.cells.senders, Multiset.mem_filter] at hmem
  exact hmem

/-- The reactor takes the next request, with all that it brings. -/
lemma recv {channel : List ReactorRequest} (h : Fits iovecs s ({.ring view}+held))
    (hchannel : s.channel = req::channel) : Fits iovecs { s with channel := channel }
      ({.ring { view with taken := view.taken+1 }}+{.request req}+{.keepAlive req}+
        targetTokens req.unread+held) := by
  have hright := h.right
  have hsenders := h.cells.senders
  have harcs := h.cells.arcs
  rw [hchannel, ← Multiset.cons_coe, ← Multiset.singleton_add] at hsenders harcs
  have hwaiting := (h.channel_waiting (show req ∈ _ by simp [hchannel])).2
  rw [add_assoc, add_assoc, add_assoc]
  refine ⟨h.distinct,h.replies,h.owners,h.honest,entries_of (by simpa using h.others)
    ⟨hright.entries,hright.flushed,fun hended => ?_⟩ ?_ h.entries.results ?_,
    ⟨?_,?_,?_,?_,h.cells.buffers,?_,?_,?_,?_⟩,h.bytes.same ?_⟩
  · have hempty := (hright.ended hended).2
    rw [hchannel] at hempty
    cases hempty
  · have htaken := h.taken
    rw [hchannel, List.length_cons] at htaken
    simp only [Multiset.add_bind, Multiset.singleton_bind, Token.unsents, bind_targetTokens,
      Multiset.bind_zero, zero_add]
    omega
  · simp only [Multiset.add_bind, targets_targetTokens, Multiset.map_add, ReactorRequest.unread_fst]
    simp only [Multiset.singleton_bind, Token.keeps, Token.targets, bind_targetTokens,
      Multiset.bind_zero, Multiset.zero_bind, Multiset.map_zero, zero_add]
    rw [h.kept]
    abel
  · simp only [Multiset.add_bind, Multiset.singleton_bind, Token.senders, bind_targetTokens,
      Multiset.bind_zero, zero_add] at hsenders ⊢
    rw [← hsenders]
    abel
  · simp only [Multiset.add_bind, Multiset.singleton_bind, Token.arcs, bind_targetTokens,
      Multiset.bind_zero, zero_add] at harcs ⊢
    rw [← harcs]
    abel
  · simpa using h.cells.callers
  · simpa using h.cells.claims
  · simpa using h.cells.untaken
  · simpa using h.cells.granted
  · simpa using h.cells.received
  · intro other hother n hsent
    have hother' : other = req ∨ other ∈ held.bind Token.keeps := by simpa using hother
    obtain rfl | hother' := hother'
    · rw [hsent] at hwaiting
      cases hwaiting
    · exact h.cells.unanswered other (by simpa using hother') n hsent
  · constructor <;> simp

end Fits
end Ring

section Requests
variable {iovecs : List Buffer} {s : Backend} {held rest : Multiset Token} {view : View}
  {req other : ReactorRequest} {state : Oneshot}

namespace Fits

/-- Nothing about the ring has changed. -/
lemma entries_same {next : Backend} {after : Multiset Token} (h : Entries s held)
    (hright : ∀ view : View, view.Right s → view.Right next) (hcompleted : next.completed = s.completed)
    (htaken : next.channel.length+Multiset.card (after.bind Token.unsents)+s.requests.length ≤
      s.channel.length+Multiset.card (held.bind Token.unsents)+next.requests.length)
    (hviews : after.bind Token.views = held.bind Token.views)
    (hkeeps : after.bind Token.keeps = held.bind Token.keeps)
    (htargets : after.bind Token.targets = held.bind Token.targets) : Entries next after := by
  refine ⟨?_,fun view hview => hright view (h.right view (hviews ▸ hview)),fun view hview => ?_,?_,?_⟩
  · rw [hviews]
    exact h.single
  · have hold := h.taken view (hviews ▸ hview)
    omega
  · rw [hcompleted]
    exact h.results
  · rw [hkeeps, hviews, htargets]
    exact h.kept

/-- A request that is answered, or dropped. -/
lemma answer (h : Fits iovecs s ({.request req}+held)) (hstate : state.isWaiting = false)
    (hreceived : state = .dropped → req ∉ held.bind Token.receivers)
    (hok : ∀ n, state = .sent (.ok n) → req ∉ held.bind Token.keeps ∧
      n = req.prepared.length*req.len ∧ ∀ read ∈ req.prepared, s.content read.ptr = some read.fd)
    (hhonest : ∀ e, state = .sent (.error e) → e.isInternal = false) :
    Fits iovecs (s.setReply req.reply state) held := by
  obtain ⟨hreq,hwaiting⟩ := h.sender_mem (show req ∈ _ by simp)
  have hnodup := h.replies_nodup
  have hsame : ∀ other ∈ s.requests, other ≠ req →
      Function.update s.replies req.reply state other.reply = s.replies other.reply :=
    fun other hother hne => update_of_other hnodup hreq hother hne
  have hself : Function.update s.replies req.reply state req.reply = state := Function.update_self ..
  refine ⟨h.distinct,h.replies,h.owners,fun other hother e hsent => ?_,entries_same h.entries
    (fun view hview => ⟨hview.entries,hview.flushed,hview.ended⟩) rfl ?_ ?_ ?_ ?_,
    ⟨?_,?_,?_,?_,fun other hother => ?_,?_,fun other hother => ?_,fun other hother => ?_,
      fun other hother n hsent => ?_⟩,⟨?_,?_,fun other hother n hsent => ?_⟩⟩
  · change Function.update s.replies req.reply state other.reply = _ at hsent
    by_cases hne : other = req
    · rw [hne, hself] at hsent
      exact hhonest e hsent
    · rw [hsame other hother hne] at hsent
      exact h.honest other hother e hsent
  · simp [setReply]
  · simp
  · simp
  · simp
  · have hfilter := filter_update_less (g := s.replies) Oneshot.isWaiting hnodup hreq (by rw [hwaiting]; rfl)
      hstate
    have hsenders := h.cells.senders
    rw [hfilter, Multiset.add_bind, Multiset.singleton_bind] at hsenders
    simp only [Token.senders, Multiset.singleton_add, Multiset.cons_add] at hsenders
    exact (Multiset.cons_inj_right _).mp hsenders
  · have harcs := h.cells.arcs
    simp only [Multiset.add_bind, Multiset.singleton_bind, Token.arcs, zero_add] at harcs
    exact harcs
  · have hcallers := h.cells.callers
    simp only [Multiset.add_bind, Multiset.singleton_bind, Token.callers, zero_add] at hcallers
    exact hcallers
  · simpa [setReply] using h.cells.claims
  · obtain hbuffers | ⟨hnone,n,hsent⟩ := h.cells.buffers other hother
    · exact .inl hbuffers
    · refine .inr ⟨hnone,n,?_⟩
      change Function.update s.replies req.reply state other.reply = _
      rw [hsame other hother, hsent]
      rintro rfl
      rw [hwaiting] at hsent
      cases hsent
  · simpa [setReply] using h.cells.untaken
  · obtain ⟨n,hsent⟩ := h.cells.granted other (by simpa using hother)
    have hin := h.claim_mem (Multiset.mem_of_le (grants_le_claims _) (by simpa using hother))
    refine ⟨n,?_⟩
    change Function.update s.replies req.reply state other.reply = _
    rw [hsame other hin, hsent]
    rintro rfl
    rw [hwaiting] at hsent
    cases hsent
  · have hin := h.claim_mem (Multiset.mem_of_le (receivers_le_claims _) (by simpa using hother))
    change Function.update s.replies req.reply state other.reply ≠ _
    by_cases hne : other = req
    · rw [hne, hself]
      intro hdropped
      exact hreceived hdropped (hne ▸ hother)
    · rw [hsame other hin hne]
      exact h.cells.received other (by simpa using hother)
  · have hin := (h.arc_mem (Multiset.mem_of_le (keeps_le_arcs _) (by simpa using hother))).1
    change Function.update s.replies req.reply state other.reply = _ at hsent
    by_cases hne : other = req
    · rw [hne, hself] at hsent
      exact (hok n hsent).1 (hne ▸ hother)
    · rw [hsame other hin hne] at hsent
      exact h.cells.unanswered other (by simpa using hother) n hsent
  · simpa [setReply] using h.bytes.whole
  · simpa [setReply] using h.bytes.contents
  · change Function.update s.replies req.reply state other.reply = _ at hsent
    by_cases hne : other = req
    · rw [hne, hself] at hsent
      obtain ⟨-,hn,hcontent⟩ := hok n hsent
      rw [hne]
      exact ⟨hn,fun read hread _ => hcontent read hread⟩
    · rw [hsame other hother hne] at hsent
      exact h.bytes.answered other hother n hsent

/-- Nothing writes to the buffers of a request any more. -/
lemma retire {targets : Multiset (Buffer × Option ℕ)}
    (h : Fits iovecs s ({.keepAlive req}+targetTokens targets+held))
    (htargets : targets.map Prod.fst = req.ptrs) : Fits iovecs s ({.spent req}+held) := by
  have hkept := h.entries.kept
  simp only [Multiset.add_bind, targets_targetTokens, Multiset.map_add, htargets] at hkept
  simp only [Multiset.singleton_bind, Token.keeps, Token.views, Token.targets, bind_targetTokens,
    Multiset.bind_zero, Multiset.zero_bind, Multiset.map_zero, zero_add, add_zero] at hkept
  refine ⟨h.distinct,h.replies,h.owners,h.honest,⟨?_,?_,?_,h.entries.results,?_⟩,
    ⟨?_,?_,?_,?_,h.cells.buffers,?_,?_,?_,fun other hother => ?_⟩,
    ⟨?_,fun expert hexpert => ?_,h.bytes.answered⟩⟩
  · simpa using h.entries.single
  · simpa using h.entries.right
  · simpa using h.entries.taken
  · simp only [Multiset.add_bind, Multiset.singleton_bind, Token.keeps, Token.views, Token.targets,
      zero_add]
    rw [add_left_comm] at hkept
    exact (add_right_inj _).mp hkept
  · simpa using h.cells.senders
  · simpa using h.cells.arcs
  · simpa using h.cells.callers
  · simpa using h.cells.claims
  · simpa using h.cells.untaken
  · simpa using h.cells.granted
  · simpa using h.cells.received
  · refine h.cells.unanswered other ?_
    rw [Multiset.add_bind] at hother ⊢
    refine Multiset.mem_add.mpr (.inr ?_)
    simpa using hother
  · simpa using h.bytes.whole
  · refine h.bytes.contents expert ?_
    rw [Multiset.add_bind] at hexpert ⊢
    obtain hexpert | hexpert := Multiset.mem_add.mp hexpert
    · refine Multiset.mem_add.mpr (.inl (Multiset.mem_add.mpr (.inr ?_)))
      simpa using hexpert
    · exact Multiset.mem_add.mpr (.inr hexpert)

/-- A request that its caller does not send. -/
lemma withdraw (h : Fits iovecs s ({.unsent req}+held)) :
    Fits iovecs s ({.request req}+({.spent req}+held)) := by
  have hclaims : held.bind Token.claims ≤ ({.unsent req}+held).bind Token.claims := by
    rw [Multiset.add_bind]
    exact Multiset.le_add_left _ _
  refine ⟨h.distinct,h.replies,h.owners,h.honest,entries_same h.entries (fun _ hview => hview) rfl ?_ ?_ ?_ ?_,
    ⟨?_,?_,?_,?_,h.cells.buffers,fun other hother => ?_,?_,?_,?_⟩,h.bytes.same ?_⟩
  · simp
  · simp
  · simp
  · simp
  · simpa using h.cells.senders
  · simpa using h.cells.arcs
  · simpa using h.cells.callers
  · refine le_trans ?_ (hclaims.trans h.cells.claims)
    simp
  · refine h.cells.untaken other (Multiset.mem_of_le hclaims ?_)
    simpa using hother
  · simpa using h.cells.granted
  · simpa using h.cells.received
  · simpa using h.cells.unanswered
  · constructor <;> simp

/-- An `Arc` less: what the cell does not keep any more is free. -/
lemma whole_setShared {cell : Shared} (h : Fits iovecs s held) (hreq : req ∈ s.requests)
    (hbuffers : cell.buffers = (s.shared req.keepAlive).buffers)
    (halive : (cell.caller || cell.reactor) = true →
      ((s.shared req.keepAlive).caller || (s.shared req.keepAlive).reactor) = true) :
    ((s.setShared req.keepAlive cell).free : Multiset Buffer)+
      lent s.requests (s.setShared req.keepAlive cell).shared =
        (s.free : Multiset Buffer)+lent s.requests s.shared := by
  obtain ⟨others,hothers⟩ := Multiset.exists_cons_of_mem (Multiset.mem_coe.mpr hreq)
  have hnodup := h.owners_nodup
  rw [hothers, Multiset.map_cons, Multiset.nodup_cons] at hnodup
  have hrest : others.bind (fun other =>
      ((Function.update s.shared req.keepAlive cell other.keepAlive).kept : Multiset Buffer)) =
      others.bind fun other => ((s.shared other.keepAlive).kept : Multiset Buffer) := by
    refine Multiset.bind_congr fun other hother => ?_
    rw [Function.update_of_ne]
    exact fun heq => hnodup.1 (Multiset.mem_map.mpr ⟨other,hother,heq⟩)
  dsimp only [lent, setShared]
  rw [hothers, Multiset.cons_bind, Multiset.cons_bind, hrest, Function.update_self]
  split_ifs with hlive
  · have hkept : cell.kept = (s.shared req.keepAlive).kept := by
      rw [Shared.kept, if_pos hlive, Shared.kept, if_pos (halive hlive), hbuffers]
    rw [hkept]
  · have hkept : cell.kept = [] := if_neg hlive
    rw [hkept, ← Multiset.coe_add, Multiset.coe_nil]
    abel

lemma buffers_setShared {cell : Shared} (hbuffers : cell.buffers = (s.shared req.keepAlive).buffers)
    (owner : ℕ) : ((s.setShared req.keepAlive cell).shared owner).buffers = (s.shared owner).buffers := by
  by_cases howner : owner = req.keepAlive
  · rw [howner, ← hbuffers]
    exact congrArg Shared.buffers (Function.update_self ..)
  · exact congrArg Shared.buffers (Function.update_of_ne howner ..)

lemma kept_setShared {cell : Shared} (hbuffers : cell.buffers = (s.shared req.keepAlive).buffers)
    (halive : (cell.caller || cell.reactor) = true →
      ((s.shared req.keepAlive).caller || (s.shared req.keepAlive).reactor) = true) (owner : ℕ) :
    ((s.setShared req.keepAlive cell).shared owner).kept ⊆ (s.shared owner).kept := by
  by_cases howner : owner = req.keepAlive
  · intro b hb
    rw [howner] at hb ⊢
    change b ∈ (Function.update s.shared req.keepAlive cell req.keepAlive).kept at hb
    rw [Function.update_self, Shared.kept] at hb
    split_ifs at hb with hlive
    · rwa [Shared.kept, if_pos (halive hlive), ← hbuffers]
    · exact absurd hb List.not_mem_nil
  · change (Function.update s.shared req.keepAlive cell owner).kept ⊆ _
    rw [Function.update_of_ne howner]
    exact List.Subset.refl _

/-- One of the two `Arc`s of a cell is dropped. -/
lemma setShared {cell : Shared} {t : Token} (h : Fits iovecs s ({t}+held)) (hreq : req ∈ s.requests)
    (ht : t = .spent req ∨ t = .caller req)
    (hbuffers : cell.buffers = (s.shared req.keepAlive).buffers)
    (halive : (cell.caller || cell.reactor) = true →
      ((s.shared req.keepAlive).caller || (s.shared req.keepAlive).reactor) = true)
    (harcs : held.bind Token.arcs+s.channel = (s.requests : Multiset ReactorRequest).filter fun other =>
      (Function.update s.shared req.keepAlive cell other.keepAlive).reactor = true)
    (hcallers : held.bind Token.callers = (s.requests : Multiset ReactorRequest).filter fun other =>
      (Function.update s.shared req.keepAlive cell other.keepAlive).caller = true) :
    Fits iovecs (s.setShared req.keepAlive cell) held := by
  have hgone : ∀ {β : Type} (f : Token → Multiset β), f (.spent req) = 0 → f (.caller req) = 0 →
      (({t} : Multiset Token)+held).bind f = held.bind f := by
    intro β f hspent hcaller
    rw [Multiset.add_bind, Multiset.singleton_bind]
    obtain rfl | rfl := ht
    · rw [hspent, zero_add]
    · rw [hcaller, zero_add]
  refine ⟨h.distinct,h.replies,h.owners,h.honest,entries_same h.entries
    (fun view hview => ⟨hview.entries,hview.flushed,hview.ended⟩) rfl ?_ ?_ ?_ ?_,
    ⟨?_,harcs,hcallers,?_,fun other hother => ?_,fun other hother => ?_,?_,?_,?_⟩,
    ⟨?_,?_,fun other hother n hsent => ?_⟩⟩
  · rw [hgone Token.unsents rfl rfl]
    exact le_rfl
  · exact (hgone Token.views rfl rfl).symm
  · exact (hgone Token.keeps rfl rfl).symm
  · exact (hgone Token.targets rfl rfl).symm
  · have hsenders := h.cells.senders
    rw [hgone Token.senders rfl rfl] at hsenders
    exact hsenders
  · have hclaims := h.cells.claims
    rwa [hgone Token.claims rfl rfl] at hclaims
  · rw [buffers_setShared hbuffers]
    exact h.cells.buffers other hother
  · rw [buffers_setShared hbuffers]
    rw [← hgone Token.claims rfl rfl] at hother
    exact h.cells.untaken other hother
  · have hgranted := h.cells.granted
    rwa [hgone Token.grants rfl rfl] at hgranted
  · have hreceived := h.cells.received
    rwa [hgone Token.receivers rfl rfl] at hreceived
  · have hunanswered := h.cells.unanswered
    rwa [hgone Token.keeps rfl rfl] at hunanswered
  · have hwhole := h.bytes.whole
    rw [hgone Token.raw rfl rfl, add_right_comm, ← h.whole_setShared hreq hbuffers halive] at hwhole
    rw [add_right_comm]
    exact hwhole
  · have hcontents := h.bytes.contents
    rwa [hgone Token.known rfl rfl] at hcontents
  · obtain ⟨hn,hcontent⟩ := h.bytes.answered other hother n hsent
    exact ⟨hn,fun read hread hmem =>
      hcontent read hread (kept_setShared hbuffers halive other.keepAlive hmem)⟩

/-- The reactor's `Arc` of a request that it is done with. -/
lemma dropSpent (h : Fits iovecs s ({.spent req}+held)) :
    Fits iovecs (s.dropKeepAlive req.keepAlive) held := by
  obtain ⟨hreq,hreactor⟩ := h.arc_mem (show req ∈ _ by simp)
  refine h.setShared hreq (.inl rfl) rfl (fun _ => by rw [hreactor, Bool.or_true]) ?_ ?_
  · have hfilter := filter_update_less (g := s.shared) Shared.reactor h.owners_nodup hreq hreactor
      (v := { s.shared req.keepAlive with reactor := false }) rfl
    have harcs := h.cells.arcs
    rw [hfilter, Multiset.add_bind, Multiset.singleton_bind] at harcs
    simp only [Token.arcs, Multiset.singleton_add, Multiset.cons_add] at harcs
    exact (Multiset.cons_inj_right _).mp harcs
  · have hcallers := h.cells.callers
    simp only [Multiset.add_bind, Multiset.singleton_bind, Token.callers, zero_add] at hcallers
    rw [hcallers]
    exact (filter_update_same (g := s.shared) (v := { s.shared req.keepAlive with reactor := false })
      Shared.caller req.keepAlive rfl).symm

/-- The caller's `Arc`. -/
lemma dropCaller (h : Fits iovecs s ({.caller req}+held)) :
    Fits iovecs (s.dropCaller req.keepAlive) held := by
  obtain ⟨hreq,hcaller⟩ := h.caller_mem (show req ∈ _ by simp)
  refine h.setShared hreq (.inr rfl) rfl (fun _ => by rw [hcaller, Bool.true_or]) ?_ ?_
  · have harcs := h.cells.arcs
    simp only [Multiset.add_bind, Multiset.singleton_bind, Token.arcs, zero_add] at harcs
    rw [harcs]
    exact (filter_update_same (g := s.shared) (v := { s.shared req.keepAlive with caller := false })
      Shared.reactor req.keepAlive rfl).symm
  · have hfilter := filter_update_less (g := s.shared) Shared.caller h.owners_nodup hreq hcaller
      (v := { s.shared req.keepAlive with caller := false }) rfl
    have hcallers := h.cells.callers
    rw [hfilter, Multiset.add_bind, Multiset.singleton_bind] at hcallers
    simp only [Token.callers, Multiset.singleton_add] at hcallers
    exact (Multiset.cons_inj_right _).mp hcallers

/-- A request that is not sent. -/
lemma dropRequest (h : Fits iovecs s ({.unsent req}+held)) :
    Fits iovecs (s.dropRequest req) held := by
  have hnodup : (({.unsent req}+held).bind Token.claims).Nodup :=
    Multiset.nodup_of_le h.cells.claims h.requests_nodup
  rw [Multiset.add_bind, Multiset.singleton_bind] at hnodup
  have hfresh : req ∉ held.bind Token.claims := by
    intro hmem
    exact Multiset.disjoint_left.mp (Multiset.nodup_add.mp hnodup).2.2
      (Multiset.mem_singleton_self req) hmem
  have hanswered : Fits iovecs (s.setReply req.reply .dropped) ({.spent req}+held) := by
    refine h.withdraw.answer rfl (fun _ hmem => ?_) (fun n hn => ?_) fun e he => ?_
    · refine hfresh (Multiset.mem_of_le (receivers_le_claims held) ?_)
      simpa using hmem
    · cases hn
    · cases he
  exact hanswered.dropSpent

lemma sendOk (h : Fits iovecs s ({.unsent req}+held)) (hopen : s.closed = false) :
    Fits iovecs { s with channel := s.channel++[req] } ({.receiver req}+held) := by
  have hwaiting := (h.sender_mem (show req ∈ _ by simp)).2
  refine ⟨h.distinct,h.replies,h.owners,h.honest,entries_same h.entries (fun view hview =>
      ⟨hview.entries,hview.flushed,fun hended => ?_⟩) rfl ?_ ?_ ?_ ?_,
    ⟨?_,?_,?_,?_,h.cells.buffers,?_,?_,fun other hother => ?_,?_⟩,h.bytes.same ?_⟩
  · have hclosed := (hview.ended hended).1
    rw [hopen] at hclosed
    cases hclosed
  · simp
    omega
  · simp
  · simp
  · simp
  · have hsenders := h.cells.senders
    simp only [Multiset.add_bind, Multiset.singleton_bind, Token.senders, zero_add] at hsenders ⊢
    rw [← hsenders, ← Multiset.coe_add, Multiset.coe_singleton]
    abel
  · have harcs := h.cells.arcs
    simp only [Multiset.add_bind, Multiset.singleton_bind, Token.arcs, zero_add] at harcs ⊢
    rw [← harcs, ← Multiset.coe_add, Multiset.coe_singleton]
    abel
  · simpa using h.cells.callers
  · simpa using h.cells.claims
  · simpa using h.cells.untaken
  · simpa using h.cells.granted
  · have hother' : other = req ∨ other ∈ held.bind Token.receivers := by simpa using hother
    obtain rfl | hother' := hother'
    · rw [hwaiting]
      exact fun hdropped => by cases hdropped
    · exact h.cells.received other (by simpa using hother')
  · simpa using h.cells.unanswered
  · constructor <;> simp

/-- A caller learns how its request ended. -/
lemma receive (h : Fits iovecs s ({.receiver req}+held)) (left : Multiset Token)
    (hleft : left = 0 ∨ left = {.granted req} ∧ ∃ n, s.replies req.reply = .sent (.ok n)) :
    Fits iovecs s (left+held) := by
  have hclaims : (left+held).bind Token.claims ≤ ({.receiver req}+held).bind Token.claims := by
    obtain rfl | ⟨rfl,-⟩ := hleft
    · rw [zero_add, Multiset.add_bind]
      exact Multiset.le_add_left _ _
    · simp
  have hgone : ∀ {β : Type} (f : Token → Multiset β), f (.receiver req) = 0 → f (.granted req) = 0 →
      (left+held).bind f = ({.receiver req}+held).bind f := by
    intro β f hreceiver hgranted
    obtain rfl | ⟨rfl,-⟩ := hleft
    · rw [zero_add, Multiset.add_bind, Multiset.singleton_bind, hreceiver, zero_add]
    · rw [Multiset.add_bind, Multiset.singleton_bind, Multiset.add_bind, Multiset.singleton_bind,
        hreceiver, hgranted]
  refine ⟨h.distinct,h.replies,h.owners,h.honest,entries_same h.entries (fun _ hview => hview) rfl ?_ ?_ ?_ ?_,
    ⟨?_,?_,?_,hclaims.trans h.cells.claims,h.cells.buffers,fun other hother => ?_,fun other hother => ?_,
      fun other hother => ?_,?_⟩,h.bytes.same ⟨hgone _ rfl rfl,hgone _ rfl rfl⟩⟩
  · rw [hgone Token.unsents rfl rfl]
  · exact hgone _ rfl rfl
  · exact hgone _ rfl rfl
  · exact hgone _ rfl rfl
  · rw [hgone Token.senders rfl rfl]
    exact h.cells.senders
  · rw [hgone Token.arcs rfl rfl]
    exact h.cells.arcs
  · rw [hgone Token.callers rfl rfl]
    exact h.cells.callers
  · exact h.cells.untaken other (Multiset.mem_of_le hclaims hother)
  · rw [Multiset.add_bind] at hother
    obtain hother | hother := Multiset.mem_add.mp hother
    · obtain rfl | ⟨rfl,hsent⟩ := hleft
      · exact absurd hother (Multiset.notMem_zero _)
      · obtain rfl : other = req := by simpa using hother
        exact hsent
    · exact h.cells.granted other (by simpa using hother)
  · refine h.cells.received other ?_
    rw [Multiset.add_bind] at hother ⊢
    obtain hother | hother := Multiset.mem_add.mp hother
    · obtain rfl | ⟨rfl,-⟩ := hleft <;> exact absurd hother (Multiset.notMem_zero _)
    · exact Multiset.mem_add.mpr (.inr hother)
  · rw [hgone Token.keeps rfl rfl]
    exact h.cells.unanswered

/-- A caller takes its filled buffers out of the cell. -/
lemma recover (h : Fits iovecs s ({.caller req}+({.granted req}+held))) :
    (s.shared req.keepAlive).buffers = some (req.prepared.map Prepared.ptr) ∧
      Fits iovecs (s.recover req.keepAlive).2 ({.caller req}+(filledTokens req.experts+held)) := by
  obtain ⟨hreq,hcaller⟩ := h.caller_mem (show req ∈ _ by simp)
  have hbuffers := h.cells.untaken req (by simp)
  obtain ⟨n,hsent⟩ := h.cells.granted req (by simp)
  have hkept : (s.shared req.keepAlive).kept = req.prepared.map Prepared.ptr := by
    rw [Shared.kept, hcaller, Bool.true_or, if_pos rfl, hbuffers, Option.getD_some]
  have hnodup : (({.caller req}+({.granted req}+held)).bind Token.claims).Nodup :=
    Multiset.nodup_of_le h.cells.claims h.requests_nodup
  simp only [Multiset.add_bind, Multiset.singleton_bind, Token.claims, zero_add] at hnodup
  have hfresh : req ∉ held.bind Token.claims := by
    intro hmem
    exact Multiset.disjoint_left.mp (Multiset.nodup_add.mp hnodup).2.2
      (Multiset.mem_singleton_self req) hmem
  refine ⟨hbuffers,?_⟩
  have hsame : ∀ other ∈ s.requests, other ≠ req → Function.update s.shared req.keepAlive
      { s.shared req.keepAlive with buffers := none } other.keepAlive = s.shared other.keepAlive :=
    fun other hother hne => update_of_other h.owners_nodup hreq hother hne
  have hself : Function.update s.shared req.keepAlive { s.shared req.keepAlive with buffers := none }
      req.keepAlive = { s.shared req.keepAlive with buffers := none } := Function.update_self ..
  have hempty : ({ s.shared req.keepAlive with buffers := none } : Shared).kept = [] := by
    rw [Shared.kept]
    split_ifs <;> rfl
  refine ⟨h.distinct,h.replies,h.owners,h.honest,entries_same h.entries (fun view hview =>
      ⟨hview.entries,hview.flushed,hview.ended⟩) rfl ?_ ?_ ?_ ?_,
    ⟨?_,?_,?_,?_,fun other hother => ?_,fun other hother => ?_,?_,?_,?_⟩,
    ⟨?_,fun expert hexpert => ?_,fun other hother m hok => ?_⟩⟩
  · simp [Backend.recover]
  · simp
  · simp
  · simp
  · have hsenders := h.cells.senders
    simp only [Multiset.add_bind, Multiset.singleton_bind, Token.senders, bind_filledTokens,
      Multiset.bind_zero, zero_add] at hsenders ⊢
    exact hsenders
  · have harcs := h.cells.arcs
    simp only [Multiset.add_bind, Multiset.singleton_bind, Token.arcs, bind_filledTokens,
      Multiset.bind_zero, zero_add] at harcs ⊢
    refine harcs.trans ?_
    exact (filter_update_same (g := s.shared) (v := { s.shared req.keepAlive with buffers := none })
      Shared.reactor req.keepAlive rfl).symm
  · have hcallers := h.cells.callers
    simp only [Multiset.add_bind, Multiset.singleton_bind, Token.callers, bind_filledTokens,
      Multiset.bind_zero, zero_add] at hcallers ⊢
    refine hcallers.trans ?_
    exact (filter_update_same (g := s.shared) (v := { s.shared req.keepAlive with buffers := none })
      Shared.caller req.keepAlive rfl).symm
  · refine le_trans ?_ h.cells.claims
    simp only [Multiset.add_bind, Multiset.singleton_bind, Token.claims, bind_filledTokens,
      Multiset.bind_zero, zero_add]
    exact Multiset.le_add_left _ _
  · change (Function.update s.shared req.keepAlive _ other.keepAlive).buffers = _ ∨
      (Function.update s.shared req.keepAlive _ other.keepAlive).buffers = _ ∧ _
    by_cases hne : other = req
    · rw [hne, hself]
      exact .inr ⟨rfl,n,hsent⟩
    · rw [hsame other hother hne]
      exact h.cells.buffers other hother
  · have hother' : other ∈ held.bind Token.claims := by simpa using hother
    have hin : other ∈ s.requests := h.claim_mem (by
      simp only [Multiset.add_bind]
      exact Multiset.mem_add.mpr (.inr (Multiset.mem_add.mpr (.inr hother'))))
    change (Function.update s.shared req.keepAlive _ other.keepAlive).buffers = _
    rw [hsame other hin (fun heq => hfresh (heq ▸ hother'))]
    refine h.cells.untaken other ?_
    simp only [Multiset.add_bind]
    exact Multiset.mem_add.mpr (.inr (Multiset.mem_add.mpr (.inr hother')))
  · intro other hother
    refine h.cells.granted other ?_
    simp only [Multiset.add_bind, Multiset.singleton_bind, Token.grants, bind_filledTokens,
      Multiset.bind_zero, zero_add] at hother ⊢
    exact Multiset.mem_add.mpr (.inr hother)
  · simpa [Backend.recover] using h.cells.received
  · simpa [Backend.recover] using h.cells.unanswered
  · have hwhole := h.bytes.whole
    obtain ⟨others,hothers⟩ := Multiset.exists_cons_of_mem (Multiset.mem_coe.mpr hreq)
    have hnumbers := h.owners_nodup
    rw [hothers, Multiset.map_cons, Multiset.nodup_cons] at hnumbers
    have hrest : others.bind (fun other => ((Function.update s.shared req.keepAlive
        { s.shared req.keepAlive with buffers := none } other.keepAlive).kept : Multiset Buffer)) =
        others.bind fun other => ((s.shared other.keepAlive).kept : Multiset Buffer) := by
      refine Multiset.bind_congr fun other hother => ?_
      rw [Function.update_of_ne]
      exact fun heq => hnumbers.1 (Multiset.mem_map.mpr ⟨other,hother,heq⟩)
    have hfilled : (filledTokens req.experts).bind Token.raw =
        (req.prepared.map Prepared.ptr : List Buffer) := by
      rw [bind_filledTokens]
      refine (Multiset.bind_singleton _ _).trans ?_
      rw [ReactorRequest.experts, Multiset.map_coe, List.map_map]
      rfl
    dsimp only [Backend.recover, lent] at hwhole ⊢
    rw [hothers, Multiset.cons_bind, hkept] at hwhole
    rw [hothers, Multiset.cons_bind, hself, hempty, hrest, ← hwhole]
    simp only [Multiset.add_bind, hfilled, Multiset.singleton_bind, Token.raw, zero_add,
      Multiset.coe_nil]
    abel
  · have hcontents := h.bytes.contents expert
    simp only [Multiset.add_bind, Multiset.singleton_bind, Token.known, zero_add] at hexpert hcontents
    obtain hexpert | hexpert := Multiset.mem_add.mp hexpert
    · obtain hexpert | hexpert := Multiset.mem_add.mp hexpert
      · rw [bind_filledTokens] at hexpert
        obtain ⟨pair,hpair,hmem⟩ := Multiset.mem_bind.mp hexpert
        obtain rfl : expert = pair := by simpa using hmem
        obtain ⟨read,hread,rfl⟩ := List.mem_map.mp (Multiset.mem_coe.mp hpair)
        refine (h.bytes.answered req hreq n hsent).2 read hread ?_
        rw [hkept]
        exact List.mem_map_of_mem hread
      · exact hcontents (Multiset.mem_add.mpr (.inl hexpert))
    · exact hcontents (Multiset.mem_add.mpr (.inr hexpert))
  · obtain ⟨hn,hcontent⟩ := h.bytes.answered other hother m hok
    refine ⟨hn,fun read hread hmem => hcontent read hread ?_⟩
    change read.ptr ∈ (Function.update s.shared req.keepAlive _ other.keepAlive).kept at hmem
    by_cases hne : other = req
    · rw [hne, hself, hempty] at hmem
      exact absurd hmem List.not_mem_nil
    · rwa [hsame other hother hne] at hmem

/-- The buffers of a caller move into the cell of a new request. -/
lemma newRequest (prepared : List Prepared) (len : ℕ)
    (h : Fits iovecs s (bufferTokens (prepared.map Prepared.ptr)+held)) :
    Fits iovecs (s.newRequest prepared len).2
      ({.unsent (s.newRequest prepared len).1}+({.caller (s.newRequest prepared len).1}+held)) := by
  have hbelow : ∀ {f : ReactorRequest → ℕ}, s.requests.map f = List.range s.requests.length →
      ∀ other ∈ s.requests, f other ≠ s.requests.length := by
    intro f hf other hother
    have hmem : f other ∈ List.range s.requests.length := hf ▸ List.mem_map_of_mem hother
    exact (List.mem_range.mp hmem).ne
  have hreply : ∀ other ∈ s.requests, Function.update s.replies s.requests.length .waiting other.reply =
      s.replies other.reply := fun other hother => Function.update_of_ne (hbelow h.replies other hother) ..
  have hshared : ∀ other ∈ s.requests, Function.update s.shared s.requests.length
      ⟨true,true,some (prepared.map Prepared.ptr)⟩ other.keepAlive = s.shared other.keepAlive :=
    fun other hother => Function.update_of_ne (hbelow h.owners other hother) ..
  have hfilter : ∀ {p q : ReactorRequest → Prop} [DecidablePred p] [DecidablePred q]
      (req : ReactorRequest), p req → (∀ other ∈ s.requests, p other ↔ q other) →
      ((s.requests++[req] : List ReactorRequest) : Multiset ReactorRequest).filter p =
        {req}+(s.requests : Multiset ReactorRequest).filter q := by
    intro p q _ _ req hp hpq
    rw [← Multiset.coe_add, Multiset.filter_add, Multiset.coe_singleton, Multiset.filter_singleton,
      if_pos hp, add_comm]
    congr 1
    exact Multiset.filter_congr fun other hother => hpq other (Multiset.mem_coe.mp hother)
  refine ⟨h.distinct,?_,?_,fun other hother e hsent => ?_,entries_same h.entries (fun view hview =>
      ⟨hview.entries,hview.flushed,hview.ended⟩) rfl ?_ ?_ ?_ ?_,
    ⟨?_,?_,?_,?_,fun other hother => ?_,fun other hother => ?_,fun other hother => ?_,
      fun other hother => ?_,fun other hother => ?_⟩,
    ⟨?_,?_,fun other hother n hsent => ?_⟩⟩
  · simp [Backend.newRequest, h.replies, List.range_succ]
  · simp [Backend.newRequest, h.owners, List.range_succ]
  · change Function.update s.replies s.requests.length .waiting other.reply = _ at hsent
    obtain hother | hother := List.mem_append.mp hother
    · rw [hreply other hother] at hsent
      exact h.honest other hother e hsent
    · rw [List.mem_singleton.mp hother, Function.update_self] at hsent
      cases hsent
  · simp [Backend.newRequest]
    omega
  · simp
  · simp
  · simp
  · have hsenders := h.cells.senders
    simp only [Multiset.add_bind, Multiset.singleton_bind, Token.senders, bind_bufferTokens,
      Multiset.bind_zero, zero_add] at hsenders ⊢
    rw [add_assoc, show (s.newRequest prepared len).2.channel = s.channel from rfl, hsenders]
    refine (hfilter _ ?_ fun other hother => ?_).symm
    · change (Function.update s.replies s.requests.length .waiting s.requests.length).isWaiting = true
      rw [Function.update_self]
      rfl
    · change (Function.update s.replies s.requests.length .waiting other.reply).isWaiting = true ↔ _
      rw [hreply other hother]
  · have harcs := h.cells.arcs
    simp only [Multiset.add_bind, Multiset.singleton_bind, Token.arcs, bind_bufferTokens,
      Multiset.bind_zero, zero_add] at harcs ⊢
    rw [add_assoc, show (s.newRequest prepared len).2.channel = s.channel from rfl, harcs]
    refine (hfilter _ ?_ fun other hother => ?_).symm
    · change (Function.update s.shared s.requests.length _ s.requests.length).reactor = true
      rw [Function.update_self]
    · change (Function.update s.shared s.requests.length _ other.keepAlive).reactor = true ↔ _
      rw [hshared other hother]
  · have hcallers := h.cells.callers
    simp only [Multiset.add_bind, Multiset.singleton_bind, Token.callers, bind_bufferTokens,
      Multiset.bind_zero, zero_add] at hcallers ⊢
    rw [hcallers]
    refine (hfilter _ ?_ fun other hother => ?_).symm
    · change (Function.update s.shared s.requests.length _ s.requests.length).caller = true
      rw [Function.update_self]
    · change (Function.update s.shared s.requests.length _ other.keepAlive).caller = true ↔ _
      rw [hshared other hother]
  · have hclaims := h.cells.claims
    simp only [Multiset.add_bind, Multiset.singleton_bind, Token.claims, bind_bufferTokens,
      Multiset.bind_zero, zero_add] at hclaims ⊢
    rw [show (s.newRequest prepared len).2.requests = s.requests++[(s.newRequest prepared len).1]
      from rfl, ← Multiset.coe_add, Multiset.coe_singleton, add_comm]
    exact add_le_add_left hclaims _
  · obtain hother | hother := List.mem_append.mp hother
    · change (Function.update s.shared s.requests.length _ other.keepAlive).buffers = _ ∨
        (Function.update s.shared s.requests.length _ other.keepAlive).buffers = _ ∧
          ∃ n, Function.update s.replies s.requests.length _ other.reply = _
      rw [hshared other hother, hreply other hother]
      exact h.cells.buffers other hother
    · left
      rw [List.mem_singleton.mp hother]
      change (Function.update s.shared s.requests.length _ s.requests.length).buffers = _
      rw [Function.update_self]
  · have hother' : other = (s.newRequest prepared len).1 ∨ other ∈ held.bind Token.claims := by
      simpa using hother
    obtain rfl | hother' := hother'
    · change (Function.update s.shared s.requests.length _ s.requests.length).buffers = _
      rw [Function.update_self]
      rfl
    · have hold : other ∈ (bufferTokens (prepared.map Prepared.ptr)+held).bind Token.claims := by
        rw [Multiset.add_bind]
        exact Multiset.mem_add.mpr (.inr hother')
      change (Function.update s.shared s.requests.length _ other.keepAlive).buffers = _
      rw [hshared other (h.claim_mem hold)]
      exact h.cells.untaken other hold
  · have hother' : other ∈ held.bind Token.grants := by simpa using hother
    have hold : other ∈ (bufferTokens (prepared.map Prepared.ptr)+held).bind Token.grants := by
      rw [Multiset.add_bind]
      exact Multiset.mem_add.mpr (.inr hother')
    have hin := h.claim_mem (Multiset.mem_of_le (grants_le_claims _) hold)
    change ∃ n, Function.update s.replies s.requests.length _ other.reply = _
    rw [hreply other hin]
    exact h.cells.granted other hold
  · have hother' : other ∈ held.bind Token.receivers := by simpa using hother
    have hold : other ∈ (bufferTokens (prepared.map Prepared.ptr)+held).bind Token.receivers := by
      rw [Multiset.add_bind]
      exact Multiset.mem_add.mpr (.inr hother')
    have hin := h.claim_mem (Multiset.mem_of_le (receivers_le_claims _) hold)
    change Function.update s.replies s.requests.length _ other.reply ≠ _
    rw [hreply other hin]
    exact h.cells.received other hold
  · have hother' : other ∈ held.bind Token.keeps := by simpa using hother
    have hold : other ∈ (bufferTokens (prepared.map Prepared.ptr)+held).bind Token.keeps := by
      rw [Multiset.add_bind]
      exact Multiset.mem_add.mpr (.inr hother')
    have hin := (h.arc_mem (Multiset.mem_of_le (keeps_le_arcs _) hold)).1
    change ∀ n, Function.update s.replies s.requests.length _ other.reply ≠ _
    rw [hreply other hin]
    exact h.cells.unanswered other hold
  · have hwhole := h.bytes.whole
    have hraw : (bufferTokens (prepared.map Prepared.ptr)).bind Token.raw =
        (prepared.map Prepared.ptr : List Buffer) := by
      rw [bind_bufferTokens]
      exact (Multiset.bind_singleton _ id).trans (Multiset.map_id _)
    have hlent : lent (s.newRequest prepared len).2.requests (s.newRequest prepared len).2.shared =
        lent s.requests s.shared+(prepared.map Prepared.ptr : List Buffer) := by
      dsimp only [lent, Backend.newRequest]
      rw [← Multiset.coe_add, Multiset.add_bind, Multiset.coe_singleton, Multiset.singleton_bind,
        Function.update_self]
      congr 1
      refine Multiset.bind_congr fun other hother => ?_
      rw [hshared other (Multiset.mem_coe.mp hother)]
    rw [hlent, ← hwhole]
    simp only [Multiset.add_bind, hraw, Multiset.singleton_bind, Token.raw, zero_add]
    rw [show (s.newRequest prepared len).2.free = s.free from rfl]
    abel
  · simpa [Backend.newRequest] using h.bytes.contents
  · obtain hother | hother := List.mem_append.mp hother
    · change Function.update s.replies s.requests.length _ other.reply = _ at hsent
      rw [hreply other hother] at hsent
      obtain ⟨hn,hcontent⟩ := h.bytes.answered other hother n hsent
      refine ⟨hn,fun read hread hmem => hcontent read hread ?_⟩
      change read.ptr ∈ (Function.update s.shared s.requests.length _ other.keepAlive).kept at hmem
      rwa [hshared other hother] at hmem
    · rw [List.mem_singleton.mp hother] at hsent
      change Function.update s.replies s.requests.length .waiting s.requests.length = _ at hsent
      rw [Function.update_self] at hsent
      cases hsent

lemma tryAcquire {b : Buffer} {free : List Buffer} (h : Fits iovecs s held) (hfree : s.free = b::free) :
    Fits iovecs { s with free := free } ({.buffer b}+held) := by
  refine ⟨h.distinct,h.replies,h.owners,h.honest,entries_same h.entries (fun view hview =>
      ⟨hview.entries,hview.flushed,hview.ended⟩) rfl ?_ ?_ ?_ ?_,h.cells.same ?_,⟨?_,?_,h.bytes.answered⟩⟩
  · simp
  · simp
  · simp
  · simp
  · constructor <;> simp
  · have hwhole := h.bytes.whole
    rw [hfree, ← Multiset.cons_coe, ← Multiset.singleton_add] at hwhole
    simp only [Multiset.add_bind, Multiset.singleton_bind, Token.raw]
    rw [← hwhole]
    abel
  · simpa using h.bytes.contents

lemma dropBuffer {b : Buffer} {t : Token} (ht : t = .buffer b ∨ ∃ id, t = .filled id b)
    (h : Fits iovecs s ({t}+held)) : Fits iovecs { s with free := b::s.free } held := by
  have hraw : t.raw = {b} := by
    obtain rfl | ⟨id,rfl⟩ := ht <;> rfl
  refine ⟨h.distinct,h.replies,h.owners,h.honest,entries_same h.entries (fun view hview =>
      ⟨hview.entries,hview.flushed,hview.ended⟩) rfl ?_ ?_ ?_ ?_,h.cells.same ?_,
    ⟨?_,fun expert hexpert => h.bytes.contents expert ?_,h.bytes.answered⟩⟩
  · obtain rfl | ⟨id,rfl⟩ := ht <;> simp
  · obtain rfl | ⟨id,rfl⟩ := ht <;> simp
  · obtain rfl | ⟨id,rfl⟩ := ht <;> simp
  · obtain rfl | ⟨id,rfl⟩ := ht <;> simp
  · obtain rfl | ⟨id,rfl⟩ := ht <;> constructor <;> simp
  · have hwhole := h.bytes.whole
    rw [Multiset.add_bind, Multiset.singleton_bind, hraw] at hwhole
    rw [← hwhole, ← Multiset.cons_coe, ← Multiset.singleton_add]
    abel
  · rw [Multiset.add_bind, add_assoc]
    exact Multiset.mem_add.mpr (.inr hexpert)

lemma close (h : Fits iovecs s held) : Fits iovecs { s with closed := true } held :=
  ⟨h.distinct,h.replies,h.owners,h.honest,entries_same h.entries (fun _ hview =>
    ⟨hview.entries,hview.flushed,fun hended => ⟨rfl,(hview.ended hended).2⟩⟩) rfl le_rfl rfl rfl rfl,
    h.cells,h.bytes⟩

end Fits
end Requests

section Rules
variable {iovecs : List Buffer} {s next : Backend} {held rest : Multiset Token} {view : View}
  {req : ReactorRequest} {healthy : Bool} {cap : ℕ}

instance : DecidablePred (Allowed healthy cap) := by
  intro s
  unfold Allowed
  cases healthy
  · exact inferInstanceAs (Decidable (_ ∧ _ ∧ _))
  · exact inferInstanceAs (Decidable (_ = _))

/-- What only grows, and what stays. -/
structure Later (s next : Backend) : Prop where
  faults : s.faults ≤ next.faults
  requests : s.requests <+: next.requests
  closed : s.closed = true → next.closed = true
  depth : next.depth = s.depth

lemma Later.refl (s : Backend) : Later s s := ⟨le_rfl,List.prefix_rfl,id,rfl⟩

lemma Later.trans {middle : Backend} (h : Later s middle) (hnext : Later middle next) : Later s next :=
  ⟨h.faults.trans hnext.faults,h.requests.trans hnext.requests,fun hclosed =>
    hnext.closed (h.closed hclosed),hnext.depth.trans h.depth⟩

lemma later_complete (s : Backend) (completion : ℕ × ℤ) : Later s (s.complete completion) := by
  unfold Backend.complete
  split
  · exact .refl s
  · exact ⟨le_rfl,List.prefix_rfl,id,rfl⟩

lemma later_completeAll (s : Backend) (completions : List (ℕ × ℤ)) :
    Later s (completions.foldl complete s) := by
  induction completions generalizing s with
  | nil => exact .refl s
  | cons completion completions ih => exact (later_complete s completion).trans (ih _)

/-- Faults are counted, requests recorded, and nothing is opened again. -/
lemma later_perform {op : Op} {choice : Choice} {answer : Answer op}
    (h : s.perform op choice = some (answer,next)) : Later s next := by
  have hsnd : ∀ {a : Answer op} {b : Backend}, some (a,b) = some (answer,next) → b = next :=
    fun heq => congrArg Prod.snd (Option.some.inj heq)
  cases op with
  | push sqe =>
    obtain rfl := congrArg Prod.snd (Option.some.inj h)
    unfold Backend.push
    split
    · exact ⟨Nat.le_succ _,List.prefix_rfl,id,rfl⟩
    · exact ⟨le_rfl,List.prefix_rfl,id,rfl⟩
  | submit =>
    obtain rfl := congrArg Prod.snd (Option.some.inj h)
    unfold Backend.submit
    split
    · exact ⟨Nat.le_succ _,List.prefix_rfl,id,rfl⟩
    · exact ⟨le_rfl,List.prefix_rfl,id,rfl⟩
  | waitFor want =>
    change s.waitFor want choice.fails = _ at h
    unfold Backend.waitFor at h
    split at h
    · cases h
      exact ⟨Nat.le_succ _,List.prefix_rfl,id,rfl⟩
    · split_ifs at h
      exact hsnd h ▸ .refl s
  | nextCompletion =>
    obtain rfl := congrArg Prod.snd (Option.some.inj h)
    unfold Backend.nextCompletion
    split <;> exact ⟨le_rfl,List.prefix_rfl,id,rfl⟩
  | blockingRecv =>
    change s.blockingRecv = _ at h
    unfold Backend.blockingRecv at h
    split at h
    · cases h
      exact ⟨le_rfl,List.prefix_rfl,id,rfl⟩
    · split_ifs at h
      exact hsnd h ▸ .refl s
  | tryRecv =>
    obtain rfl := congrArg Prod.snd (Option.some.inj h)
    unfold Backend.tryRecv
    split <;> exact ⟨le_rfl,List.prefix_rfl,id,rfl⟩
  | tryAcquire =>
    obtain rfl := congrArg Prod.snd (Option.some.inj h)
    unfold Backend.tryAcquire
    split <;> exact ⟨le_rfl,List.prefix_rfl,id,rfl⟩
  | fdFor expert =>
    obtain rfl := congrArg Prod.snd (Option.some.inj h)
    unfold Backend.fdFor
    split <;> exact ⟨le_rfl,List.prefix_rfl,id,rfl⟩
  | newRequest prepared len =>
    obtain rfl := congrArg Prod.snd (Option.some.inj h)
    exact ⟨le_rfl,List.prefix_append _ _,id,rfl⟩
  | send request =>
    change s.send request choice.goesOn = _ at h
    unfold Backend.send at h
    split_ifs at h <;> cases h <;> exact ⟨le_rfl,List.prefix_rfl,id,rfl⟩
  | receive oneshot =>
    change s.receive oneshot choice.goesOn = _ at h
    unfold Backend.receive at h
    split_ifs at h
    · exact hsnd h ▸ .refl s
    · split at h
      · cases h
      · exact hsnd h ▸ .refl s
      · exact hsnd h ▸ .refl s
  | close =>
    cases h
    exact ⟨le_rfl,List.prefix_rfl,fun _ => rfl,rfl⟩
  | _ =>
    obtain rfl := congrArg Prod.snd (Option.some.inj h)
    exact ⟨le_rfl,List.prefix_rfl,id,rfl⟩

lemma later_exec {op : Op} {choice : Choice} {answer : Answer op}
    (h : s.exec op choice = some (answer,next)) : Later s next :=
  (later_completeAll s choice.completions).trans (later_perform h)

/-- Bounds that hold have always held. -/
lemma allowed_back (s : Backend) (op : Op) (choice : Choice) (answer : Answer op) (next : Backend)
    (h : s.exec op choice = some (answer,next)) (hallowed : Allowed healthy cap next) :
    Allowed healthy cap s := by
  have hlater := later_exec h
  unfold Allowed at hallowed ⊢
  cases healthy with
  | true => exact Nat.le_zero.mp (hallowed ▸ hlater.faults)
  | false =>
    obtain ⟨hfit,hcount,hopen⟩ := hallowed
    refine ⟨fun req hreq => hfit req (hlater.requests.subset hreq),
      hlater.requests.length_le.trans_lt hcount,?_⟩
    by_contra hnot
    rw [hlater.closed (Bool.not_eq_false _ ▸ hnot)] at hopen
    cases hopen

lemma faultLeaves_of (hallowed : Allowed healthy cap next) (hfaults : 0<next.faults)
    (left : Multiset Token) : faultLeaves healthy left = some left := by
  cases healthy with
  | true =>
    unfold Allowed at hallowed
    exact absurd hallowed hfaults.ne'
  | false => rfl

lemma Fits.recvLeaves {channel : List ReactorRequest} (h : Fits iovecs s ({.ring view}+held))
    (hallowed : Allowed healthy cap s) (hchannel : s.channel = req::channel) :
    ∃ left, recvLeaves healthy cap view req = some left ∧
      Fits iovecs { s with channel := channel } (left+held) := by
  refine ⟨_,if_pos ?_,h.recv hchannel⟩
  cases healthy with
  | true => exact .inl rfl
  | false =>
    obtain ⟨hfit,hcount,-⟩ := hallowed
    have hreq := (h.channel_waiting (show req ∈ _ by simp [hchannel])).1
    have htaken := h.taken
    rw [hchannel, List.length_cons] at htaken
    exact .inr ⟨hfit req hreq,by omega⟩

lemma Fits.endLeaves (h : Fits iovecs s ({.ring view}+held)) (hallowed : Allowed healthy cap s)
    (hclosed : s.closed = true) (hchannel : s.channel = []) :
    ∃ left, endLeaves healthy view = some left ∧ Fits iovecs s (left+held) := by
  cases healthy with
  | true => exact ⟨_,rfl,h.finish hclosed hchannel⟩
  | false =>
    have hopen := hallowed.2.2
    rw [hclosed] at hopen
    cases hopen

/-- A read that was full is in its buffer. -/
lemma Fits.content_allRead (h : Fits iovecs s (targetTokens req.allRead+held)) :
    ∀ read ∈ req.prepared, s.content read.ptr = some read.fd := by
  intro read hread
  refine h.bytes.contents (read.fd,read.ptr) (Multiset.mem_add.mpr (.inl ?_))
  rw [Multiset.add_bind, bind_targetTokens]
  refine Multiset.mem_add.mpr (.inl (Multiset.mem_bind.mpr ⟨(read.ptr,some read.fd),?_,?_⟩))
  · exact Multiset.mem_map.mpr ⟨read,Multiset.mem_coe.mpr hread,rfl⟩
  · exact Multiset.mem_singleton_self _

/-- Every rule of the logic is right. -/
theorem sound (iovecs : List Buffer) (healthy : Bool) (cap : ℕ) :
    Concurrent.Sound (logic healthy cap) (Concurrent.within (Allowed healthy cap) exec) (Fits iovecs) := by
  intro s op choice answer next needs leaves held hrule hbefore hwithin
  obtain ⟨hexec,hallowed⟩ := Concurrent.within_eq_some.mp hwithin
  have h := hbefore.completeAll choice.completions
  unfold exec at hexec
  generalize choice.completions.foldl complete s = s at h hexec
  have hsnd : ∀ {a : Answer op} {b : Backend}, some (a,b) = some (answer,next) → a = answer ∧ b = next :=
    fun heq => ⟨congrArg Prod.fst (Option.some.inj heq),congrArg Prod.snd (Option.some.inj heq)⟩
  cases hrule with
  | push view sqe =>
    rw [add_assoc] at h
    change some (s.push sqe choice.fails) = _ at hexec
    unfold Backend.push at hexec
    split at hexec
    · cases hexec
      refine ⟨_,faultLeaves_of hallowed (Nat.succ_pos _) _,?_⟩
      rw [add_assoc]
      exact h.faulted
    · cases hexec
      exact ⟨_,rfl,h.push⟩
  | submit view =>
    change some (s.submit choice.fails) = _ at hexec
    unfold Backend.submit at hexec
    split at hexec
    · cases hexec
      exact ⟨_,faultLeaves_of hallowed (Nat.succ_pos _) _,h.faulted⟩
    · cases hexec
      exact ⟨_,rfl,h.submit⟩
  | waitFor view want hflushed hwant =>
    change s.waitFor want choice.fails = _ at hexec
    unfold Backend.waitFor at hexec
    split at hexec
    · cases hexec
      exact ⟨_,faultLeaves_of hallowed (Nat.succ_pos _) _,h.faulted⟩
    · split_ifs at hexec
      obtain ⟨rfl,rfl⟩ := hsnd hexec
      exact ⟨_,rfl,h⟩
  | nextCompletion view =>
    change some s.nextCompletion = _ at hexec
    unfold Backend.nextCompletion at hexec
    split at hexec
    · cases hexec
      exact ⟨_,rfl,h⟩
    · rename_i cqe completed hcompleted
      cases hexec
      exact h.reap hcompleted
  | blockingRecv view hidle =>
    change s.blockingRecv = _ at hexec
    unfold Backend.blockingRecv at hexec
    split at hexec
    · rename_i req channel hchannel
      cases hexec
      exact h.recvLeaves (by cases healthy <;> exact hallowed) hchannel
    · rename_i hchannel
      split_ifs at hexec with hclosed
      cases hexec
      exact h.endLeaves hallowed hclosed hchannel
  | tryRecv view =>
    change some s.tryRecv = _ at hexec
    unfold Backend.tryRecv at hexec
    split at hexec
    · rename_i req channel hchannel
      cases hexec
      exact h.recvLeaves (by cases healthy <;> exact hallowed) hchannel
    · rename_i hchannel
      split_ifs at hexec with hclosed
      · cases hexec
        exact h.endLeaves hallowed hclosed hchannel
      · cases hexec
        exact ⟨_,rfl,h⟩
  | replyOk req =>
    cases hexec
    have hcontent := @Fits.content_allRead iovecs s ({.request req}+{.keepAlive req}+held) req (by
      convert h using 1
      abel)
    have hretired := @Fits.retire iovecs s ({.request req}+held) req req.allRead (by
      convert h using 1
      abel) req.allRead_fst
    have hnodup : (({.request req}+{.keepAlive req}+targetTokens req.allRead+held).bind
        Token.arcs).Nodup := by
      refine Multiset.nodup_of_le ((Multiset.le_add_right _ (s.channel : Multiset _)).trans ?_)
        h.requests_nodup
      rw [h.cells.arcs]
      exact Multiset.filter_le _ _
    have hfresh : req ∉ ({.spent req}+held : Multiset Token).bind Token.keeps := by
      intro hmem
      have hin : req ∈ held.bind Token.keeps := by simpa using hmem
      simp only [Multiset.add_bind, Multiset.singleton_bind, Token.arcs, bind_targetTokens,
        Multiset.bind_zero, zero_add, add_zero] at hnodup
      exact Multiset.disjoint_left.mp (Multiset.nodup_add.mp hnodup).2.2
        (Multiset.mem_singleton_self req) (Multiset.mem_of_le (keeps_le_arcs held) hin)
    refine ⟨_,rfl,?_⟩
    rw [add_left_comm] at hretired
    refine hretired.answer rfl (fun hdropped => ?_) (fun n hn => ?_) fun e he => ?_
    · cases hdropped
    · cases hn
      exact ⟨hfresh,rfl,hcontent⟩
    · cases he
  | replyError req error herror =>
    cases hexec
    refine ⟨_,rfl,?_⟩
    rw [zero_add]
    refine h.answer rfl (fun hdropped => ?_) (fun n hn => ?_) fun e he => ?_
    · cases hdropped
    · cases hn
    · cases he
      exact herror
  | dropSpent req =>
    cases hexec
    refine ⟨_,rfl,?_⟩
    rw [zero_add]
    exact h.dropSpent
  | dropKeepAlive req targets htargets =>
    cases hexec
    refine ⟨_,rfl,?_⟩
    rw [zero_add]
    exact (h.retire htargets).dropSpent
  | tryAcquire =>
    rw [zero_add] at h
    change some s.tryAcquire = _ at hexec
    unfold Backend.tryAcquire at hexec
    split at hexec
    · cases hexec
      exact ⟨0,rfl,by rwa [zero_add]⟩
    · rename_i b free hfree
      cases hexec
      exact ⟨{.buffer b},rfl,h.tryAcquire hfree⟩
  | fdFor id =>
    change some (s.fdFor id choice.fails) = _ at hexec
    unfold Backend.fdFor at hexec
    split at hexec
    · obtain ⟨rfl,rfl⟩ := hsnd hexec
      exact ⟨_,rfl,h⟩
    · obtain ⟨rfl,rfl⟩ := hsnd hexec
      exact ⟨_,if_pos rfl,h⟩
  | newRequest prepared len =>
    cases hexec
    refine ⟨_,if_pos ⟨rfl,rfl⟩,?_⟩
    rw [add_assoc]
    exact h.newRequest prepared len
  | send req =>
    change s.send req choice.goesOn = _ at hexec
    unfold Backend.send at hexec
    split_ifs at hexec with hcancelled hclosed hroom
    · cases hexec
      refine ⟨_,rfl,?_⟩
      rw [zero_add]
      exact h.dropRequest
    · cases hexec
      refine ⟨_,rfl,?_⟩
      rw [zero_add]
      exact h.dropRequest
    · cases hexec
      exact ⟨_,rfl,h.sendOk (by simpa using hclosed)⟩
  | receive req =>
    change s.receive req.reply choice.goesOn = _ at hexec
    have hreceived := h.cells.received req (by simp)
    have hreq := h.claim_mem (show req ∈ _ by simp)
    unfold Backend.receive at hexec
    split_ifs at hexec with hcancelled
    · obtain ⟨rfl,rfl⟩ := hsnd hexec
      exact ⟨0,rfl,h.receive 0 (.inl rfl)⟩
    · cases hreply : s.replies req.reply with
      | waiting => simp [hreply] at hexec
      | dropped => exact absurd hreply hreceived
      | sent result =>
        rw [hreply] at hexec
        obtain ⟨rfl,rfl⟩ := hsnd hexec
        cases result with
        | error e => exact ⟨0,if_pos (h.honest req hreq e hreply),h.receive 0 (.inl rfl)⟩
        | ok n =>
          have hn := (h.bytes.answered req hreq n hreply).1
          exact ⟨{.granted req},if_pos hn,h.receive _ (.inr ⟨rfl,n,hreply⟩)⟩
  | recover req =>
    rw [add_assoc] at h
    obtain ⟨hbuffers,hfits⟩ := h.recover
    cases hexec
    refine ⟨_,if_pos hbuffers,?_⟩
    rw [add_assoc]
    exact hfits
  | dropCaller req =>
    cases hexec
    refine ⟨_,rfl,?_⟩
    rw [zero_add]
    exact h.dropCaller
  | dropBuffer b =>
    cases hexec
    refine ⟨_,rfl,?_⟩
    rw [zero_add]
    exact h.dropBuffer (.inl rfl)
  | dropFilled id b =>
    cases hexec
    refine ⟨_,rfl,?_⟩
    rw [zero_add]
    exact h.dropBuffer (.inr ⟨id,rfl⟩)
  | compute experts =>
    obtain ⟨-,rfl⟩ := hsnd hexec
    exact ⟨_,rfl,h⟩
  | close =>
    cases hexec
    refine ⟨_,rfl,?_⟩
    exact h.close

end Rules

end MicroExpertRouter.IoUring
