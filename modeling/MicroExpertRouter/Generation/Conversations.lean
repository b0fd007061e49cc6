import MicroExpertRouter.Generation.Continuation

/-! The requests of one session id, one after the other, while the store serves other ids as well.
Each checks the session out, is generated on some path and stores what it leaves. -/
namespace MicroExpertRouter.Generation
open Session (SessionStore SessionState SessionCheckout)

section Elsewhere
variable {ι σ : Type} [DecidableEq ι]

/-- An operation of the store that is not for this id; an eviction that spares it. -/
inductive Elsewhere (id : ι) (store : SessionStore ι σ) : SessionStore ι σ → Prop
  | take (other : ι) (h : other ≠ id) : Elsewhere id store (store.take other).store
  | put (other : ι) (state : SessionState σ) (checkout : Option (SessionCheckout ι)) (now : ℕ)
    (h : other ≠ id) (hguard : ∀ guard ∈ checkout, guard.id ≠ id) :
    Elsewhere id store (store.put other state checkout now).store
  | drop (guard : SessionCheckout ι) (h : guard.id ≠ id) : Elsewhere id store (guard.drop store)
  | delete (other : ι) (h : other ≠ id) : Elsewhere id store (store.delete other).store
  | evict (now : ℕ)
    (h : Lru.peek (store.evictExpired now).store.inner id = Lru.peek store.inner id) :
    Elsewhere id store (store.evictExpired now).store

/-- Two stores agree on an id. -/
structure SameAt (id : ι) (store store' : SessionStore ι σ) : Prop where
  inner : Lru.peek store'.inner id = Lru.peek store.inner id
  inFlight : Lru.peek store'.inFlight id = Lru.peek store.inFlight id
  tombstones : id ∈ store'.tombstones ↔ id ∈ store.tombstones

variable {id other : ι} {store store' : SessionStore ι σ}

lemma SameAt.refl (id : ι) (store : SessionStore ι σ) : SameAt id store store := ⟨rfl,rfl,Iff.rfl⟩

lemma SameAt.trans {store'' : SessionStore ι σ} (h : SameAt id store store')
    (h' : SameAt id store' store'') : SameAt id store store'' :=
  ⟨h'.inner.trans h.inner,h'.inFlight.trans h.inFlight,h'.tombstones.trans h.tombstones⟩

lemma sameAt_drop {guard : SessionCheckout ι} (h : guard.id ≠ id) :
    SameAt id store (guard.drop store) := by
  unfold SessionCheckout.drop
  split_ifs
  · exact ⟨rfl,Lru.peek_pop_of_ne _ h.symm,Iff.rfl⟩
  · exact .refl id store

lemma sameAt_take (h : other ≠ id) : SameAt id store (store.take other).store := by
  obtain heq | heq | ⟨-,-,state,-,heq⟩ := Session.take_cases store other
  · rw [heq]
    exact .refl id store
  · rw [heq]
    exact ⟨rfl,rfl,Iff.rfl⟩
  · rw [heq]
    exact ⟨Lru.peek_pop_of_ne _ h.symm,Lru.peek_put_of_ne _ h.symm _,Iff.rfl⟩

lemma sameAt_putReleased (state : SessionState σ) (wasCheckedOut : Bool) (now : ℕ)
    (h : other ≠ id) :
    SameAt id store (store.putReleased other state wasCheckedOut now).store := by
  unfold SessionStore.putReleased
  split_ifs
  · exact ⟨rfl,rfl,by simp [h.symm]⟩
  · exact .refl id store
  · exact ⟨Lru.peek_put_of_ne _ h.symm _,rfl,Iff.rfl⟩

lemma sameAt_put (state : SessionState σ) (checkout : Option (SessionCheckout ι)) (now : ℕ)
    (h : other ≠ id) (hguard : ∀ guard ∈ checkout, guard.id ≠ id) :
    SameAt id store (store.put other state checkout now).store := by
  cases checkout with
  | none => exact sameAt_putReleased state false now h
  | some guard =>
    by_cases howned : guard.id = other ∧ Lru.peek store.inFlight other = some guard.token
    · rw [Session.put_owned state now howned]
      have hpopped : SameAt id store { store with inFlight := Lru.pop store.inFlight other } :=
        ⟨rfl,Lru.peek_pop_of_ne _ h.symm,Iff.rfl⟩
      exact hpopped.trans (sameAt_putReleased state true now h)
    · rw [Session.put_unowned state now howned]
      exact sameAt_drop (hguard guard rfl)

lemma sameAt_delete (h : other ≠ id) : SameAt id store (store.delete other).store := by
  unfold SessionStore.delete
  cases Lru.peek store.inner other with
  | some state => exact ⟨Lru.peek_pop_of_ne _ h.symm,rfl,by simp [h.symm]⟩
  | none =>
    dsimp only
    split_ifs
    · exact ⟨rfl,rfl,by simp [h.symm]⟩
    · exact .refl id store

/-- An eviction changes only what is stored. -/
lemma evictKeys_store (now : ℕ) (keys : List ι) : ∀ store : SessionStore ι σ,
    (SessionStore.evictKeys now keys store).store =
      { store with inner := (SessionStore.evictKeys now keys store).store.inner } := by
  induction keys with
  | nil => exact fun _ => rfl
  | cons key keys ih =>
    intro store
    unfold SessionStore.evictKeys
    cases Lru.peek store.inner key with
    | none => exact ih store
    | some state =>
      dsimp only
      split_ifs
      · exact ih { store with inner := Lru.pop store.inner key }
      · exact ih store

lemma evictExpired_store (now : ℕ) (store : SessionStore ι σ) : (store.evictExpired now).store =
    { store with inner := (store.evictExpired now).store.inner } := by
  unfold SessionStore.evictExpired
  split_ifs
  · rfl
  · exact evictKeys_store now _ store

lemma Elsewhere.sameAt (h : Elsewhere id store store') : SameAt id store store' := by
  cases h with
  | take other h => exact sameAt_take h
  | put other state checkout now h hguard => exact sameAt_put state checkout now h hguard
  | drop guard h => exact sameAt_drop h
  | delete other h => exact sameAt_delete h
  | evict now h =>
    rw [evictExpired_store] at h ⊢
    exact ⟨h,rfl,Iff.rfl⟩

/-- However many of them. -/
lemma sameAt_of_elsewhere (h : Relation.ReflTransGen (Elsewhere id) store store') :
    SameAt id store store' := by
  induction h with
  | refl => exact .refl id store
  | tail _ hstep ih => exact ih.trans hstep.sameAt

end Elsewhere

section Conversations
variable {ι η π : Type} [DecidableEq ι] (model : RealModel η π)

/-- `load_session_kv`: the session to continue, the guard and the store. -/
def loadSessionKv (store : SessionStore ι SessionKv) (id : ι) :
    SessionKv × Option (SessionCheckout ι) × SessionStore ι SessionKv :=
  let outcome := store.take id
  match outcome.answer with
  | some (prev,checkout) => (prev.content,some checkout,outcome.store)
  | none => (.fresh,none,outcome.store)

/-- `save_session_kv`. -/
def saveSessionKv (store : SessionStore ι SessionKv) (id : ι) (session : SessionKv)
    (checkout : Option (SessionCheckout ι)) (now : ℕ) : SessionStore ι SessionKv :=
  (store.put id ⟨session,now⟩ checkout now).store

/-- A request of a conversation and what it was answered. -/
structure Turn (π : Type) where
  request : Request π
  completion : List UInt32

/-- What was said so far. -/
def spoken (turns : List (Turn π)) : List UInt32 :=
  turns.flatMap fun turn => turn.request.promptIds++turn.completion

/-- No one has the id checked out, and it is not buried. -/
structure Free (id : ι) (store : SessionStore ι SessionKv) : Prop where
  tombstone : id ∉ store.tombstones
  marker : Lru.peek store.inFlight id = none

/-- The successful requests of an id, none of which overlap, since it was last forgotten. -/
inductive Conversation (id : ι) : SessionStore ι SessionKv → List (Turn π) → Prop
  | opened (store : SessionStore ι SessionKv) (hfree : Free id store)
    (habsent : Lru.peek store.inner id = none) : Conversation id store []
  | served {store : SessionStore ι SessionKv} {turns : List (Turn π)}
    (h : Conversation id store turns) (request : Request π) (path : Path) (now : ℕ)
    (hprompt : request.promptIds ≠ []) (completion : List UInt32) (session : SessionKv)
    (hserve : serve model path request (loadSessionKv store id).1 = some (completion,session))
    (store' : SessionStore ι SessionKv)
    (helsewhere : Relation.ReflTransGen (Elsewhere id) (loadSessionKv store id).2.2 store') :
    Conversation id (saveSessionKv store' id session (loadSessionKv store id).2.1 now)
      (turns++[⟨request,completion⟩])
  | elsewhere {store store' : SessionStore ι SessionKv} {turns : List (Turn π)}
    (h : Conversation id store turns) (hstep : Elsewhere id store store') :
    Conversation id store' turns
  | expired {store : SessionStore ι SessionKv} {turns : List (Turn π)}
    (h : Conversation id store turns) (now : ℕ)
    (hgone : Lru.peek (store.evictExpired now).store.inner id = none) :
    Conversation id (store.evictExpired now).store []
  | deleted {store : SessionStore ι SessionKv} {turns : List (Turn π)}
    (h : Conversation id store turns) : Conversation id (store.delete id).store []

variable {model} {id : ι} {store store' : SessionStore ι SessionKv} {turns : List (Turn π)}

@[simp] lemma spoken_append (a b : List (Turn π)) : spoken (a++b) = spoken a++spoken b := by
  simp [spoken]

lemma Free.sameAt (h : Free id store) (hsame : SameAt id store store') : Free id store' :=
  ⟨fun hmem => h.tombstone (hsame.tombstones.mp hmem),hsame.inFlight.trans h.marker⟩

/-- What is stored for a conversation: nothing before its first request, and then its tokens. -/
structure Remembers (id : ι) (store : SessionStore ι SessionKv) (turns : List (Turn π)) : Prop where
  free : Free id store
  stored : (Lru.peek store.inner id).map SessionState.content =
    if turns = [] then none else some (SessionKv.ofTokens (spoken turns))

/-- A request continues the conversation, under a marker if there is something to continue. -/
lemma Remembers.load (h : Remembers id store turns) :
    (loadSessionKv store id).1 = SessionKv.ofTokens (spoken turns) ∧
      id ∉ (loadSessionKv store id).2.2.tombstones ∧
        Lru.peek (loadSessionKv store id).2.2.inFlight id =
          (loadSessionKv store id).2.1.map SessionCheckout.token ∧
        ∀ guard ∈ (loadSessionKv store id).2.1, guard.id = id := by
  have hstored := h.stored
  cases hpeek : Lru.peek store.inner id with
  | none =>
    have hturns : turns = [] := by
      by_contra hne
      rw [hpeek, if_neg hne] at hstored
      cases hstored
    unfold loadSessionKv
    rw [Session.take_absent h.free.tombstone h.free.marker hpeek, hturns]
    exact ⟨rfl,h.free.tombstone,h.free.marker,by simp⟩
  | some state =>
    have hcontent : state.content = SessionKv.ofTokens (spoken turns) := by
      rw [hpeek] at hstored
      split_ifs at hstored
      · cases hstored
      · exact Option.some.inj hstored
    unfold loadSessionKv
    rw [Session.take_stored h.free.tombstone h.free.marker hpeek]
    exact ⟨hcontent,h.free.tombstone,Lru.peek_put _ _ _,by simp⟩

/-- What a request saves is stored, and the id is free again. -/
lemma save_stored {session : SessionKv} {checkout : Option (SessionCheckout ι)}
    (htombstone : id ∉ store.tombstones)
    (hmarker : Lru.peek store.inFlight id = checkout.map SessionCheckout.token)
    (hguard : ∀ guard ∈ checkout, guard.id = id) (now : ℕ) :
    Free id (saveSessionKv store id session checkout now) ∧
      Lru.peek (saveSessionKv store id session checkout now).inner id = some ⟨session,now⟩ := by
  unfold saveSessionKv
  cases checkout with
  | none =>
    simp only [SessionStore.put, SessionStore.putReleased, if_neg htombstone]
    exact ⟨⟨htombstone,hmarker⟩,Lru.peek_put _ _ _⟩
  | some guard =>
    rw [Session.put_owned _ _ ⟨hguard guard rfl,hmarker⟩]
    simp only [SessionStore.putReleased, if_neg htombstone]
    exact ⟨⟨htombstone,Lru.peek_pop _ _⟩,Lru.peek_put _ _ _⟩

/-- A request says its prompt and its completion. -/
lemma Remembers.serve (h : Remembers id store turns) {request : Request π} {path : Path}
    (hprompt : request.promptIds ≠ []) {completion : List UInt32} {session : SessionKv}
    (hserve : serve model path request (loadSessionKv store id).1 = some (completion,session))
    (helsewhere : Relation.ReflTransGen (Elsewhere id) (loadSessionKv store id).2.2 store')
    (now : ℕ) : Remembers id (saveSessionKv store' id session (loadSessionKv store id).2.1 now)
      (turns++[⟨request,completion⟩]) ∧ completion.length = request.maxTokens := by
  obtain ⟨hcontinued,htombstone,hmarker,hguard⟩ := h.load
  have hsame := sameAt_of_elsewhere helsewhere
  obtain ⟨answer,hanswer,hlength⟩ := @serve_ofTokens _ _ model path request (spoken turns)
    hprompt
  rw [hcontinued, hanswer] at hserve
  obtain ⟨rfl,rfl⟩ := Prod.mk.inj (Option.some.inj hserve)
  obtain ⟨hfree,hstored⟩ := @save_stored _ _ id store' (SessionKv.ofTokens
    (spoken turns++(request.promptIds++answer))) _ (fun hmem => htombstone (hsame.tombstones.mp hmem))
    (hsame.inFlight.trans hmarker) hguard now
  refine ⟨⟨hfree,?_⟩,hlength⟩
  rw [hstored, if_neg (by simp)]
  simp [spoken]

/-- By induction on the conversation. -/
lemma Conversation.remembers (h : Conversation model id store turns) :
    Remembers id store turns ∧ ∀ turn ∈ turns, turn.completion.length = turn.request.maxTokens := by
  induction h with
  | opened store hfree habsent => exact ⟨⟨hfree,by simp [habsent]⟩,by simp⟩
  | served h request path now hprompt completion session hserve store' helsewhere ih =>
    obtain ⟨hremembers,hlength⟩ := ih.1.serve hprompt hserve helsewhere now
    refine ⟨hremembers,fun turn hturn => ?_⟩
    obtain hold | hnew := List.mem_append.mp hturn
    · exact ih.2 turn hold
    · rw [List.mem_singleton.mp hnew]
      exact hlength
  | elsewhere h hstep ih =>
    refine ⟨⟨ih.1.free.sameAt hstep.sameAt,?_⟩,ih.2⟩
    rw [hstep.sameAt.inner]
    exact ih.1.stored
  | expired h now hgone ih =>
    rw [evictExpired_store] at hgone ⊢
    exact ⟨⟨⟨ih.1.free.tombstone,ih.1.free.marker⟩,by simp [hgone]⟩,by simp⟩
  | deleted h ih =>
    rename_i store turns
    unfold SessionStore.delete
    cases hpeek : Lru.peek store.inner id with
    | some state =>
      exact ⟨⟨⟨by simp,ih.1.free.marker⟩,by simp⟩,by simp⟩
    | none =>
      dsimp only
      rw [ih.1.free.marker, if_neg (by simp)]
      exact ⟨⟨ih.1.free,by simp [hpeek]⟩,by simp⟩

/-- The requests of a session as one long sequence. What was ingested is all that was said but the
last token, each token once and at the position that is its index; the last token is pending. The
completions have the length asked for, and which path serves a request makes no difference. -/
theorem session_is_sequence (h : Conversation model id store turns) :
    (turns ≠ [] → ∃ state ingested last, Lru.peek store.inner id = some state ∧
      spoken turns = ingested++[last] ∧
      state.content.history = rowsOf 0 ingested ∧
      state.content.position = state.content.history.length ∧
      state.content.pendingToken = some last) ∧
    (∀ turn ∈ turns, turn.completion.length =
      max 1 (min turn.request.requestedMax turn.request.maxTokensCap)) ∧
    ∀ (path path' : Path) (request : Request π) (session : SessionKv),
      serve model path request session = serve model path' request session := by
  obtain ⟨hremembers,hlength⟩ := h.remembers
  refine ⟨fun hturns => ?_,fun turn hturn => ?_,fun path path' request session => ?_⟩
  · obtain ⟨state,hstate,hcontent⟩ := Option.map_eq_some_iff.mp
      (hremembers.stored.trans (if_neg hturns))
    have hspoken : spoken turns ≠ [] := by
      obtain ⟨turn,rest,rfl⟩ := List.exists_cons_of_ne_nil hturns
      have hfirst := hlength turn (by simp)
      have hmax : 1 ≤ turn.request.maxTokens := le_max_right _ _
      intro hnil
      simp only [spoken, List.flatMap_cons, List.append_eq_nil_iff] at hnil
      rw [hnil.1.2, List.length_nil] at hfirst
      omega
    refine ⟨state,(spoken turns).dropLast,(spoken turns).getLast hspoken,hstate,
      (List.dropLast_append_getLast hspoken).symm,?_⟩
    rw [hcontent]
    simp [SessionKv.ofTokens, List.getLast?_eq_some_getLast hspoken]
  · rw [max_comm]
    exact hlength turn hturn
  · rw [serve_eq, serve_eq]

/-- A model whose next token is what was ingested and where. -/
def counting : RealModel UInt32 Bool where
  forward := fun kv token pos => token+UInt32.ofNat (kv.length+pos)
  sample := fun hidden _ _ => hidden
  isGreedy := fun params => params
  greedy := true
  isGreedy_greedy := rfl
  greedy_alike := fun _ _ _ _ _ _ => rfl

/-- Two requests, the first as a stream and the second with speculation. -/
theorem session_is_sequence_two : ∃ store turns, Conversation counting () store turns ∧
    spoken turns = [5,6,8,12,7,15,25] ∧
      ∃ state, Lru.peek store.inner () = some state ∧ state.content.position = 6 := by
  have hopened : Conversation counting () (SessionStore.new 0) [] :=
    .opened _ ⟨by decide,rfl⟩ rfl
  have hfirst := hopened.served ⟨[5,6],2,8,false⟩ .stream 0 (by decide) [8,12]
    ⟨rowsOf 0 [5,6,8],3,some 12⟩ (by rw [serve_eq]; decide +kernel) _ .refl
  have hsecond := hfirst.served ⟨[7],2,8,true⟩ (.generate ⟨4,some ⟨fun token => token+10⟩⟩) 1
    (by decide) [15,25] ⟨rowsOf 0 [5,6,8,12,7,15],6,some 25⟩ (by rw [serve_eq]; decide +kernel) _
    .refl
  obtain ⟨state,ingested,last,hstate,hspoken,hhistory,hposition,-⟩ :=
    (session_is_sequence hsecond).1 (by simp)
  have hlength : 7 = (ingested++[last]).length := by
    rw [← hspoken]
    rfl
  refine ⟨_,_,hsecond,rfl,state,hstate,?_⟩
  rw [hposition, hhistory, length_rowsOf]
  simpa using hlength.symm

end Conversations

end MicroExpertRouter.Generation
