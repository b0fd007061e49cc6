import MicroExpertRouter.Lib.LruCache

/-! The RAM cache of one layer, of `expert_cache.rs`: a recency list with pins and with positions
reserved for batches in flight. Each operation is one critical section. Decayed heat is floating
point; an operation that compares it takes the answers as a parameter, and the epochs that only
heat reads are left out. -/
namespace MicroExpertRouter.RamCache

/-- A shadow buffer came with a speculative prefetch. -/
structure PooledBuffer where
  shadow : Bool
  deriving DecidableEq, Repr

structure ExpertResident where
  id : ℕ
  buffer : PooledBuffer
  deriving DecidableEq, Repr

def ExpertResident.entry (self : ExpertResident) : ℕ × PooledBuffer := (self.id,self.buffer)

@[ext]
structure ExpertCache where
  inner : LruCache ℕ PooledBuffer
  pinned : Finset ℕ
  costAware : Bool
  reservedSlots : ℕ

namespace ExpertCache

def new (capacity : ℕ) (h : 0<capacity) : ExpertCache := ⟨.new capacity h,∅,false,0⟩

def capacity (self : ExpertCache) : ℕ := self.inner.cap

def len (self : ExpertCache) : ℕ := self.inner.len

/-- Most recently used first. -/
def residentIds (self : ExpertCache) : List ℕ := self.inner.keys

def setInner (self : ExpertCache) (inner : LruCache ℕ PooledBuffer) : ExpertCache :=
  { self with inner := inner }

/-- One turn of the cost-aware search; `colder k best` is whether the heat of `k` is at most that
of `best`. -/
def keepColdest (colder : ℕ → ℕ → Bool) (pinned : Finset ℕ) (best : Option ℕ) (k : ℕ) : Option ℕ :=
  if k ∈ pinned then best
  else match best with
  | none => some k
  | some coldest => if colder k coldest then some k else best

def selectVictimId (self : ExpertCache) (colder : ℕ → ℕ → Bool) : Option ℕ :=
  if self.costAware then self.inner.keys.foldl (keepColdest colder self.pinned) none
  else Lru.oldest self.inner.entries fun k => decide (k ∉ self.pinned)

def get (self : ExpertCache) (id : ℕ) : ExpertCache × Option ExpertResident :=
  (self.setInner (self.inner.get id),(self.inner.peek id).map (ExpertResident.mk id))

/-- Push, once room was made; the entry that the push itself gives up is reported first. -/
def pushResident (self : ExpertCache) (inner : LruCache ℕ PooledBuffer)
    (preEvicted : Option ExpertResident) (resident : ExpertResident) :
    ExpertCache × Except ExpertResident (Option ExpertResident) :=
  let (inner,pushEvicted) := inner.push resident.id resident.buffer
  (self.setInner inner,
    .ok ((pushEvicted.map fun entry => ⟨entry.1,entry.2⟩).or preEvicted))

def insert (self : ExpertCache) (colder : ℕ → ℕ → Bool) (resident : ExpertResident) :
    ExpertCache × Except ExpertResident (Option ExpertResident) :=
  if self.capacity ≤ self.len+self.reservedSlots ∧ self.inner.peek resident.id = none then
    match self.selectVictimId colder with
    | none => (self,.error resident)
    | some victim =>
      let (inner,value) := self.inner.pop victim
      self.pushResident inner (value.map (ExpertResident.mk victim)) resident
  else self.pushResident self.inner none resident

def evictLru (self : ExpertCache) (colder : ℕ → ℕ → Bool) : ExpertCache × Option ExpertResident :=
  if self.pinned = ∅ ∧ self.costAware = false then
    let (inner,entry) := self.inner.popLru
    (self.setInner inner,entry.map fun entry => ⟨entry.1,entry.2⟩)
  else match self.selectVictimId colder with
  | none => (self,none)
  | some victim =>
    let (inner,value) := self.inner.pop victim
    (self.setInner inner,value.map (ExpertResident.mk victim))

def evictLruShadowBacked (self : ExpertCache) : ExpertCache × Option ExpertResident :=
  let idOrder := (self.inner.entries.filter fun entry => entry.2.shadow).map Prod.fst
  match idOrder.reverse.find? fun id => decide (id ∉ self.pinned) && (self.inner.peek id).isSome with
  | none => (self,none)
  | some id =>
    let (inner,value) := self.inner.pop id
    (self.setInner inner,value.map (ExpertResident.mk id))

def pin (self : ExpertCache) (id : ℕ) : ExpertCache := { self with pinned := Insert.insert id self.pinned }

def unpin (self : ExpertCache) (id : ℕ) : ExpertCache := { self with pinned := self.pinned.erase id }

def setCostAware (self : ExpertCache) (on : Bool) : ExpertCache := { self with costAware := on }

/-- The positions that a new guard takes. -/
def reserve (self : ExpertCache) (count : ℕ) : ExpertCache :=
  { self with reservedSlots := self.reservedSlots+count }

/-- `ExpertCacheSlotReservation::commit` with a position left; nothing when its debug assertion
fires. -/
def commitSlot (self : ExpertCache) (resident : ExpertResident) :
    Option (ExpertCache × Except ExpertResident Unit) :=
  if self.reservedSlots = 0 ∨ self.inner.peek resident.id ≠ none ∨
      self.capacity<self.len+self.reservedSlots then some (self,.error resident)
  else
    let (inner,evicted) := self.inner.push resident.id resident.buffer
    if evicted.isSome then none
    else some ({ self with inner := inner, reservedSlots := self.reservedSlots-1 },.ok ())

/-- Dropping a guard with positions left; nothing when its debug assertion fires. -/
def release (self : ExpertCache) (remaining : ℕ) : Option ExpertCache :=
  if remaining = 0 then some self
  else if self.reservedSlots<remaining then none
  else some { self with reservedSlots := self.reservedSlots-remaining }

section Victims
variable {self : ExpertCache} {colder : ℕ → ℕ → Bool}

/-- The cost-aware search finds an unpinned resident when there is one. -/
lemma foldl_keepColdest (pinned : Finset ℕ) (keys : List ℕ) :
    ∀ {best found : Option ℕ}, keys.foldl (keepColdest colder pinned) best = found →
      (∀ k, found = some k → best = some k ∨ k ∈ keys ∧ k ∉ pinned) ∧
        (found = none → best = none ∧ ∀ k ∈ keys, k ∈ pinned) := by
  induction keys with
  | nil =>
    rintro best _ rfl
    exact ⟨fun k hk => .inl hk,fun hnone => ⟨hnone,nofun⟩⟩
  | cons x keys ih =>
    intro best found h
    rw [List.foldl_cons] at h
    obtain ⟨hsome,hnone⟩ := ih h
    have hbest : ∀ k, keepColdest colder pinned best x = some k →
        best = some k ∨ k = x ∧ x ∉ pinned := by
      intro k hk
      unfold keepColdest at hk
      split_ifs at hk with hpinned
      · exact .inl hk
      · cases best with
        | none => exact .inr ⟨(Option.some.inj hk).symm,hpinned⟩
        | some coldest =>
          dsimp only at hk
          split_ifs at hk
          · exact .inr ⟨(Option.some.inj hk).symm,hpinned⟩
          · exact .inl hk
    constructor
    · intro k hk
      rcases hsome k hk with hstep | ⟨hmem,hfree⟩
      · rcases hbest k hstep with hold | ⟨rfl,hfree⟩
        · exact .inl hold
        · exact .inr ⟨List.mem_cons_self,hfree⟩
      · exact .inr ⟨List.mem_cons_of_mem _ hmem,hfree⟩
    · intro hempty
      obtain ⟨hstep,hall⟩ := hnone hempty
      unfold keepColdest at hstep
      split_ifs at hstep with hpinned
      · exact ⟨hstep,List.forall_mem_cons.mpr ⟨hpinned,hall⟩⟩
      · cases best with
        | none => cases hstep
        | some coldest =>
          dsimp only at hstep
          split_ifs at hstep

/-- A victim is an unpinned resident. -/
lemma selectVictimId_some {k : ℕ} (h : self.selectVictimId colder = some k) :
    k ∉ self.pinned ∧ k ∈ self.residentIds := by
  unfold selectVictimId at h
  split_ifs at h with hcost
  · rcases (foldl_keepColdest self.pinned self.inner.keys h).1 k rfl with hnone | ⟨hmem,hfree⟩
    · cases hnone
    · exact ⟨hfree,hmem⟩
  · obtain ⟨hfree,v,hmem⟩ := Lru.oldest_eq_some h
    exact ⟨of_decide_eq_true hfree,List.mem_map.mpr ⟨_,hmem,rfl⟩⟩

lemma mem_residentIds {id : ℕ} : id ∈ self.residentIds ↔ ∃ v, (id,v) ∈ self.inner.entries := by
  unfold residentIds LruCache.keys
  simp

lemma nodup_residentIds (self : ExpertCache) : self.residentIds.Nodup := self.inner.nodup_keys

end Victims

/-- What every operation on residents, pins and policy leaves alone, and what it must not do. -/
structure Sound (a b : ExpertCache) : Prop where
  capacity : b.capacity = a.capacity
  reserved : b.reservedSlots = a.reservedSlots
  room : a.len+a.reservedSlots ≤ a.capacity → b.len+b.reservedSlots ≤ b.capacity
  pinned : ∀ id ∈ a.pinned, id ∈ a.residentIds → id ∈ b.residentIds

namespace Sound
variable {a : ExpertCache}

lemma refl (a : ExpertCache) : Sound a a := ⟨rfl,rfl,id,fun _ _ => id⟩

/-- Removing an unpinned resident, or nobody. -/
lemma remove {k : ℕ} (hfree : k ∉ a.pinned) : Sound a (a.setInner (a.inner.pop k).1) := by
  refine ⟨rfl,rfl,fun hroom => ?_,fun id hpinned hmem => ?_⟩
  · have hle : (Lru.pop a.inner.entries k).length ≤ a.inner.entries.length :=
      List.length_filter_le _ _
    change (Lru.pop a.inner.entries k).length+a.reservedSlots ≤ a.capacity
    change a.inner.entries.length+a.reservedSlots ≤ a.capacity at hroom
    omega
  · obtain ⟨v,hv⟩ := mem_residentIds.mp hmem
    refine mem_residentIds.mpr ⟨v,Lru.mem_pop.mpr ⟨hv,?_⟩⟩
    rintro rfl
    exact hfree hpinned

lemma get (a : ExpertCache) (id : ℕ) : Sound a (a.get id).1 := by
  have hperm := a.inner.distinct.perm_touch id
  refine ⟨rfl,rfl,fun hroom => ?_,fun x _ hmem => ?_⟩
  · change (Lru.touch a.inner.entries id).length+a.reservedSlots ≤ a.capacity
    rw [hperm.length_eq]
    exact hroom
  · exact (hperm.map Prod.fst).mem_iff.mpr hmem

lemma pin (a : ExpertCache) (id : ℕ) : Sound a (a.pin id) := ⟨rfl,rfl,fun h => h,fun _ _ h => h⟩

lemma unpin (a : ExpertCache) (id : ℕ) : Sound a (a.unpin id) :=
  ⟨rfl,rfl,fun h => h,fun _ _ h => h⟩

lemma setCostAware (a : ExpertCache) (on : Bool) : Sound a (a.setCostAware on) :=
  ⟨rfl,rfl,fun h => h,fun _ _ h => h⟩

/-- A push of a present id replaces its buffer. -/
lemma push_present {id : ℕ} {old : PooledBuffer} (h : a.inner.peek id = some old)
    (buffer : PooledBuffer) : Sound a (a.setInner (a.inner.push id buffer).1) := by
  obtain ⟨hentries,hcap⟩ := LruCache.push_of_present h buffer
  have hlength : (Lru.put a.inner.entries id buffer).length = a.inner.entries.length :=
    Lru.length_pop a.inner.distinct (Lru.peek_mem h)
  refine ⟨hcap,rfl,fun hroom => ?_,fun x _ hmem => ?_⟩
  · change (a.inner.push id buffer).1.entries.length+a.reservedSlots ≤ (a.inner.push id buffer).1.cap
    rw [hentries, hlength, hcap]
    exact hroom
  · obtain ⟨v,hv⟩ := mem_residentIds.mp hmem
    refine mem_residentIds.mpr ?_
    change ∃ w, (x,w) ∈ (a.inner.push id buffer).1.entries
    rw [hentries]
    by_cases hx : x = id
    · subst hx
      exact ⟨buffer,List.mem_cons_self⟩
    · exact ⟨v,Lru.mem_put.mpr (.inr ⟨hv,hx⟩)⟩

/-- A push of an absent id with a place left only adds it. -/
lemma push_absent {id : ℕ} (h : a.inner.peek id = none)
    (hroom : a.len+a.reservedSlots<a.capacity) (buffer : PooledBuffer) :
    Sound a (a.setInner (a.inner.push id buffer).1) := by
  have hfree : a.inner.len<a.inner.cap := Nat.lt_of_le_of_lt (Nat.le_add_right _ _) hroom
  obtain ⟨hentries,hcap,-⟩ := LruCache.push_of_absent h hfree buffer
  refine ⟨hcap,rfl,fun _ => ?_,fun x _ hmem => ?_⟩
  · change (a.inner.push id buffer).1.entries.length+a.reservedSlots ≤ (a.inner.push id buffer).1.cap
    rw [hentries, hcap, List.length_cons]
    change a.inner.entries.length+a.reservedSlots<a.inner.cap at hroom
    omega
  · obtain ⟨v,hv⟩ := mem_residentIds.mp hmem
    refine mem_residentIds.mpr ⟨v,?_⟩
    change (x,v) ∈ (a.inner.push id buffer).1.entries
    rw [hentries]
    exact List.mem_cons_of_mem _ hv

lemma trans {b c : ExpertCache} (h : Sound a b) (h' : Sound b c) (hpinned : b.pinned = a.pinned) :
    Sound a c := by
  refine ⟨h'.capacity.trans h.capacity,h'.reserved.trans h.reserved,fun hroom => h'.room (h.room hroom),
    fun id hid hmem => h'.pinned id ?_ (h.pinned id hid hmem)⟩
  rw [hpinned]
  exact hid

end Sound

variable {self : ExpertCache} {colder : ℕ → ℕ → Bool} {resident : ExpertResident}

/-- Popping a resident leaves a place. -/
lemma len_pop {k : ℕ} (h : k ∈ self.residentIds) :
    (self.setInner (self.inner.pop k).1).len+1 = self.len := by
  obtain ⟨v,hv⟩ := mem_residentIds.mp h
  exact Lru.length_pop self.inner.distinct hv

theorem insert_sound (hroom : self.len+self.reservedSlots ≤ self.capacity) :
    Sound self (self.insert colder resident).1 := by
  unfold insert
  split_ifs with hfull
  · obtain ⟨-,habsent⟩ := hfull
    cases hvictim : self.selectVictimId colder with
    | none => exact .refl self
    | some victim =>
      obtain ⟨hfree,hmem⟩ := selectVictimId_some hvictim
      have hlen := len_pop hmem
      have hpop := Sound.remove hfree
      refine hpop.trans (Sound.push_absent ?_ ?_ resident.buffer) rfl
      · rw [LruCache.peek_eq_none] at habsent ⊢
        intro hmem'
        obtain ⟨entry,hentry,heq⟩ := List.mem_map.mp hmem'
        exact habsent (List.mem_map.mpr ⟨entry,(List.mem_filter.mp hentry).1,heq⟩)
      · rw [hpop.capacity, hpop.reserved]
        omega
  · cases hpeek : self.inner.peek resident.id with
    | some old => exact .push_present hpeek resident.buffer
    | none =>
      refine .push_absent hpeek ?_ resident.buffer
      by_contra hnot
      exact hfull ⟨Nat.not_lt.mp hnot,hpeek⟩

lemma insert_error {error : ExpertResident} (h : (self.insert colder resident).2 = .error error) :
    (self.insert colder resident).1 = self := by
  unfold insert at h ⊢
  split_ifs at h ⊢ with hfull
  · cases hvictim : self.selectVictimId colder with
    | none => rfl
    | some victim =>
      rw [hvictim] at h
      cases h
  · cases h

theorem evictLru_sound (self : ExpertCache) (colder : ℕ → ℕ → Bool) :
    Sound self (self.evictLru colder).1 := by
  unfold evictLru
  split_ifs with hfast
  · obtain ⟨hpins,-⟩ := hfast
    refine ⟨rfl,rfl,fun hroom => ?_,fun id hid => ?_⟩
    · have hle : self.inner.entries.dropLast.length ≤ self.inner.entries.length :=
        (List.dropLast_sublist _).length_le
      change self.inner.entries.dropLast.length+self.reservedSlots ≤ self.capacity
      change self.inner.entries.length+self.reservedSlots ≤ self.capacity at hroom
      omega
    · rw [hpins] at hid
      exact absurd hid (Finset.notMem_empty id)
  · cases hvictim : self.selectVictimId colder with
    | none => exact .refl self
    | some victim => exact .remove (selectVictimId_some hvictim).1

theorem evictLruShadowBacked_sound (self : ExpertCache) :
    Sound self self.evictLruShadowBacked.1 := by
  unfold evictLruShadowBacked
  dsimp only
  cases hfind : List.find? (fun id => decide (id ∉ self.pinned) && (self.inner.peek id).isSome)
      ((self.inner.entries.filter fun entry => entry.2.shadow).map Prod.fst).reverse with
  | none => exact .refl self
  | some id =>
    have hgood := List.find?_some hfind
    rw [Bool.and_eq_true, decide_eq_true_iff] at hgood
    exact .remove hgood.1

lemma pinned_evictLru (self : ExpertCache) (colder : ℕ → ℕ → Bool) :
    (self.evictLru colder).1.pinned = self.pinned := by
  unfold evictLru
  split_ifs
  · rfl
  · cases self.selectVictimId colder with
    | none => rfl
    | some victim => rfl

lemma pinned_evictLruShadowBacked (self : ExpertCache) :
    self.evictLruShadowBacked.1.pinned = self.pinned := by
  unfold evictLruShadowBacked
  dsimp only
  cases List.find? (fun id => decide (id ∉ self.pinned) && (self.inner.peek id).isSome)
      ((self.inner.entries.filter fun entry => entry.2.shadow).map Prod.fst).reverse with
  | none => rfl
  | some id => rfl

/-- A commit with a reserved position and room for all of them adds the resident, unless it is
already there. -/
theorem commitSlot_spec (hreserved : 0<self.reservedSlots)
    (hroom : self.len+self.reservedSlots ≤ self.capacity) :
    (resident.id ∈ self.residentIds ∧ self.commitSlot resident = some (self,.error resident)) ∨
      resident.id ∉ self.residentIds ∧ ∃ inner,
        self.commitSlot resident =
            some ({ self with inner := inner, reservedSlots := self.reservedSlots-1 },.ok ()) ∧
          inner.entries = resident.entry::self.inner.entries ∧ inner.cap = self.inner.cap := by
  unfold commitSlot
  cases hpeek : self.inner.peek resident.id with
  | some old =>
    refine .inl ⟨mem_residentIds.mpr ⟨old,Lru.peek_mem hpeek⟩,?_⟩
    rw [if_pos (.inr (.inl nofun))]
  | none =>
    have hfree : self.inner.len<self.inner.cap := by
      change self.inner.len+self.reservedSlots ≤ self.inner.cap at hroom
      omega
    obtain ⟨hentries,hcap,hevicted⟩ := LruCache.push_of_absent hpeek hfree resident.buffer
    refine .inr ⟨LruCache.peek_eq_none.mp hpeek,(self.inner.push resident.id resident.buffer).1,?_,
      hentries,hcap⟩
    rw [if_neg]
    · dsimp only
      rw [hevicted]
      rfl
    · rintro (hzero | hpresent | hover)
      · omega
      · exact hpresent rfl
      · omega

section Strict

/-- The same cache with other entries. -/
structure Holding (a b : ExpertCache) (entries : List (ℕ × PooledBuffer)) : Prop where
  entries : b.inner.entries = entries
  capacity : b.capacity = a.capacity
  pinned : b.pinned = a.pinned
  costAware : b.costAware = a.costAware
  reserved : b.reservedSlots = a.reservedSlots

lemma Holding.trans {a b c : ExpertCache} {entries entries' : List (ℕ × PooledBuffer)}
    (h : Holding a b entries) (h' : Holding b c entries') : Holding a c entries' :=
  ⟨h'.entries,h'.capacity.trans h.capacity,h'.pinned.trans h.pinned,
    h'.costAware.trans h.costAware,h'.reserved.trans h.reserved⟩

def unpinned (self : ExpertCache) (entry : ℕ × PooledBuffer) : Bool :=
  decide (entry.1 ∉ self.pinned)

lemma selectVictimId_strict (hcost : self.costAware = false) :
    self.selectVictimId colder =
      (takeLast self.unpinned self.inner.entries).map fun found => found.1.1 := by
  unfold selectVictimId
  rw [hcost, if_neg Bool.false_ne_true]
  exact Lru.oldest_eq_takeLast self.inner.entries

/-- Popping the victim of the strict order. -/
lemma pop_victim {entry : ℕ × PooledBuffer} {left : List (ℕ × PooledBuffer)}
    (h : takeLast self.unpinned self.inner.entries = some (entry,left)) :
    Holding self (self.setInner (self.inner.pop entry.1).1) left ∧
      (self.inner.pop entry.1).2 = some entry.2 := by
  obtain ⟨hleft,hpeek⟩ := @Lru.pop_takeLast _ _ self.inner.entries
    (fun k => decide (k ∉ self.pinned)) _ self.inner.distinct entry.1 entry.2 left h
  exact ⟨⟨hleft,rfl,rfl,rfl,rfl⟩,hpeek⟩

/-- Without cost-aware eviction the victim is the last unpinned entry, on either path. -/
lemma evictLru_strict (hcost : self.costAware = false) :
    (takeLast self.unpinned self.inner.entries = none ∧ self.evictLru colder = (self,none)) ∨
      ∃ entry left, takeLast self.unpinned self.inner.entries = some (entry,left) ∧
        (self.evictLru colder).2 = some ⟨entry.1,entry.2⟩ ∧
        Holding self (self.evictLru colder).1 left := by
  unfold evictLru
  cases htake : takeLast self.unpinned self.inner.entries with
  | none =>
    refine .inl ⟨rfl,?_⟩
    split_ifs with hfast
    · -- Nobody is pinned, so there is nobody.
      have hempty : self.inner.entries = [] := by
        rw [List.eq_nil_iff_forall_not_mem]
        intro entry hmem
        have hpinned := takeLast_eq_none.mp htake entry hmem
        rw [unpinned, hfast.1] at hpinned
        simp at hpinned
      have hsame : (self.inner.popLru).1 = self.inner := by
        refine LruCache.ext ?_ rfl
        change self.inner.entries.dropLast = self.inner.entries
        rw [hempty]
        rfl
      have hnone : (self.inner.popLru).2 = none := by
        change self.inner.entries.getLast? = none
        rw [hempty]
        rfl
      dsimp only
      rw [hsame, hnone]
      rfl
    · rw [selectVictimId_strict hcost, htake]
      rfl
  | some found =>
    obtain ⟨entry,left⟩ := found
    refine .inr ⟨entry,left,rfl,?_⟩
    split_ifs with hfast
    · obtain ⟨-,before,after,hsplit,hleft,hafter⟩ := takeLast_eq_some htake
      have hlast : after = [] := by
        rw [List.eq_nil_iff_forall_not_mem]
        intro other hmem
        have hpinned := hafter other hmem
        rw [unpinned, hfast.1] at hpinned
        simp at hpinned
      subst hlast
      rw [List.append_nil] at hleft
      subst hleft
      constructor
      · change (self.inner.entries.getLast?).map _ = _
        rw [hsplit, List.getLast?_concat]
        rfl
      · refine ⟨?_,rfl,rfl,rfl,rfl⟩
        change self.inner.entries.dropLast = left
        rw [hsplit, List.dropLast_concat]
    · rw [selectVictimId_strict hcost, htake]
      obtain ⟨hholding,hvalue⟩ := pop_victim htake
      refine ⟨?_,hholding⟩
      change ((self.inner.pop entry.1).2).map _ = _
      rw [hvalue]
      rfl

/-- Inserting an absent resident without cost-aware eviction. -/
lemma insert_strict (hcost : self.costAware = false)
    (habsent : resident.id ∉ self.residentIds) :
    (self.len+self.reservedSlots<self.capacity ∧
      (self.insert colder resident).2 = .ok none ∧
      Holding self (self.insert colder resident).1 (resident.entry::self.inner.entries)) ∨
    (self.capacity ≤ self.len+self.reservedSlots ∧
      takeLast self.unpinned self.inner.entries = none ∧
      self.insert colder resident = (self,.error resident)) ∨
    ∃ entry left, self.capacity ≤ self.len+self.reservedSlots ∧
      takeLast self.unpinned self.inner.entries = some (entry,left) ∧
      (self.insert colder resident).2 = .ok (some ⟨entry.1,entry.2⟩) ∧
      Holding self (self.insert colder resident).1 (resident.entry::left) := by
  have hpeek : self.inner.peek resident.id = none := LruCache.peek_eq_none.mpr habsent
  unfold insert
  by_cases hfull : self.capacity ≤ self.len+self.reservedSlots
  · rw [if_pos ⟨hfull,hpeek⟩, selectVictimId_strict hcost]
    cases htake : takeLast self.unpinned self.inner.entries with
    | none => exact .inr (.inl ⟨hfull,rfl,rfl⟩)
    | some found =>
      obtain ⟨entry,left⟩ := found
      obtain ⟨hholding,hvalue⟩ := pop_victim htake
      obtain ⟨-,before,after,hsplit,hleft,-⟩ := takeLast_eq_some htake
      have hentries : (self.inner.pop entry.1).1.entries = left := hholding.entries
      have hlength := length_takeLast htake
      have hgone : (self.inner.pop entry.1).1.peek resident.id = none := by
        rw [LruCache.peek_eq_none, LruCache.keys, hentries, hleft]
        intro hmem
        refine habsent ?_
        change resident.id ∈ self.inner.entries.map Prod.fst
        rw [hsplit]
        simp only [List.map_append, List.map_cons, List.mem_append, List.mem_cons] at hmem ⊢
        tauto
      have hplace : (self.inner.pop entry.1).1.len<(self.inner.pop entry.1).1.cap := by
        have hbounded := self.inner.bounded
        change (self.inner.pop entry.1).1.entries.length<self.inner.cap
        rw [hentries]
        omega
      obtain ⟨hpushed,hcap,hnone⟩ := LruCache.push_of_absent hgone hplace resident.buffer
      refine .inr (.inr ⟨entry,left,hfull,rfl,?_,?_,hcap,rfl,rfl,rfl⟩)
      · change Except.ok ((((self.inner.pop entry.1).1.push resident.id resident.buffer).2.map _).or
          (((self.inner.pop entry.1).2).map _)) = _
        rw [hnone, hvalue]
        rfl
      · change ((self.inner.pop entry.1).1.push resident.id resident.buffer).1.entries = _
        rw [hpushed, hentries]
        rfl
  · rw [if_neg fun h => hfull h.1]
    have hplace : self.inner.len<self.inner.cap :=
      Nat.lt_of_le_of_lt (Nat.le_add_right _ _) (Nat.not_le.mp hfull)
    obtain ⟨hpushed,hcap,hnone⟩ := LruCache.push_of_absent hpeek hplace resident.buffer
    refine .inl ⟨Nat.not_le.mp hfull,?_,hpushed,hcap,rfl,rfl,rfl⟩
    change Except.ok (((self.inner.push resident.id resident.buffer).2.map _).or none) = _
    rw [hnone]
    rfl

end Strict

end ExpertCache

end MicroExpertRouter.RamCache
