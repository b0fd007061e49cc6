import MicroExpertRouter.RamCache.Interleavings
import Mathlib.Algebra.BigOperators.Group.Multiset.Basic

/-! The residents of the multi-layer cache as a whole: which of them leave with an operation, and
which one comes. -/
namespace MicroExpertRouter.RamCache
open MultiLayerExpertCache

namespace MultiLayerExpertCache

def contains (self : MultiLayerExpertCache) (id : ℕ) : Bool :=
  match self.tryLayerIdx id with
  | none => false
  | some layer => ((self.caches layer).inner.peek id).isSome

/-- The residents of all layers. -/
def residents (self : MultiLayerExpertCache) : Multiset (ℕ × PooledBuffer) :=
  ∑ layer ∈ Finset.range self.numLayers, ((self.caches layer).inner.entries : Multiset _)

/-- Every resident is in the layer of its id. -/
def Addressed (self : MultiLayerExpertCache) : Prop :=
  ∀ layer, ∀ entry ∈ (self.caches layer).inner.entries, self.tryLayerIdx entry.1 = some layer

end MultiLayerExpertCache

section Residents
variable {self : MultiLayerExpertCache}

lemma mem_residents {entry : ℕ × PooledBuffer} (h : self.Addressed) :
    entry ∈ self.residents ↔ ∃ layer, entry ∈ (self.caches layer).inner.entries := by
  rw [residents, Multiset.mem_sum]
  constructor
  · rintro ⟨layer,-,hmem⟩
    exact ⟨layer,hmem⟩
  · rintro ⟨layer,hmem⟩
    exact ⟨layer,Finset.mem_range.mpr (tryLayerIdx_eq_some (h layer entry hmem)),hmem⟩

lemma contains_iff (h : self.Addressed) {id : ℕ} :
    self.contains id = true ↔ ∃ buffer, (id,buffer) ∈ self.residents := by
  simp only [mem_residents h]
  unfold MultiLayerExpertCache.contains
  constructor
  · intro hid
    cases hlayer : self.tryLayerIdx id with
    | none =>
      rw [hlayer] at hid
      cases hid
    | some layer =>
      rw [hlayer] at hid
      obtain ⟨buffer,hpeek⟩ := Option.isSome_iff_exists.mp hid
      exact ⟨buffer,layer,Lru.peek_mem hpeek⟩
  · rintro ⟨buffer,layer,hmem⟩
    rw [h layer _ hmem]
    exact Option.isSome_iff_exists.mpr
      ⟨buffer,(Lru.peek_eq_some (self.caches layer).inner.distinct).mpr hmem⟩

/-- An expert is resident once at most. -/
lemma nodup_residents (h : self.Addressed) : (self.residents.map Prod.fst).Nodup := by
  rw [Multiset.nodup_iff_count_le_one]
  intro id
  have hmap : self.residents.map Prod.fst =
      ∑ layer ∈ Finset.range self.numLayers, ((self.caches layer).residentIds : Multiset ℕ) :=
    map_sum (Multiset.mapAddMonoidHom Prod.fst) _ _
  rw [hmap, Multiset.count_sum']
  have hother : ∀ layer, self.tryLayerIdx id ≠ some layer →
      Multiset.count id ((self.caches layer).residentIds : Multiset ℕ) = 0 := by
    intro layer hne
    rw [Multiset.count_eq_zero, Multiset.mem_coe]
    intro hmem
    obtain ⟨buffer,hmem⟩ := ExpertCache.mem_residentIds.mp hmem
    exact hne (h layer _ hmem)
  cases hlayer : self.tryLayerIdx id with
  | none =>
    rw [Finset.sum_eq_zero fun layer _ => hother layer (by rw [hlayer]; nofun)]
    exact Nat.zero_le 1
  | some home =>
    rw [Finset.sum_eq_single home (fun layer _ hne => hother layer (by
      rw [hlayer]
      exact fun heq => hne (Option.some.inj heq).symm)) (fun hout =>
        absurd (Finset.mem_range.mpr (tryLayerIdx_eq_some hlayer)) hout)]
    exact Multiset.nodup_iff_count_le_one.mp
      (Multiset.coe_nodup.mpr (self.caches home).nodup_residentIds) id

lemma card_residents (self : MultiLayerExpertCache) : Multiset.card self.residents = self.len :=
  map_sum Multiset.cardHom _ _

end Residents

/-- From `a` to `b` these residents leave and those come. -/
structure Moves (a b : MultiLayerExpertCache) (gone come : Multiset (ℕ × PooledBuffer)) : Prop where
  numLayers : b.numLayers = a.numLayers
  stride : b.expertsPerLayer = a.expertsPerLayer
  addressed : b.Addressed
  residents : b.residents+gone = come+a.residents

namespace Moves
variable {a b c : MultiLayerExpertCache} {gone come gone' come' : Multiset (ℕ × PooledBuffer)}

lemma refl (h : a.Addressed) : Moves a a 0 0 := ⟨rfl,rfl,h,by rw [add_zero, zero_add]⟩

lemma trans (h : Moves a b gone come) (h' : Moves b c gone' come') :
    Moves a c (gone+gone') (come+come') := by
  refine ⟨h'.numLayers.trans h.numLayers,h'.stride.trans h.stride,h'.addressed,?_⟩
  calc c.residents+(gone+gone') = c.residents+gone'+gone := by abel
    _ = come'+(b.residents+gone) := by rw [h'.residents, add_assoc]
    _ = come'+(come+a.residents) := by rw [h.residents]
    _ = come+come'+a.residents := by abel

/-- What one layer gives and takes. -/
lemma setLayer {layer : ℕ} {cache : ExpertCache} (h : a.Addressed) (hlayer : layer<a.numLayers)
    (hcome : ∀ entry ∈ come, a.tryLayerIdx entry.1 = some layer)
    (hentries : (cache.inner.entries : Multiset (ℕ × PooledBuffer))+gone =
      come+(a.caches layer).inner.entries) : Moves a (a.setLayer layer cache) gone come := by
  have hmem := Finset.mem_range.mpr hlayer
  refine ⟨rfl,rfl,fun l entry hentry => ?_,?_⟩
  · change a.tryLayerIdx entry.1 = some l
    by_cases hl : l = layer
    · subst hl
      rw [caches_setLayer_self] at hentry
      have hin : entry ∈ come+((a.caches l).inner.entries : Multiset (ℕ × PooledBuffer)) := by
        rw [← hentries]
        exact Multiset.mem_add.mpr (.inl hentry)
      exact (Multiset.mem_add.mp hin).elim (hcome entry) (h l entry)
    · rw [caches_setLayer_of_ne _ hl] at hentry
      exact h l entry hentry
  · have hrest : ∑ l ∈ (Finset.range a.numLayers).erase layer,
        (((a.setLayer layer cache).caches l).inner.entries : Multiset (ℕ × PooledBuffer)) =
          ∑ l ∈ (Finset.range a.numLayers).erase layer,
            ((a.caches l).inner.entries : Multiset (ℕ × PooledBuffer)) :=
      Finset.sum_congr rfl fun l hl => by
        rw [caches_setLayer_of_ne _ (Finset.ne_of_mem_erase hl)]
    unfold MultiLayerExpertCache.residents
    change ∑ l ∈ Finset.range a.numLayers,
      (((a.setLayer layer cache).caches l).inner.entries : Multiset (ℕ × PooledBuffer))+gone = _
    rw [← Finset.add_sum_erase _ _ hmem, ← Finset.add_sum_erase (Finset.range a.numLayers)
      (fun l => ((a.caches l).inner.entries : Multiset (ℕ × PooledBuffer))) hmem, hrest,
      caches_setLayer_self]
    calc _ = (cache.inner.entries : Multiset (ℕ × PooledBuffer))+gone+
          ∑ l ∈ (Finset.range a.numLayers).erase layer,
            ((a.caches l).inner.entries : Multiset (ℕ × PooledBuffer)) := by abel
      _ = _ := by rw [hentries, add_assoc]

/-- The same entries in every layer. -/
lemma same (h : a.Addressed) (hlayers : b.numLayers = a.numLayers)
    (hstride : b.expertsPerLayer = a.expertsPerLayer)
    (hentries : ∀ layer, (b.caches layer).inner.entries = (a.caches layer).inner.entries) :
    Moves a b 0 0 := by
  refine ⟨hlayers,hstride,fun layer entry hmem => ?_,?_⟩
  · rw [hentries] at hmem
    rw [tryLayerIdx_congr hlayers hstride]
    exact h layer entry hmem
  · rw [add_zero, zero_add]
    unfold MultiLayerExpertCache.residents
    rw [hlayers]
    exact Finset.sum_congr rfl fun layer _ => by rw [hentries]

end Moves

/-- Removing a resident. -/
lemma pop_entries {inner : LruCache ℕ PooledBuffer} {id : ℕ} {buffer : PooledBuffer}
    (h : inner.peek id = some buffer) :
    ((inner.pop id).1.entries : Multiset (ℕ × PooledBuffer))+{(id,buffer)} = inner.entries := by
  rw [add_comm, Multiset.singleton_add, Multiset.cons_coe, Multiset.coe_eq_coe]
  exact (inner.distinct.perm_pop (Lru.peek_mem h)).symm

namespace ExpertCache
variable {self next : ExpertCache} {colder : ℕ → ℕ → Bool} {resident victim : ExpertResident}

lemma evictLru_some (h : self.evictLru colder = (next,some victim)) :
    (next.inner.entries : Multiset (ℕ × PooledBuffer))+{victim.entry} = self.inner.entries := by
  unfold evictLru at h
  split_ifs at h with hfast
  · obtain ⟨rfl,hlast⟩ := Prod.mk.inj h
    obtain ⟨⟨id,buffer⟩,hlast',rfl⟩ := Option.map_eq_some_iff.mp hlast
    have hlast : (id,buffer) ∈ self.inner.entries.getLast? := hlast'
    have happend := List.dropLast_append_getLast? _ hlast
    change (↑self.inner.entries.dropLast : Multiset (ℕ × PooledBuffer))+↑[(id,buffer)] = _
    rw [Multiset.coe_add]
    exact congrArg _ happend
  · cases hvictim : self.selectVictimId colder with
    | none =>
      rw [hvictim] at h
      cases h
    | some k =>
      rw [hvictim] at h
      obtain ⟨rfl,hvalue⟩ := Prod.mk.inj h
      obtain ⟨buffer,hpeek,rfl⟩ := Option.map_eq_some_iff.mp hvalue
      exact pop_entries hpeek

lemma evictLru_none (h : self.evictLru colder = (next,none)) :
    next.inner.entries = self.inner.entries := by
  unfold evictLru at h
  split_ifs at h with hfast
  · obtain ⟨rfl,hlast⟩ := Prod.mk.inj h
    have hempty := List.getLast?_eq_none_iff.mp (Option.map_eq_none_iff.mp hlast)
    change self.inner.entries.dropLast = _
    rw [hempty]
    rfl
  · cases hvictim : self.selectVictimId colder with
    | none =>
      rw [hvictim] at h
      cases h
      rfl
    | some k =>
      rw [hvictim] at h
      obtain ⟨rfl,hvalue⟩ := Prod.mk.inj h
      have hpeek := Option.map_eq_none_iff.mp hvalue
      exact Lru.pop_of_absent (Lru.peek_eq_none.mp hpeek)

lemma evictLruShadowBacked_some (h : self.evictLruShadowBacked = (next,some victim)) :
    (next.inner.entries : Multiset (ℕ × PooledBuffer))+{victim.entry} = self.inner.entries ∧
      victim.buffer.shadow = true := by
  unfold evictLruShadowBacked at h
  dsimp only at h
  split at h
  case h_1 => cases h
  case h_2 id hfind =>
    obtain ⟨rfl,hvalue⟩ := Prod.mk.inj h
    obtain ⟨buffer,hpeek,rfl⟩ := Option.map_eq_some_iff.mp hvalue
    refine ⟨pop_entries hpeek,?_⟩
    have hmem := List.mem_of_find?_eq_some hfind
    rw [List.mem_reverse] at hmem
    obtain ⟨⟨key,value⟩,hentry,rfl⟩ := List.mem_map.mp hmem
    obtain ⟨hentry,hshadow⟩ := List.mem_filter.mp hentry
    rw [self.inner.distinct.eq (Lru.peek_mem hpeek) hentry]
    exact hshadow

lemma evictLruShadowBacked_none (h : self.evictLruShadowBacked = (next,none)) :
    next.inner.entries = self.inner.entries := by
  unfold evictLruShadowBacked at h
  dsimp only at h
  split at h
  case h_1 =>
    cases h
    rfl
  case h_2 id hfind =>
    obtain ⟨rfl,hvalue⟩ := Prod.mk.inj h
    exact Lru.pop_of_absent (Lru.peek_eq_none.mp (Option.map_eq_none_iff.mp hvalue))

/-- A push with a place left gives up the old value of its key, and nothing else. -/
lemma push_entries {inner : LruCache ℕ PooledBuffer} (h : inner.peek resident.id = none →
      inner.len < inner.cap) :
    ((inner.push resident.id resident.buffer).1.entries : Multiset (ℕ × PooledBuffer))+
        ((inner.push resident.id resident.buffer).2.toList : Multiset (ℕ × PooledBuffer)) =
      {resident.entry}+inner.entries := by
  cases hpeek : inner.peek resident.id with
  | none =>
    obtain ⟨hentries,-,hnone⟩ := LruCache.push_of_absent hpeek (h hpeek) resident.buffer
    rw [hentries, hnone, Option.toList_none, Multiset.coe_nil, add_zero,
      Multiset.singleton_add, Multiset.cons_coe]
    rfl
  | some old =>
    have hvalue : (inner.push resident.id resident.buffer).2 = some (resident.id,old) := by
      unfold LruCache.push
      split
      · rename_i value hvalue
        rw [hpeek] at hvalue
        cases hvalue
        rfl
      · rename_i hnone
        rw [hpeek] at hnone
        cases hnone
    obtain ⟨hentries,-⟩ := LruCache.push_of_present hpeek resident.buffer
    rw [hentries, hvalue, Option.toList_some, Multiset.coe_singleton, Lru.put, ← Multiset.cons_coe,
      ← Multiset.singleton_add, add_assoc]
    exact congrArg _ (pop_entries hpeek)

lemma pushResident_entries {inner : LruCache ℕ PooledBuffer} {pre evicted : Option ExpertResident}
    (h : inner.peek resident.id = none → inner.len < inner.cap)
    (hpre : pre = none ∨ inner.peek resident.id = none)
    (hpush : self.pushResident inner pre resident = (next,.ok evicted)) :
    (next.inner.entries : Multiset (ℕ × PooledBuffer))+
        ((evicted.map ExpertResident.entry).toList : Multiset _) =
      {resident.entry}+(inner.entries : Multiset (ℕ × PooledBuffer))+
        ((pre.map ExpertResident.entry).toList : Multiset _) := by
  have hentries := push_entries h
  have hpushed : (self.setInner (inner.push resident.id resident.buffer).1,
      (.ok (((inner.push resident.id resident.buffer).2.map fun entry => ⟨entry.1,entry.2⟩).or pre) :
        Except ExpertResident (Option ExpertResident))) = (next,.ok evicted) := hpush
  obtain ⟨rfl,hevicted⟩ := Prod.mk.inj hpushed
  cases Except.ok.inj hevicted
  rw [← hentries]
  change ((inner.push resident.id resident.buffer).1.entries : Multiset (ℕ × PooledBuffer))+_ =
    (inner.push resident.id resident.buffer).1.entries+_+_
  cases hgiven : (inner.push resident.id resident.buffer).2 with
  | none => simp
  | some entry =>
    cases hpre with
    | inl hnone => simp [hnone, ExpertResident.entry]
    | inr habsent =>
      obtain ⟨-,-,hnone⟩ := LruCache.push_of_absent habsent (h habsent) resident.buffer
      rw [hgiven] at hnone
      cases hnone

/-- An insertion that succeeds gives up whom it reports, for the new resident. -/
lemma insert_ok {evicted : Option ExpertResident}
    (h : self.insert colder resident = (next,.ok evicted)) :
    (next.inner.entries : Multiset (ℕ × PooledBuffer))+
        ((evicted.map ExpertResident.entry).toList : Multiset _) =
      {resident.entry}+(self.inner.entries : Multiset (ℕ × PooledBuffer)) := by
  unfold insert at h
  split_ifs at h with hfull
  · obtain ⟨-,habsent⟩ := hfull
    cases hvictim : self.selectVictimId colder with
    | none =>
      rw [hvictim] at h
      cases h
    | some victim =>
      rw [hvictim] at h
      obtain ⟨-,hmem⟩ := selectVictimId_some hvictim
      obtain ⟨buffer,hbuffer⟩ := mem_residentIds.mp hmem
      have hpeek : self.inner.peek victim = some buffer :=
        (Lru.peek_eq_some self.inner.distinct).mpr hbuffer
      have hgone : (self.inner.pop victim).1.peek resident.id = none := by
        rw [LruCache.peek, Lru.peek_eq_none]
        exact fun v hv => Lru.peek_eq_none.mp habsent v (Lru.mem_pop.mp hv).1
      have hlen := Lru.length_pop self.inner.distinct hbuffer
      have hroom : (self.inner.pop victim).1.len<(self.inner.pop victim).1.cap := by
        have hbounded := self.inner.bounded
        change (Lru.pop self.inner.entries victim).length<self.inner.cap
        omega
      have hentries := pushResident_entries (fun _ => hroom) (.inr hgone) h
      have hpopped := pop_entries hpeek
      rw [hpeek] at hentries
      rw [hentries, ← hpopped, add_assoc]
      rfl
  · have hroom : self.inner.peek resident.id = none → self.inner.len<self.inner.cap := by
      intro habsent
      have hcap : ¬ self.capacity ≤ self.len+self.reservedSlots := fun hle => hfull ⟨hle,habsent⟩
      change ¬ self.inner.cap ≤ self.inner.len+_ at hcap
      omega
    have hentries := pushResident_entries hroom (.inl rfl) h
    simpa using hentries

/-- An insertion that succeeds puts its resident in. -/
lemma insert_ok_mem {evicted : Option ExpertResident}
    (h : self.insert colder resident = (next,.ok evicted)) : resident.entry ∈ next.inner.entries := by
  have hpush : ∀ inner pre, self.pushResident inner pre resident = (next,.ok evicted) →
      resident.entry ∈ next.inner.entries := by
    intro inner pre hpush
    have hnext : self.setInner (inner.push resident.id resident.buffer).1 = next :=
      congrArg Prod.fst hpush
    rw [← hnext]
    change resident.entry ∈ (inner.push resident.id resident.buffer).1.entries
    unfold LruCache.push
    split
    · exact List.mem_cons_self
    · split_ifs
      · exact List.mem_cons_self
      · exact List.mem_cons_self
  unfold insert at h
  split_ifs at h
  · cases hvictim : self.selectVictimId colder with
    | none =>
      rw [hvictim] at h
      cases h
    | some victim =>
      rw [hvictim] at h
      exact hpush _ _ h
  · exact hpush _ _ h

/-- A refused insertion gives its resident back. -/
lemma insert_refused {error : ExpertResident} (h : self.insert colder resident = (next,.error error)) :
    next = self ∧ error = resident := by
  unfold insert at h
  split_ifs at h
  · cases hvictim : self.selectVictimId colder with
    | none =>
      rw [hvictim] at h
      cases h
      exact ⟨rfl,rfl⟩
    | some victim =>
      rw [hvictim] at h
      cases h
  · cases h

end ExpertCache

section Operations
variable {self next : MultiLayerExpertCache} {colder : ℕ → ℕ → Bool} {id : ℕ}

lemma get_moves (h : self.Addressed) (id : ℕ) : Moves self (self.get id).1 0 0 := by
  unfold MultiLayerExpertCache.get
  cases hlayer : self.tryLayerIdx id with
  | none => exact .refl h
  | some layer =>
    refine .setLayer h (tryLayerIdx_eq_some hlayer) (fun _ hmem => absurd hmem (Multiset.notMem_zero _)) ?_
    rw [add_zero, zero_add, Multiset.coe_eq_coe]
    exact (self.caches layer).inner.distinct.perm_touch id

/-- A hit finds a resident of this id. -/
lemma get_some (h : self.Addressed) {resident : ExpertResident}
    (hget : (self.get id).2 = some resident) : resident.id = id ∧ resident.entry ∈ self.residents := by
  unfold MultiLayerExpertCache.get at hget
  cases hlayer : self.tryLayerIdx id with
  | none =>
    rw [hlayer] at hget
    cases hget
  | some layer =>
    rw [hlayer] at hget
    obtain ⟨buffer,hpeek,rfl⟩ := Option.map_eq_some_iff.mp hget
    exact ⟨rfl,(mem_residents h).mpr ⟨layer,Lru.peek_mem hpeek⟩⟩

lemma get_none (hget : (self.get id).2 = none) : self.contains id = false := by
  unfold MultiLayerExpertCache.get at hget
  unfold MultiLayerExpertCache.contains
  cases hlayer : self.tryLayerIdx id with
  | none => rfl
  | some layer =>
    rw [hlayer] at hget
    change (((self.caches layer).inner.peek id).map _) = none at hget
    change ((self.caches layer).inner.peek id).isSome = false
    rw [Option.map_eq_none_iff.mp hget]
    rfl

/-- The layer of an entry is one of the layers. -/
lemma layer_lt_of_mem (h : self.Addressed) {layer : ℕ} {entry : ℕ × PooledBuffer}
    (hmem : entry ∈ (self.caches layer).inner.entries) : layer<self.numLayers :=
  tryLayerIdx_eq_some (h layer entry hmem)

/-- One resident leaves one layer. -/
lemma moves_evict (h : self.Addressed) {layer : ℕ} {cache : ExpertCache} {victim : ExpertResident}
    (hentries : (cache.inner.entries : Multiset (ℕ × PooledBuffer))+{victim.entry} =
      (self.caches layer).inner.entries) : Moves self (self.setLayer layer cache) {victim.entry} 0 := by
  have hmem : victim.entry ∈ (self.caches layer).inner.entries := by
    rw [← Multiset.mem_coe, ← hentries]
    exact Multiset.mem_add.mpr (.inr (Multiset.mem_singleton_self _))
  refine .setLayer h (layer_lt_of_mem h hmem) (fun _ hin => absurd hin (Multiset.notMem_zero _)) ?_
  rw [hentries, zero_add]

/-- Nobody leaves a layer. -/
lemma moves_keep (h : self.Addressed) {layer : ℕ} {cache : ExpertCache}
    (hentries : cache.inner.entries = (self.caches layer).inner.entries) :
    Moves self (self.setLayer layer cache) 0 0 := by
  refine .same h rfl rfl fun l => ?_
  by_cases hl : l = layer
  · subst hl
    rw [caches_setLayer_self]
    exact hentries
  · rw [caches_setLayer_of_ne _ hl]

/-- One resident comes into its layer. -/
lemma moves_join (h : self.Addressed) {layer : ℕ} {cache : ExpertCache} {resident : ExpertResident}
    (hlayer : self.tryLayerIdx resident.id = some layer)
    (hentries : cache.inner.entries = resident.entry::(self.caches layer).inner.entries) :
    Moves self (self.setLayer layer cache) 0 {resident.entry} ∧
      resident.entry ∈ (self.setLayer layer cache).residents := by
  have hmoves : Moves self (self.setLayer layer cache) 0 {resident.entry} := by
    refine .setLayer h (tryLayerIdx_eq_some hlayer) (fun entry hentry => ?_) ?_
    · rw [Multiset.mem_singleton.mp hentry]
      exact hlayer
    · rw [hentries, add_zero, Multiset.singleton_add, Multiset.cons_coe]
  refine ⟨hmoves,(mem_residents hmoves.addressed).mpr ⟨layer,?_⟩⟩
  rw [caches_setLayer_self, hentries]
  exact List.mem_cons_self

lemma insert_moves (h : self.Addressed) {resident : ExpertResident} {evicted : Option ExpertResident}
    (hinsert : self.insert colder resident = (next,.ok evicted)) :
    Moves self next ((evicted.map ExpertResident.entry).toList : Multiset _) {resident.entry} := by
  unfold MultiLayerExpertCache.insert at hinsert
  cases hlayer : self.tryLayerIdx resident.id with
  | none =>
    rw [hlayer] at hinsert
    cases hinsert
  | some layer =>
    obtain ⟨⟨cache,result⟩,hresult⟩ : ∃ inserted,
        (self.caches layer).insert colder resident = inserted := ⟨_,rfl⟩
    rw [hlayer] at hinsert
    dsimp only at hinsert
    rw [hresult] at hinsert
    obtain ⟨rfl,rfl⟩ := Prod.mk.inj hinsert
    refine .setLayer h (tryLayerIdx_eq_some hlayer) (fun entry hentry => ?_) ?_
    · rw [Multiset.mem_singleton.mp hentry]
      exact hlayer
    · exact ExpertCache.insert_ok hresult

lemma insert_mem (h : self.Addressed) {resident : ExpertResident} {evicted : Option ExpertResident}
    (hinsert : self.insert colder resident = (next,.ok evicted)) :
    resident.entry ∈ next.residents := by
  have hmoves := insert_moves h hinsert
  unfold MultiLayerExpertCache.insert at hinsert
  cases hlayer : self.tryLayerIdx resident.id with
  | none =>
    rw [hlayer] at hinsert
    cases hinsert
  | some layer =>
    obtain ⟨⟨cache,result⟩,hresult⟩ : ∃ inserted,
        (self.caches layer).insert colder resident = inserted := ⟨_,rfl⟩
    rw [hlayer] at hinsert
    dsimp only at hinsert
    rw [hresult] at hinsert
    obtain ⟨rfl,rfl⟩ := Prod.mk.inj hinsert
    refine (mem_residents hmoves.addressed).mpr ⟨layer,?_⟩
    rw [caches_setLayer_self]
    exact ExpertCache.insert_ok_mem hresult

lemma insert_refuses {resident error : ExpertResident}
    (hinsert : self.insert colder resident = (next,.error error)) :
    next = self ∧ error = resident := by
  unfold MultiLayerExpertCache.insert at hinsert
  cases hlayer : self.tryLayerIdx resident.id with
  | none =>
    rw [hlayer] at hinsert
    cases hinsert
    exact ⟨rfl,rfl⟩
  | some layer =>
    obtain ⟨⟨cache,result⟩,hresult⟩ : ∃ inserted,
        (self.caches layer).insert colder resident = inserted := ⟨_,rfl⟩
    rw [hlayer] at hinsert
    dsimp only at hinsert
    rw [hresult] at hinsert
    obtain ⟨rfl,rfl⟩ := Prod.mk.inj hinsert
    obtain ⟨hsame,herror⟩ := ExpertCache.insert_refused hresult
    rw [hsame, setLayer_self]
    exact ⟨rfl,herror⟩

/-- The victims of a plan are whom the cache loses. -/
lemma popVictims_moves (planned : List (ℕ × ℕ)) : ∀ {self : MultiLayerExpertCache} {emptied}
    {victims : List ExpertResident}, self.Addressed → popVictims planned self = some (emptied,victims) →
      Moves self emptied (victims.map ExpertResident.entry) 0 := by
  induction planned with
  | nil =>
    intro self emptied victims h hpop
    cases hpop
    exact .refl h
  | cons first planned ih =>
    intro self emptied victims h hpop
    obtain ⟨layer,id⟩ := first
    rw [popVictims] at hpop
    cases hpeek : (self.caches layer).inner.peek id with
    | none =>
      have hpopped : ((self.caches layer).inner.pop id).2 = none := hpeek
      split at hpop
      · cases hpop
      · rename_i hvalue
        rw [hvalue] at hpopped
        cases hpopped
    | some buffer =>
      have hpopped : ((self.caches layer).inner.pop id).2 = some buffer := hpeek
      split at hpop
      · rename_i hvalue
        rw [hvalue] at hpopped
        cases hpopped
      · rename_i inner value hvalue
        obtain ⟨⟨rest,others⟩,hrest,hout⟩ := Option.bind_eq_some_iff.mp hpop
        cases hout
        have hinner : inner = ((self.caches layer).inner.pop id).1 := by rw [hvalue]
        have hbuffer : value = buffer := by
          rw [hvalue] at hpopped
          exact Option.some.inj hpopped
        subst hinner hbuffer
        have hentries := pop_entries hpeek
        change (((self.caches layer).setInner ((self.caches layer).inner.pop id).1).inner.entries :
          Multiset (ℕ × PooledBuffer))+{ExpertResident.entry ⟨id,value⟩} = _ at hentries
        have hfirst := moves_evict h hentries
        have hall := hfirst.trans (ih hfirst.addressed hrest)
        rw [add_zero] at hall
        rw [List.map_cons, ← Multiset.cons_coe, ← Multiset.singleton_add]
        exact hall

end Operations

end MicroExpertRouter.RamCache
