import Mathlib.Data.List.Nodup
import Mathlib.Tactic

/-! A least-recently-used cache as an association list, most recently used entry first. Keys are
distinct when the cache is built by its own operations. -/
namespace MicroExpertRouter.Lru
variable {κ ν : Type*}

/-- No key occurs twice. -/
def Distinct (cache : List (κ × ν)) : Prop := (cache.map Prod.fst).Nodup

/-- The least recently used key that may go. -/
def oldest (cache : List (κ × ν)) (evictable : κ → Bool) : Option κ :=
  (cache.reverse.find? (fun entry => evictable entry.1)).map Prod.fst

variable {cache : List (κ × ν)} {k x : κ} {v w : ν}

lemma Distinct.eq (h : Distinct cache) (hv : (k,v) ∈ cache) (hw : (k,w) ∈ cache) : v = w :=
  (Prod.mk.inj (List.inj_on_of_nodup_map h hv hw rfl)).2

lemma oldest_eq_some {evictable : κ → Bool} (h : oldest cache evictable = some k) :
    evictable k = true ∧ ∃ v, (k,v) ∈ cache := by
  obtain ⟨⟨key,v⟩,hfind,rfl⟩ := Option.map_eq_some_iff.mp h
  have hevictable := List.find?_some hfind
  exact ⟨hevictable,v,List.mem_reverse.mp (List.mem_of_find?_eq_some hfind)⟩

lemma oldest_isSome {evictable : κ → Bool} (hmem : (k,v) ∈ cache) (hk : evictable k = true) :
    ∃ x, oldest cache evictable = some x := by
  rw [← Option.isSome_iff_exists, oldest, Option.isSome_map, List.find?_isSome]
  exact ⟨(k,v),List.mem_reverse.mpr hmem,hk⟩

/-- The keys from the least to the most recently used. -/
def recency (cache : List (κ × ν)) : List κ := (cache.map Prod.fst).reverse

lemma mem_recency : k ∈ recency cache ↔ ∃ v, (k,v) ∈ cache := by
  simp [recency]

lemma oldest_recency (evictable : κ → Bool) :
    oldest cache evictable = (recency cache).find? evictable := by
  rw [recency, ← List.map_reverse, List.find?_map, oldest]
  rfl

variable [DecidableEq κ]

def peek (cache : List (κ × ν)) (k : κ) : Option ν :=
  (cache.find? (fun entry => entry.1 = k)).map Prod.snd

def pop (cache : List (κ × ν)) (k : κ) : List (κ × ν) :=
  cache.filter (fun entry => entry.1 ≠ k)

/-- Insert or overwrite, as the most recently used entry. -/
def put (cache : List (κ × ν)) (k : κ) (v : ν) : List (κ × ν) := (k,v)::pop cache k

/-- The lookup that makes an entry the most recently used one. -/
def touch (cache : List (κ × ν)) (k : κ) : List (κ × ν) :=
  match peek cache k with
  | some v => put cache k v
  | none => cache

@[simp] lemma mem_pop : (x,w) ∈ pop cache k ↔ (x,w) ∈ cache ∧ x ≠ k := by
  simp [pop]

@[simp] lemma mem_put : (x,w) ∈ put cache k v ↔ (x,w) = (k,v) ∨ (x,w) ∈ cache ∧ x ≠ k := by
  rw [put, List.mem_cons, mem_pop]

lemma peek_mem (h : peek cache k = some v) : (k,v) ∈ cache := by
  obtain ⟨⟨key,value⟩,hfind,rfl⟩ := Option.map_eq_some_iff.mp h
  have hkey := List.find?_some hfind
  simp only [decide_eq_true_eq] at hkey
  subst hkey
  exact List.mem_of_find?_eq_some hfind

lemma peek_eq_none : peek cache k = none ↔ ∀ v, (k,v) ∉ cache := by
  rw [peek, Option.map_eq_none_iff, List.find?_eq_none]
  constructor
  · intro h v hmem
    exact h (k,v) hmem (by simp)
  · rintro h ⟨key,v⟩ hmem hkey
    simp only [decide_eq_true_eq] at hkey
    subst hkey
    exact h v hmem

lemma peek_eq_some (h : Distinct cache) : peek cache k = some v ↔ (k,v) ∈ cache := by
  refine ⟨peek_mem,fun hmem => ?_⟩
  cases hpeek : peek cache k with
  | none => exact absurd hmem (peek_eq_none.mp hpeek v)
  | some w => rw [h.eq hmem (peek_mem hpeek)]

@[simp] lemma peek_put (cache : List (κ × ν)) (k : κ) (v : ν) : peek (put cache k v) k = some v := by
  simp [peek, put]

@[simp] lemma peek_pop (cache : List (κ × ν)) (k : κ) : peek (pop cache k) k = none := by
  simp [peek_eq_none]

lemma peek_pop_of_ne (cache : List (κ × ν)) (h : x ≠ k) : peek (pop cache k) x = peek cache x := by
  unfold peek pop
  rw [List.find?_filter]
  congr 2
  ext entry
  simp only [ne_eq, decide_eq_decide, decide_eq_true_eq]
  by_cases hkey : entry.1 = x
  · simp [hkey, h]
  · simp [hkey]

lemma peek_put_of_ne (cache : List (κ × ν)) (h : x ≠ k) (v : ν) :
    peek (put cache k v) x = peek cache x := by
  rw [← peek_pop_of_ne cache h]
  simp [peek, put, h.symm]

lemma Distinct.pop (h : Distinct cache) (k : κ) : Distinct (pop cache k) :=
  List.Nodup.sublist (List.filter_sublist.map _) h

lemma Distinct.put (h : Distinct cache) (k : κ) (v : ν) : Distinct (put cache k v) := by
  rw [Distinct, Lru.put, List.map_cons, List.nodup_cons]
  refine ⟨fun hmem => ?_,h.pop k⟩
  obtain ⟨⟨key,w⟩,hentry,hkey⟩ := List.mem_map.mp hmem
  exact (mem_pop.mp hentry).2 hkey

lemma Distinct.touch (h : Distinct cache) (k : κ) : Distinct (touch cache k) := by
  unfold Lru.touch
  split
  · exact h.put k _
  · exact h

/-- A touch reorders. -/
lemma mem_touch (h : Distinct cache) : (x,w) ∈ touch cache k ↔ (x,w) ∈ cache := by
  unfold touch
  split
  · rename_i v hpeek
    have hmem := peek_mem hpeek
    rw [mem_put]
    constructor
    · rintro (heq | ⟨hw,-⟩)
      · rw [heq]
        exact hmem
      · exact hw
    · intro hw
      by_cases hx : x = k
      · subst hx
        rw [h.eq hw hmem]
        exact .inl rfl
      · exact .inr ⟨hw,hx⟩
  · rfl

/-- Without the key there is nothing to remove. -/
lemma pop_of_absent (h : ∀ v, (k,v) ∉ cache) : pop cache k = cache := by
  rw [pop, List.filter_eq_self]
  rintro ⟨key,v⟩ hmem
  simp only [decide_eq_true_eq]
  rintro rfl
  exact h v hmem

lemma put_of_absent (h : ∀ v, (k,v) ∉ cache) (v : ν) : put cache k v = (k,v)::cache := by
  rw [put, pop_of_absent h]

/-- A present entry and the rest. -/
lemma Distinct.perm_pop (h : Distinct cache) (hmem : (k,v) ∈ cache) :
    cache.Perm ((k,v)::Lru.pop cache k) := by
  induction cache with
  | nil => cases hmem
  | cons entry cache ih =>
    obtain ⟨key,value⟩ := entry
    rw [Distinct, List.map_cons, List.nodup_cons] at h
    by_cases hkey : key = k
    · subst hkey
      have habsent : ∀ w, (key,w) ∉ cache := fun w hw => h.1 (List.mem_map.mpr ⟨_,hw,rfl⟩)
      have hvalue : v = value := by
        rcases List.mem_cons.mp hmem with heq | hmem
        · exact (Prod.mk.inj heq).2
        · exact absurd hmem (habsent v)
      have hdrop : Lru.pop ((key,value)::cache) key = Lru.pop cache key := by
        simp [Lru.pop]
      rw [hdrop, pop_of_absent habsent, hvalue]
    · have hmem : (k,v) ∈ cache := by
        rcases List.mem_cons.mp hmem with heq | hmem
        · exact absurd (Prod.mk.inj heq).1.symm hkey
        · exact hmem
      have hkeep : Lru.pop ((key,value)::cache) k = (key,value)::Lru.pop cache k := by
        simp [Lru.pop, hkey]
      rw [hkeep]
      exact ((ih h.2 hmem).cons _).trans (.swap _ _ _)

lemma Distinct.perm_touch (h : Distinct cache) (k : κ) : (Lru.touch cache k).Perm cache := by
  unfold Lru.touch
  split
  · rename_i v hpeek
    exact (h.perm_pop (peek_mem hpeek)).symm
  · exact .refl _

lemma length_put_le (cache : List (κ × ν)) (k : κ) (v : ν) :
    (put cache k v).length ≤ cache.length+1 :=
  Nat.succ_le_succ (List.length_filter_le _ _)

/-- Removing a present key frees one place. -/
lemma length_pop (h : Distinct cache) (hmem : (k,v) ∈ cache) :
    (pop cache k).length+1 = cache.length := by
  rw [(h.perm_pop hmem).length_eq, List.length_cons]

lemma recency_pop (h : Distinct cache) (k : κ) :
    recency (pop cache k) = (recency cache).erase k := by
  have hnodup : (recency cache).Nodup := List.nodup_reverse.mpr h
  have hkeep : (fun entry : κ × ν => decide (entry.1 ≠ k)) = (fun x => x != k) ∘ Prod.fst := by
    funext entry
    rw [Function.comp_apply, bne, decide_not]
    rfl
  rw [hnodup.erase_eq_filter, recency, recency, pop, hkeep, List.filter_reverse, List.filter_map]

lemma recency_put (h : Distinct cache) (k : κ) (v : ν) :
    recency (put cache k v) = (recency cache).erase k++[k] := by
  rw [put, ← recency_pop h, recency, List.map_cons, List.reverse_cons]
  rfl

lemma recency_touch (h : Distinct cache) (hmem : (k,v) ∈ cache) :
    recency (touch cache k) = (recency cache).erase k++[k] := by
  rw [touch, (peek_eq_some h).mpr hmem]
  exact recency_put h k v

end MicroExpertRouter.Lru
