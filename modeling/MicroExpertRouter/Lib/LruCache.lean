import MicroExpertRouter.Lib.Lru

/-! A recency list of bounded size that keeps its keys distinct, and the removal of the last
element of a list that may go, which is how such a list gives up a victim. -/
namespace MicroExpertRouter

section TakeLast
variable {α β : Type*} {p : α → Bool} {xs : List α}

/-- The last element that satisfies `p`, and the list without it. -/
def takeLast (p : α → Bool) : List α → Option (α × List α)
  | [] => none
  | x::xs => match takeLast p xs with
    | some (y,ys) => some (y,x::ys)
    | none => if p x then some (x,xs) else none

lemma takeLast_eq_none : takeLast p xs = none ↔ ∀ x ∈ xs, p x = false := by
  induction xs with
  | nil => exact ⟨fun _ => nofun,fun _ => rfl⟩
  | cons x xs ih =>
    unfold takeLast
    rw [List.forall_mem_cons]
    cases hrest : takeLast p xs with
    | some rest =>
      have hnot : ¬ ∀ x ∈ xs, p x = false := by
        rw [← ih, hrest]
        exact nofun
      exact ⟨nofun,fun hall => absurd hall.2 hnot⟩
    | none =>
      have hall := ih.mp hrest
      by_cases hx : p x = true
      · simp [hx]
      · rw [if_neg hx]
        exact ⟨fun _ => ⟨Bool.eq_false_of_not_eq_true hx,hall⟩,fun _ => rfl⟩

lemma takeLast_eq_some {y : α} {ys : List α} (h : takeLast p xs = some (y,ys)) :
    p y = true ∧ ∃ before after, xs = before++y::after ∧ ys = before++after ∧
      ∀ x ∈ after, p x = false := by
  induction xs generalizing ys with
  | nil => cases h
  | cons x xs ih =>
    unfold takeLast at h
    cases hrest : takeLast p xs with
    | some rest =>
      obtain ⟨z,zs⟩ := rest
      rw [hrest] at h
      cases h
      obtain ⟨hy,before,after,rfl,rfl,hafter⟩ := ih hrest
      exact ⟨hy,x::before,after,rfl,rfl,hafter⟩
    | none =>
      rw [hrest] at h
      by_cases hx : p x = true
      · simp only [hx, if_true] at h
        cases h
        exact ⟨hx,[],xs,rfl,rfl,takeLast_eq_none.mp hrest⟩
      · simp [hx] at h

lemma length_takeLast {y : α} {ys : List α} (h : takeLast p xs = some (y,ys)) :
    ys.length+1 = xs.length := by
  obtain ⟨-,before,after,rfl,rfl,-⟩ := takeLast_eq_some h
  rw [List.length_append, List.length_append, List.length_cons, Nat.add_assoc]

lemma takeLast_append_of_some {ys left : List α} {y : α} (h : takeLast p ys = some (y,left))
    (xs : List α) : takeLast p (xs++ys) = some (y,xs++left) := by
  induction xs with
  | nil => exact h
  | cons x xs ih => rw [List.cons_append, takeLast, ih, List.cons_append]

lemma takeLast_append_of_none {ys : List α} (h : takeLast p ys = none) (xs : List α) :
    takeLast p (xs++ys) = (takeLast p xs).map fun found => (found.1,found.2++ys) := by
  induction xs with
  | nil => exact h
  | cons x xs ih =>
    rw [List.cons_append, takeLast, ih, takeLast]
    cases takeLast p xs with
    | some found => rfl
    | none =>
      dsimp only [Option.map_none]
      split_ifs
      · rfl
      · rfl

lemma takeLast_map {q : β → Bool} (f : α → β) (xs : List α) :
    takeLast q (xs.map f) =
      (takeLast (fun x => q (f x)) xs).map fun found => (f found.1,found.2.map f) := by
  induction xs with
  | nil => rfl
  | cons x xs ih =>
    rw [List.map_cons, takeLast, ih, takeLast]
    cases takeLast (fun x => q (f x)) xs with
    | some found => rfl
    | none =>
      dsimp only [Option.map_none]
      split_ifs
      · rfl
      · rfl

/-- Related lists give up related elements. -/
lemma takeLast_forall₂ {R : α → β → Prop} {q : β → Bool} {ys : List β}
    (h : List.Forall₂ R xs ys) (hpq : ∀ x y, R x y → p x = q y) :
    (takeLast p xs = none ∧ takeLast q ys = none) ∨
      ∃ x xs' y ys', takeLast p xs = some (x,xs') ∧ takeLast q ys = some (y,ys') ∧ R x y ∧
        List.Forall₂ R xs' ys' := by
  induction h with
  | nil => exact .inl ⟨rfl,rfl⟩
  | @cons x y xs ys hxy hrest ih =>
    unfold takeLast
    rcases ih with ⟨hx,hy⟩ | ⟨x',xs',y',ys',hx,hy,hlast,hleft⟩
    · rw [hx, hy, hpq x y hxy]
      by_cases hq : q y = true
      · rw [if_pos hq, if_pos hq]
        exact .inr ⟨x,xs,y,ys,rfl,rfl,hxy,hrest⟩
      · rw [if_neg hq, if_neg hq]
        exact .inl ⟨rfl,rfl⟩
    · rw [hx, hy]
      exact .inr ⟨x',x::xs',y',y::ys',rfl,rfl,hlast,.cons hxy hleft⟩

end TakeLast

namespace Lru
variable {κ ν : Type*} {cache : List (κ × ν)} {evictable : κ → Bool}

lemma oldest_cons (entry : κ × ν) (cache : List (κ × ν)) :
    oldest (entry::cache) evictable =
      (oldest cache evictable).or (if evictable entry.1 then some entry.1 else none) := by
  unfold oldest
  rw [List.reverse_cons, List.find?_append]
  cases cache.reverse.find? (fun entry => evictable entry.1) with
  | some found => rfl
  | none =>
    rw [Option.none_or, List.find?_singleton]
    by_cases h : evictable entry.1 = true
    · simp [h]
    · simp [h]

/-- The victim of a recency list is its last entry that may go. -/
lemma oldest_eq_takeLast (cache : List (κ × ν)) :
    oldest cache evictable =
      (takeLast (fun entry => evictable entry.1) cache).map fun found => found.1.1 := by
  induction cache with
  | nil => rfl
  | cons entry cache ih =>
    rw [oldest_cons, ih, takeLast]
    cases takeLast (fun entry => evictable entry.1) cache with
    | some found => rfl
    | none =>
      by_cases h : evictable entry.1 = true
      · simp [h]
      · simp [h]

lemma pop_takeLast [DecidableEq κ] (h : Distinct cache) {k : κ} {v : ν} {left : List (κ × ν)}
    (htake : takeLast (fun entry => evictable entry.1) cache = some ((k,v),left)) :
    pop cache k = left ∧ peek cache k = some v := by
  obtain ⟨-,before,after,rfl,rfl,-⟩ := takeLast_eq_some htake
  rw [Distinct, List.map_append, List.map_cons] at h
  have hapart := List.nodup_append.mp h
  have hbefore : ∀ w, (k,w) ∉ before := fun w hw =>
    hapart.2.2 _ (List.mem_map_of_mem hw) _ List.mem_cons_self rfl
  have hafter : ∀ w, (k,w) ∉ after := fun w hw =>
    (List.nodup_cons.mp hapart.2.1).1 (List.mem_map.mpr ⟨(k,w),hw,rfl⟩)
  constructor
  · have hself : pop ((k,v)::after) k = pop after k := by simp [pop]
    have hsplit : pop (before++(k,v)::after) k = pop before k++pop ((k,v)::after) k :=
      List.filter_append ..
    rw [hsplit, hself, pop_of_absent hbefore, pop_of_absent hafter]
  · refine (peek_eq_some ?_).mpr (List.mem_append_right _ List.mem_cons_self)
    rw [Distinct, List.map_append, List.map_cons]
    exact h

lemma Distinct.sublist {left : List (κ × ν)} (h : Distinct cache) (hsub : left.Sublist cache) :
    Distinct left :=
  List.Nodup.sublist (hsub.map _) h

lemma Distinct.cons [DecidableEq κ] {k : κ} (h : Distinct cache) (hk : peek cache k = none)
    (v : ν) : Distinct ((k,v)::cache) := by
  rw [Distinct, List.map_cons, List.nodup_cons]
  refine ⟨fun hmem => ?_,h⟩
  obtain ⟨⟨key,w⟩,hentry,rfl⟩ := List.mem_map.mp hmem
  exact peek_eq_none.mp hk w hentry

end Lru

/-- A recency list of at most `cap` entries, most recently used first. -/
@[ext]
structure LruCache (κ ν : Type*) where
  entries : List (κ × ν)
  cap : ℕ
  positive : 0<cap
  distinct : Lru.Distinct entries
  bounded : entries.length ≤ cap

namespace LruCache
variable {κ ν : Type*}

def new (cap : ℕ) (h : 0<cap) : LruCache κ ν := ⟨[],cap,h,List.nodup_nil,Nat.zero_le _⟩

def len (self : LruCache κ ν) : ℕ := self.entries.length

def keys (self : LruCache κ ν) : List κ := self.entries.map Prod.fst

lemma nodup_keys (self : LruCache κ ν) : self.keys.Nodup := self.distinct

/-- Remove the least recently used entry. -/
def popLru (self : LruCache κ ν) : LruCache κ ν × Option (κ × ν) :=
  ({ self with
    entries := self.entries.dropLast
    distinct := self.distinct.sublist (List.dropLast_sublist _)
    bounded := (List.dropLast_sublist _).length_le.trans self.bounded },self.entries.getLast?)

variable [DecidableEq κ]

def peek (self : LruCache κ ν) (k : κ) : Option ν := Lru.peek self.entries k

/-- A lookup makes its entry the most recently used one. -/
def get (self : LruCache κ ν) (k : κ) : LruCache κ ν :=
  { self with
    entries := Lru.touch self.entries k
    distinct := self.distinct.touch k
    bounded := (self.distinct.perm_touch k).length_eq.trans_le self.bounded }

def pop (self : LruCache κ ν) (k : κ) : LruCache κ ν × Option ν :=
  ({ self with
    entries := Lru.pop self.entries k
    distinct := self.distinct.pop k
    bounded := (List.length_filter_le _ _).trans self.bounded },self.peek k)

/-- Insert as the most recently used entry. A full cache gives up its least recently used entry,
a present key its old value. -/
def push (self : LruCache κ ν) (k : κ) (v : ν) : LruCache κ ν × Option (κ × ν) :=
  match h : self.peek k with
  | some old => ({ self with
      entries := Lru.put self.entries k v
      distinct := self.distinct.put k v
      bounded := (Lru.length_pop self.distinct (Lru.peek_mem h)).trans_le self.bounded },
      some (k,old))
  | none =>
    if hroom : self.len<self.cap then ({ self with
      entries := (k,v)::self.entries
      distinct := self.distinct.cons h v
      bounded := hroom },none)
    else ({ self with
      entries := (k,v)::self.entries.dropLast
      distinct := (self.distinct.sublist (List.dropLast_sublist _)).cons (by
        rw [Lru.peek_eq_none]
        exact fun w hw => Lru.peek_eq_none.mp h w (List.mem_of_mem_dropLast hw)) v
      bounded := by
        have hpos := self.positive
        have hle := self.bounded
        rw [List.length_cons, List.length_dropLast]
        omega },self.entries.getLast?)

variable {self : LruCache κ ν} {k : κ} {v : ν}

lemma push_of_absent (h : self.peek k = none) (hroom : self.len<self.cap) (v : ν) :
    (self.push k v).1.entries = (k,v)::self.entries ∧ (self.push k v).1.cap = self.cap ∧
      (self.push k v).2 = none := by
  unfold push
  split
  · rename_i old hold
    rw [h] at hold
    cases hold
  · rw [dif_pos hroom]
    exact ⟨rfl,rfl,rfl⟩

lemma push_of_present {old : ν} (h : self.peek k = some old) (v : ν) :
    (self.push k v).1.entries = Lru.put self.entries k v ∧ (self.push k v).1.cap = self.cap := by
  unfold push
  split
  · exact ⟨rfl,rfl⟩
  · rename_i hnone
    rw [h] at hnone
    cases hnone

lemma peek_eq_none : self.peek k = none ↔ k ∉ self.keys := by
  rw [peek, Lru.peek_eq_none, keys, List.mem_map]
  constructor
  · rintro h ⟨⟨key,v⟩,hmem,rfl⟩
    exact h v hmem
  · exact fun h v hmem => h ⟨(k,v),hmem,rfl⟩

end LruCache

end MicroExpertRouter
