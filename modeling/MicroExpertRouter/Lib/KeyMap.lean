import Mathlib.Tactic

/-! A hash map from numbers, whose iteration order is arbitrary. -/
namespace MicroExpertRouter

/-- The entries of a map: each key stands in one of them. -/
structure KeyMap (α : Type) where
  entries : List (ℕ × α)
  nodup : (entries.map Prod.fst).Nodup

namespace KeyMap
variable {α : Type}

def lookup (key : ℕ) : List (ℕ × α) → Option α
  | [] => none
  | entry::entries => if entry.1 = key then some entry.2 else lookup key entries

def get (self : KeyMap α) (key : ℕ) : Option α := lookup key self.entries

def empty : KeyMap α := ⟨[],List.nodup_nil⟩

/-- Change the value of a key, or insert the changed initial value. -/
def upsertEntries (key : ℕ) (initial : α) (change : α → α) : List (ℕ × α) → List (ℕ × α)
  | [] => [(key,change initial)]
  | entry::entries =>
    if entry.1 = key then (key,change entry.2)::entries
    else entry::upsertEntries key initial change entries

lemma mem_keys_upsert {key : ℕ} {initial : α} {change : α → α} {entries : List (ℕ × α)} {k : ℕ} :
    k ∈ (upsertEntries key initial change entries).map Prod.fst
      ↔ k = key ∨ k ∈ entries.map Prod.fst := by
  induction entries with
  | nil => simp [upsertEntries]
  | cons entry entries ih =>
    rw [upsertEntries]
    split_ifs with hkey
    · subst hkey
      simp
    · rw [List.map_cons, List.mem_cons, ih, List.map_cons, List.mem_cons]
      tauto

lemma nodup_upsert {key : ℕ} {initial : α} {change : α → α} {entries : List (ℕ × α)}
    (h : (entries.map Prod.fst).Nodup) :
    ((upsertEntries key initial change entries).map Prod.fst).Nodup := by
  induction entries with
  | nil => simp [upsertEntries]
  | cons entry entries ih =>
    rw [List.map_cons, List.nodup_cons] at h
    rw [upsertEntries]
    split_ifs with hkey
    · subst hkey
      exact List.nodup_cons.mpr h
    · refine List.nodup_cons.mpr ⟨fun hmem => ?_,ih h.2⟩
      rcases mem_keys_upsert.mp hmem with heq | hold
      · exact hkey heq
      · exact h.1 hold

/-- `*entry(key).or_insert(initial)` changed in place. -/
def upsert (self : KeyMap α) (key : ℕ) (initial : α) (change : α → α) : KeyMap α :=
  ⟨upsertEntries key initial change self.entries,nodup_upsert self.nodup⟩

lemma get_upsert (self : KeyMap α) (key : ℕ) (initial : α) (change : α → α) (k : ℕ) :
    (self.upsert key initial change).get k
      = if k = key then some (change ((self.get key).getD initial)) else self.get k := by
  have h (entries : List (ℕ × α)) : lookup k (upsertEntries key initial change entries)
      = if k = key then some (change ((lookup key entries).getD initial)) else lookup k entries := by
    induction entries with
    | nil =>
      simp only [upsertEntries, lookup, Option.getD_none]
      exact if_congr eq_comm rfl rfl
    | cons entry entries ih =>
      rw [upsertEntries, lookup, lookup]
      by_cases hentry : entry.1 = key
      · simp only [hentry, if_true, lookup, Option.getD_some]
        by_cases hk : key = k
        · simp [hk]
        · simp [hk, Ne.symm hk]
      · simp only [hentry, if_false, lookup, ih]
        by_cases hk : k = key
        · subst hk
          simp [hentry]
        · simp [hk]
  exact h self.entries

lemma mem_iff_lookup {entries : List (ℕ × α)} (hnodup : (entries.map Prod.fst).Nodup) {key : ℕ}
    {value : α} : (key,value) ∈ entries ↔ lookup key entries = some value := by
  induction entries with
  | nil => simp [lookup]
  | cons entry entries ih =>
    rw [List.map_cons, List.nodup_cons] at hnodup
    rw [List.mem_cons, lookup, ih hnodup.2]
    split_ifs with hkey
    · subst hkey
      constructor
      · rintro (heq | hrest)
        · rw [← heq]
        · exact absurd (List.mem_map_of_mem ((ih hnodup.2).mpr hrest)) hnodup.1
      · intro h
        exact .inl (Prod.ext rfl (Option.some.inj h).symm)
    · constructor
      · rintro (heq | hrest)
        · exact absurd (congrArg Prod.fst heq).symm hkey
        · exact hrest
      · exact .inr

lemma mem_entries {self : KeyMap α} {key : ℕ} {value : α} :
    (key,value) ∈ self.entries ↔ self.get key = some value := mem_iff_lookup self.nodup

lemma lookup_eq_of_mem_iff {entries : List (ℕ × α)} (hnodup : (entries.map Prod.fst).Nodup)
    {key : ℕ} {found : Option α} (h : ∀ value, (key,value) ∈ entries ↔ found = some value) :
    lookup key entries = found :=
  Option.ext fun value => (mem_iff_lookup hnodup).symm.trans (h value)

/-- Changes under distinct keys reach each of them once. -/
lemma get_foldl_upsert {β : Type} (initial : α) (change : β → α → α) {l : List (ℕ × β)}
    (hnodup : (l.map Prod.fst).Nodup) (self : KeyMap α) (k : ℕ) :
    (l.foldl (fun map entry => map.upsert entry.1 initial (change entry.2)) self).get k
      = (lookup k l).elim (self.get k) fun value => some (change value ((self.get k).getD initial)) := by
  induction l generalizing self with
  | nil => rfl
  | cons entry l ih =>
    rw [List.map_cons, List.nodup_cons] at hnodup
    rw [List.foldl_cons, ih hnodup.2, lookup, get_upsert]
    by_cases hk : entry.1 = k
    · have hnone : lookup k l = none := by
        refine Option.eq_none_iff_forall_not_mem.mpr fun value hvalue => hnodup.1 ?_
        exact hk ▸ List.mem_map_of_mem ((mem_iff_lookup hnodup.2).mpr hvalue)
      rw [hnone, if_pos hk, if_pos hk.symm, hk]
      rfl
    · rw [if_neg hk, if_neg (Ne.symm hk)]

lemma nodup_entries (self : KeyMap α) : self.entries.Nodup := List.Nodup.of_map _ self.nodup

end KeyMap

/-- An order in which the entries of maps are visited. -/
structure HashOrder where
  arrange : ∀ {α : Type}, List (ℕ × α) → List (ℕ × α)
  perm : ∀ {α : Type} (entries : List (ℕ × α)), (arrange entries).Perm entries

namespace HashOrder

/-- The order that visits one key first. -/
def first (key : ℕ) : HashOrder where
  arrange entries := entries.filter (fun entry => entry.1 == key)
    ++entries.filter fun entry => !(entry.1 == key)
  perm entries := List.filter_append_perm _ entries

lemma arrange_first {α : Type} {entries : List (ℕ × α)} (hnodup : (entries.map Prod.fst).Nodup)
    {entry : ℕ × α} (hentry : entry ∈ entries) :
    ∃ rest, (first entry.1).arrange entries = entry::rest := by
  have hself : entries.filter (fun e => e.1 == entry.1) = [entry] := by
    induction entries with
    | nil => cases hentry
    | cons head entries ih =>
      rw [List.map_cons, List.nodup_cons] at hnodup
      rcases List.mem_cons.mp hentry with rfl | hmem
      · rw [List.filter_cons_of_pos (by simp)]
        refine congrArg (entry::·) (List.filter_eq_nil_iff.mpr fun e he heq => ?_)
        exact hnodup.1 (beq_iff_eq.mp heq ▸ List.mem_map_of_mem he)
      · have hne : head.1 ≠ entry.1 := fun heq => hnodup.1 (heq ▸ List.mem_map_of_mem hmem)
        rw [List.filter_cons_of_neg (by simpa using hne), ih hnodup.2 hmem]
  exact ⟨_,congrArg (·++entries.filter fun e => !(e.1 == entry.1)) hself⟩

end HashOrder
end MicroExpertRouter
