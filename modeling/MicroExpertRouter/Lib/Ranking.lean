import Mathlib.Data.List.Sort
import Mathlib.Data.Prod.Lex
import Mathlib.Tactic

/-! The first entries of a list in the order of a key, and a sorted buffer of bounded length that
collects them one entry at a time. -/
namespace MicroExpertRouter.Ranking
variable {α : Type}

section Insertion

/-- Insert before the first entry that the new one precedes, and drop the last entry when the buffer
is too long. -/
def insertBounded (precedes : α → α → Bool) (limit : ℕ) (top : List α) (a : α) : List α :=
  match top.findIdx? (precedes a) with
  | some pos =>
    let top := top.insertIdx pos a
    if limit<top.length then top.dropLast else top
  | none => if top.length<limit then top++[a] else top

variable {precedes : α → α → Bool} {limit : ℕ}

lemma insertIdx_eq {top : List α} {a : α} {pos : ℕ} (h : top.findIdx? (precedes a) = some pos) :
    top.insertIdx pos a = top.orderedInsert (precedes · ·) a := by
  induction top generalizing pos with
  | nil => cases h
  | cons b top ih =>
    rw [List.findIdx?_cons] at h
    by_cases hb : precedes a b = true
    · rw [if_pos hb] at h
      obtain rfl := Option.some.inj h
      rw [List.orderedInsert, if_pos hb]
      rfl
    · rw [if_neg hb] at h
      obtain ⟨rest,hrest,rfl⟩ := Option.map_eq_some_iff.mp h
      rw [List.orderedInsert, if_neg hb, List.insertIdx_succ_cons, ih hrest]

lemma append_eq {top : List α} {a : α} (h : top.findIdx? (precedes a) = none) :
    top++[a] = top.orderedInsert (precedes · ·) a := by
  induction top with
  | nil => rfl
  | cons b top ih =>
    rw [List.findIdx?_cons] at h
    by_cases hb : precedes a b = true
    · rw [if_pos hb] at h
      cases h
    · rw [if_neg hb] at h
      rw [List.orderedInsert, if_neg hb, List.cons_append, ih (Option.map_eq_none_iff.mp h)]

/-- The buffer holds the first entries of the insertion. -/
lemma insertBounded_eq {top : List α} (hlen : top.length ≤ limit) (a : α) :
    insertBounded precedes limit top a = (top.orderedInsert (precedes · ·) a).take limit := by
  have hlong := List.orderedInsert_length (precedes · ·) top a
  unfold insertBounded
  cases h : top.findIdx? (precedes a) with
  | some pos =>
    simp only
    rw [insertIdx_eq h, hlong]
    split_ifs with hfull
    · obtain rfl : top.length = limit := by omega
      rw [List.dropLast_eq_take, hlong, Nat.add_sub_cancel]
    · rw [List.take_of_length_le (by omega)]
  | none =>
    simp only
    rw [← append_eq h]
    split_ifs with hfull
    · rw [List.take_of_length_le (by simp; omega)]
    · obtain rfl : top.length = limit := by omega
      rw [List.take_left' rfl]

/-- A buffer that stores the entries in another form, which the comparison does not tell apart. -/
lemma insertBounded_map {β : Type} {stored : β → β → Bool} (g : α → β) {top : List α} {a : α}
    (h : ∀ b ∈ top, stored (g a) (g b) = precedes a b) (limit : ℕ) :
    insertBounded stored limit (top.map g) (g a) = (insertBounded precedes limit top a).map g := by
  have hfind : (top.map g).findIdx? (stored (g a)) = top.findIdx? (precedes a) := by
    induction top with
    | nil => rfl
    | cons b top ih =>
      obtain ⟨hb,htop⟩ := List.forall_mem_cons.mp h
      rw [List.map_cons, List.findIdx?_cons, List.findIdx?_cons, hb, ih htop]
  unfold insertBounded
  rw [hfind]
  cases top.findIdx? (precedes a) with
  | some pos =>
    simp only
    rw [← List.map_insertIdx, List.length_map]
    split_ifs
    · exact List.map_dropLast.symm
    · rfl
  | none =>
    simp only [List.length_map]
    split_ifs
    · rw [List.map_append, List.map_cons, List.map_nil]
    · rfl

/-- What does not fit the buffer does not matter for the next insertion. -/
lemma take_orderedInsert (a : α) (limit : ℕ) (top : List α) :
    ((top.take limit).orderedInsert (precedes · ·) a).take limit
      = (top.orderedInsert (precedes · ·) a).take limit := by
  induction limit generalizing top with
  | zero => simp
  | succ limit ih =>
    cases top with
    | nil => rfl
    | cons b top =>
      rw [List.take_succ_cons, List.orderedInsert, List.orderedInsert]
      split_ifs with hb
      · rw [List.take_succ_cons, List.take_succ_cons, ← @List.take_succ_cons _ b, List.take_take,
          Nat.min_eq_left (Nat.le_succ limit)]
      · rw [List.take_succ_cons, List.take_succ_cons, ih]

end Insertion

section Ranked
variable {κ : Type} [LinearOrder κ] (key : α → κ)

/-- The entries in the order of their keys. -/
def ranked (l : List α) : List α := l.insertionSort (key · ≤ key ·)

/-- The first entries in the order of their keys. -/
def best (limit : ℕ) (l : List α) : List α := (ranked key l).take limit

lemma ranked_perm (l : List α) : (ranked key l).Perm l := List.perm_insertionSort _ l

lemma ranked_pairwise (l : List α) : (ranked key l).Pairwise (key · ≤ key ·) := by
  have : Std.Total fun a b : α => key a ≤ key b := ⟨fun a b => le_total (key a) (key b)⟩
  have : IsTrans α fun a b => key a ≤ key b := ⟨fun _ _ _ => le_trans⟩
  exact List.pairwise_insertionSort _ l

@[simp] lemma length_ranked (l : List α) : (ranked key l).length = l.length :=
  (ranked_perm key l).length_eq

lemma length_best (limit : ℕ) (l : List α) : (best key limit l).length = min limit l.length := by
  rw [best, List.length_take, length_ranked]

lemma length_best_le (limit : ℕ) (l : List α) : (best key limit l).length ≤ limit := by
  rw [length_best]
  exact Nat.min_le_left _ _

lemma mem_of_mem_best {limit : ℕ} {l : List α} {a : α} (h : a ∈ best key limit l) : a ∈ l :=
  (ranked_perm key l).mem_iff.mp (List.mem_of_mem_take h)

variable {key}

/-- A list is sorted in one way when different entries have different keys. -/
lemma eq_ranked (hkey : Function.Injective key) {l sorted : List α} (hperm : sorted.Perm l)
    (hsorted : sorted.Pairwise (key · ≤ key ·)) : sorted = ranked key l :=
  List.Perm.eq_of_pairwise (fun _ _ _ _ hab hba => hkey (le_antisymm hab hba)) hsorted
    (ranked_pairwise key l) (hperm.trans (ranked_perm key l).symm)

lemma best_congr (hkey : Function.Injective key) {l l' : List α} (h : l.Perm l') (limit : ℕ) :
    best key limit l = best key limit l' := by
  rw [best, eq_ranked hkey ((ranked_perm key l).trans h) (ranked_pairwise key l), best]

/-- What an insertion into a sorted list keeps. -/
lemma orderedInsert_pairwise {precedes : α → α → Bool}
    (hprecedes : ∀ a b, precedes a b = true ↔ key a<key b) (a : α) {l : List α}
    (hl : l.Pairwise (key · ≤ key ·)) :
    (l.orderedInsert (precedes · ·) a).Pairwise (key · ≤ key ·) := by
  induction l with
  | nil => exact List.pairwise_singleton _ a
  | cons b l ih =>
    obtain ⟨hb,hrest⟩ := List.pairwise_cons.mp hl
    rw [List.orderedInsert]
    split_ifs with hab
    · have hlt := (hprecedes a b).mp hab
      refine List.pairwise_cons.mpr ⟨?_,hl⟩
      exact List.forall_mem_cons.mpr ⟨hlt.le,fun c hc => hlt.le.trans (hb c hc)⟩
    · have hle : key b ≤ key a := not_lt.mp fun hlt => hab ((hprecedes a b).mpr hlt)
      refine List.pairwise_cons.mpr ⟨fun c hc => ?_,ih hrest⟩
      rcases List.mem_cons.mp ((List.perm_orderedInsert _ a l).mem_iff.mp hc) with rfl | hmem
      · exact hle
      · exact hb c hmem

section Buffer
variable {precedes : α → α → Bool} (hkey : Function.Injective key)
  (hprecedes : ∀ a b, precedes a b = true ↔ key a<key b)
include hkey hprecedes

/-- One more entry. -/
lemma insertBounded_best (limit : ℕ) (l : List α) (a : α) :
    insertBounded precedes limit (best key limit l) a = best key limit (a::l) := by
  have hsorted := orderedInsert_pairwise hprecedes a (ranked_pairwise key l)
  have hperm : ((ranked key l).orderedInsert (precedes · ·) a).Perm (a::l) :=
    (List.perm_orderedInsert _ a _).trans ((ranked_perm key l).cons a)
  rw [insertBounded_eq (length_best_le key limit l), best, take_orderedInsert,
    eq_ranked hkey hperm hsorted, best]

/-- The buffer after a run of entries, from the first entries of those before. -/
theorem foldl_insertBounded (limit : ℕ) (xs l : List α) :
    xs.foldl (insertBounded precedes limit) (best key limit l) = best key limit (l++xs) := by
  induction xs generalizing l with
  | nil => rw [List.append_nil, List.foldl_nil]
  | cons a xs ih =>
    rw [List.foldl_cons, insertBounded_best hkey hprecedes, ih]
    exact best_congr hkey List.perm_middle.symm limit

/-- A buffer filled from the start. -/
lemma foldl_insertBounded_nil (limit : ℕ) (xs : List α) :
    xs.foldl (insertBounded precedes limit) [] = best key limit xs := by
  have h := foldl_insertBounded hkey hprecedes limit xs []
  rwa [best, ranked, List.insertionSort_nil, List.take_nil, List.nil_append] at h

/-- Merging buffers: the entries that a buffer has dropped do not matter. -/
theorem foldl_insertBounded_best (limit : ℕ) (l l' : List α) :
    (best key limit l').foldl (insertBounded precedes limit) (best key limit l)
      = best key limit (l++l') := by
  have hsorted : (best key limit l').Pairwise (key · ≤ key ·) :=
    (ranked_pairwise key l').sublist (List.take_sublist _ _)
  have hself : best key limit (best key limit l') = best key limit l' := by
    rw [best, ← eq_ranked hkey (List.Perm.refl _) hsorted]
    exact List.take_of_length_le (length_best_le key limit l')
  calc (best key limit l').foldl (insertBounded precedes limit) (best key limit l)
      = best key limit (l++best key limit l') := foldl_insertBounded hkey hprecedes limit _ _
    _ = best key limit (best key limit l'++l) := best_congr hkey List.perm_append_comm limit
    _ = l.foldl (insertBounded precedes limit) (best key limit (best key limit l')) :=
        (foldl_insertBounded hkey hprecedes limit _ _).symm
    _ = best key limit (l'++l) := by rw [hself, foldl_insertBounded hkey hprecedes]
    _ = best key limit (l++l') := best_congr hkey List.perm_append_comm limit

end Buffer

/-- The entry that comes first. -/
def IsFirst (key : α → κ) (a : α) (l : List α) : Prop := a ∈ l ∧ ∀ b ∈ l, key a ≤ key b

lemma IsFirst.unique (hkey : Function.Injective key) {a b : α} {l l' : List α}
    (ha : IsFirst key a l) (hb : IsFirst key b l') (hl : ∀ c, c ∈ l ↔ c ∈ l') : a = b :=
  hkey (le_antisymm (ha.2 b ((hl b).mpr hb.1)) (hb.2 a ((hl a).mp ha.1)))

lemma IsFirst.congr {a : α} {l l' : List α} (ha : IsFirst key a l) (hl : ∀ c, c ∈ l ↔ c ∈ l') :
    IsFirst key a l' :=
  ⟨(hl a).mp ha.1,fun c hc => ha.2 c ((hl c).mpr hc)⟩

/-- An entry stands for the entries it is the first of. -/
lemma IsFirst.trans {a b : α} {l l' : List α} (ha : IsFirst key a (b::l)) (hb : IsFirst key b l') :
    IsFirst key a (l'++l) := by
  refine ⟨?_,fun c hc => ?_⟩
  · rcases List.mem_cons.mp ha.1 with rfl | hmem
    · exact List.mem_append_left _ hb.1
    · exact List.mem_append_right _ hmem
  · rcases List.mem_append.mp hc with hc | hc
    · exact (ha.2 b List.mem_cons_self).trans (hb.2 c hc)
    · exact ha.2 c (List.mem_cons_of_mem _ hc)

/-- The first of two firsts. -/
lemma IsFirst.join {a b c : α} {l l' : List α} (hc : IsFirst key c [a,b]) (ha : IsFirst key a l)
    (hb : IsFirst key b l') : IsFirst key c (l++l') := by
  have h := (hc.trans ha).congr (fun d => (@List.perm_append_comm _ l [b]).mem_iff)
  exact (h.trans hb).congr fun d => (@List.perm_append_comm _ l' l).mem_iff

/-- A scan that keeps the first of its candidate and each entry. -/
lemma isFirst_foldl {step : α → α → α} (hstep : ∀ a b, IsFirst key (step a b) [a,b]) (a : α)
    (l : List α) : IsFirst key (l.foldl step a) (a::l) := by
  induction l generalizing a with
  | nil => exact ⟨List.mem_cons_self,by simp⟩
  | cons b l ih => exact (ih (step a b)).trans (hstep a b)

end Ranked

section Scores
variable {F : Type}

/-- Higher scores come first, and of equal scores the lower id. -/
def scoreKey (entry : ℕ × F) : Lex (Fᵒᵈ × ℕ) := toLex (OrderDual.toDual entry.2,entry.1)

lemma scoreKey_injective : Function.Injective (scoreKey : ℕ × F → Lex (Fᵒᵈ × ℕ)) := by
  rintro ⟨i,s⟩ ⟨j,t⟩ h
  obtain ⟨hs,hi⟩ := Prod.mk.inj (toLex_inj.mp h)
  exact Prod.ext hi (OrderDual.toDual_inj.mp hs)

variable [LinearOrder F]

lemma scoreKey_lt {a b : ℕ × F} :
    scoreKey a<scoreKey b ↔ b.2<a.2 ∨ a.2 = b.2 ∧ a.1<b.1 := by
  unfold scoreKey
  rw [Prod.Lex.toLex_lt_toLex]
  rfl

/-- The comparison by `total_cmp` and id. -/
def scoreIsBetter (candidateScore : F) (candidateId : ℕ) (score : F) (id : ℕ) : Bool :=
  match cmp candidateScore score with
  | .gt => true
  | .eq => decide (candidateId < id)
  | .lt => false

lemma scoreIsBetter_iff (a b : ℕ × F) :
    scoreIsBetter a.2 a.1 b.2 b.1 = true ↔ scoreKey a<scoreKey b := by
  rw [scoreKey_lt, scoreIsBetter]
  rcases lt_trichotomy a.2 b.2 with hlt | heq | hgt
  · rw [(cmp_eq_lt_iff _ _).mpr hlt]
    simp [hlt.not_gt, hlt.ne]
  · rw [(cmp_eq_eq_iff _ _).mpr heq]
    simp [heq]
  · rw [(cmp_eq_gt_iff _ _).mpr hgt]
    simp [hgt]

end Scores
end MicroExpertRouter.Ranking
