import Mathlib.Data.List.Sort
import MicroExpertRouter.Lib.KeyMap

/-! A stable sort by descending score, cut to a length. The result depends on the order of the entries
unless ties stand behind the cut. -/
namespace MicroExpertRouter.StableSort
variable {α β κ : Type} [LinearOrder κ] {score : α → κ}

/-- Entries of equal score keep their order. -/
def descending (score : α → κ) (l : List α) : List α := l.insertionSort fun a b => score b ≤ score a

lemma descending_perm (l : List α) : (descending score l).Perm l := List.perm_insertionSort _ l

lemma descending_pairwise (l : List α) :
    (descending score l).Pairwise fun a b => score b ≤ score a := by
  have : Std.Total fun a b : α => score b ≤ score a := ⟨fun a b => le_total (score b) (score a)⟩
  have : IsTrans α fun a b => score b ≤ score a := ⟨fun _ _ _ hab hbc => hbc.trans hab⟩
  exact List.pairwise_insertionSort _ l

@[simp] lemma length_descending (l : List α) : (descending score l).length = l.length :=
  (descending_perm l).length_eq

/-- A change of the entries that keeps the order of their scores. -/
lemma descending_map {κ' : Type} [LinearOrder κ'] {score' : β → κ'} (f : α → β) {l : List α}
    (h : ∀ a ∈ l, ∀ b ∈ l, score b ≤ score a ↔ score' (f b) ≤ score' (f a)) :
    descending score' (l.map f) = (descending score l).map f :=
  (List.map_insertionSort _ _ f l h).symm

/-- Sorting keeps the order of the entries of one score. -/
lemma filter_descending (k : κ) (l : List α) :
    (descending score l).filter (fun a => decide (score a = k))
      = l.filter fun a => decide (score a = k) := by
  induction l with
  | nil => rfl
  | cons a l ih =>
    have hinsert (m : List α) (hm : m.Pairwise fun a b => score b ≤ score a) :
        (m.orderedInsert (fun a b => score b ≤ score a) a).filter (fun a => decide (score a = k))
          = (a::m).filter fun a => decide (score a = k) := by
      induction m with
      | nil => rfl
      | cons b m ihm =>
        rw [List.orderedInsert]
        split_ifs with hba
        · rfl
        · have hlt := not_le.mp hba
          rw [List.filter_cons, ihm (List.pairwise_cons.mp hm).2, List.filter_cons, List.filter_cons,
            List.filter_cons]
          by_cases hb : score b = k
          · have ha : score a ≠ k := (hb ▸ hlt).ne
            simp [hb, ha]
          · simp [hb]
    change ((descending score l).orderedInsert _ a).filter _ = _
    rw [hinsert _ (descending_pairwise l), List.filter_cons, List.filter_cons, ih]

/-- A sorted list is cut by a score. -/
lemma split_of_pairwise (k : κ) {l : List α} (h : l.Pairwise fun a b => score b ≤ score a) :
    l = l.filter (fun a => decide (k<score a))++l.filter (fun a => decide (score a = k))
      ++l.filter fun a => decide (score a<k) := by
  induction l with
  | nil => rfl
  | cons a l ih =>
    obtain ⟨ha,hl⟩ := List.pairwise_cons.mp h
    have hrest := ih hl
    rcases lt_trichotomy k (score a) with hlt | heq | hgt
    · simp only [List.filter_cons, hlt, hlt.ne', hlt.not_gt, decide_true, decide_false, if_true,
        List.cons_append, Bool.false_eq_true, if_false]
      rw [← hrest]
    · have hnone : l.filter (fun b => decide (k<score b)) = [] :=
        List.filter_eq_nil_iff.mpr fun b hb => by simpa [heq] using ha b hb
      rw [hnone, List.nil_append] at hrest
      simp only [List.filter_cons, ← heq, lt_irrefl, decide_true, decide_false, if_true,
        List.cons_append, Bool.false_eq_true, if_false, hnone, List.nil_append]
      rw [← hrest]
    · have hnone : l.filter (fun b => decide (k<score b)) = [] :=
        List.filter_eq_nil_iff.mpr fun b hb => by simpa using (ha b hb).trans hgt.le
      have htie : l.filter (fun b => decide (score b = k)) = [] :=
        List.filter_eq_nil_iff.mpr fun b hb => by simpa using ((ha b hb).trans_lt hgt).ne
      rw [hnone, htie, List.nil_append] at hrest
      simp only [List.filter_cons, hgt, hgt.ne, hgt.not_gt, decide_true, decide_false, if_true,
        Bool.false_eq_true, if_false, hnone, htie, List.nil_append]
      exact congrArg (a::·) hrest

/-- Entries that come behind all others. -/
lemma descending_append {l t : List α} (hlt : ∀ a ∈ l, ∀ b ∈ t, score b ≤ score a)
    (ht : t.Pairwise fun a b => score b ≤ score a) :
    descending score (l++t) = descending score l++t := by
  induction l with
  | nil => exact List.Pairwise.insertionSort_eq ht
  | cons a l ih =>
    obtain ⟨ha,hl⟩ := List.forall_mem_cons.mp hlt
    have hinsert (m : List α) : (m++t).orderedInsert (fun a b => score b ≤ score a) a
        = m.orderedInsert (fun a b => score b ≤ score a) a++t := by
      induction m with
      | nil =>
        cases t with
        | nil => rfl
        | cons b t =>
          have hb := ha b List.mem_cons_self
          simp [List.orderedInsert, hb]
      | cons b m ihm =>
        rw [List.cons_append, List.orderedInsert, List.orderedInsert]
        split_ifs
        · rfl
        · rw [ihm, List.cons_append]
    rw [List.cons_append, descending, List.insertionSort_cons, ← descending, ih hl, hinsert,
      descending, descending, List.insertionSort_cons]

/-- The number of entries of higher score. -/
def above (score : α → κ) (l : List α) (a : α) : ℕ := (l.filter fun b => decide (score a<score b)).length

/-- Entries of equal score stand behind the cut. -/
def TieFree (score : α → κ) (limit : ℕ) (l : List α) : Prop :=
  ∀ a ∈ l, ∀ b ∈ l, a ≠ b → score a = score b → limit ≤ above score l a

lemma above_perm {l l' : List α} (h : l.Perm l') (a : α) : above score l a = above score l' a :=
  (h.filter _).length_eq

lemma TieFree.perm {limit : ℕ} {l l' : List α} (h : TieFree score limit l) (hperm : l.Perm l') :
    TieFree score limit l' := by
  intro a ha b hb hne heq
  rw [← above_perm hperm]
  exact h a (hperm.mem_iff.mpr ha) b (hperm.mem_iff.mpr hb) hne heq

/-- The first of the entries of one score stands behind those of higher score. -/
lemma getElem?_descending {l rest : List α} {a : α}
    (h : l.filter (fun b => decide (score b = score a)) = a::rest) :
    (descending score l)[above score l a]? = some a := by
  have hlen : ((descending score l).filter fun b => decide (score a<score b)).length
      = above score l a := ((descending_perm l).filter _).length_eq
  rw [split_of_pairwise (score a) (descending_pairwise l), filter_descending, h, List.append_assoc,
    List.getElem?_append_right hlen.le, hlen, Nat.sub_self]
  rfl

lemma above_lt_of_mem_take {limit : ℕ} {l : List α} {a : α} (h : a ∈ (descending score l).take limit) :
    above score l a<limit := by
  have hlen : ((descending score l).filter fun b => decide (score a<score b)).length
      = above score l a := ((descending_perm l).filter _).length_eq
  by_contra hle
  rw [split_of_pairwise (score a) (descending_pairwise l), List.append_assoc,
    List.take_append_of_le_length (by omega)] at h
  have hlt := List.of_mem_filter (List.mem_of_mem_take h)
  simp at hlt

/-- What stands before the cut, when no tie does. -/
lemma mem_take_iff {limit : ℕ} {l : List α} (htie : TieFree score limit l)
    {a : α} : a ∈ (descending score l).take limit ↔ a ∈ l ∧ above score l a<limit := by
  constructor
  · exact fun h => ⟨(descending_perm l).mem_iff.mp (List.mem_of_mem_take h),above_lt_of_mem_take h⟩
  · rintro ⟨ha,hlt⟩
    have hties : ∀ b ∈ l.filter (fun b => decide (score b = score a)), b = a := by
      intro b hb
      obtain ⟨hmem,hscore⟩ := List.mem_filter.mp hb
      by_contra hne
      have := htie a ha b hmem (Ne.symm hne) (of_decide_eq_true hscore).symm
      omega
    obtain ⟨c,rest,hsplit⟩ := List.exists_cons_of_ne_nil (List.ne_nil_of_mem
      (List.mem_filter.mpr ⟨ha,by simp⟩ : a ∈ l.filter fun b => decide (score b = score a)))
    obtain rfl : c = a := hties c (hsplit ▸ List.mem_cons_self)
    have hget := getElem?_descending hsplit
    rw [← List.getElem?_take_of_lt hlt] at hget
    exact List.mem_of_getElem? hget

/-- Without ties before the cut, the order of the entries does not matter. -/
theorem take_descending_congr {limit : ℕ} {l l' : List α} (hnodup : l.Nodup)
    (htie : TieFree score limit l) (hperm : l.Perm l') :
    (descending score l).take limit = (descending score l').take limit := by
  have hnodup' := hperm.nodup_iff.mp hnodup
  have htie' := htie.perm hperm
  have hsame : ((descending score l).take limit).Perm ((descending score l').take limit) := by
    refine (List.perm_ext_iff_of_nodup ?_ ?_).mpr fun a => ?_
    · exact ((descending_perm l).nodup_iff.mpr hnodup).sublist (List.take_sublist _ _)
    · exact ((descending_perm l').nodup_iff.mpr hnodup').sublist (List.take_sublist _ _)
    · rw [mem_take_iff htie, mem_take_iff htie', hperm.mem_iff, above_perm hperm]
  refine List.Perm.eq_of_pairwise (fun a b ha hb hba hab => ?_)
    ((descending_pairwise l).sublist (List.take_sublist _ _))
    ((descending_pairwise l').sublist (List.take_sublist _ _)) hsame
  by_contra hne
  obtain ⟨hmem,hlt⟩ := (mem_take_iff htie).mp ha
  obtain ⟨hmem',-⟩ := (mem_take_iff htie').mp hb
  have := htie a hmem b (hperm.mem_iff.mpr hmem') hne (le_antisymm hab hba)
  omega

/-- What is cut off does not score higher than what stays. -/
lemma le_of_not_mem_take {limit : ℕ} {l : List α} {a b : α} (ha : a ∈ l)
    (hcut : a ∉ (descending score l).take limit) (hb : b ∈ (descending score l).take limit) :
    score a ≤ score b := by
  have hsorted : (descending score l).Pairwise _ := descending_pairwise l
  rw [← List.take_append_drop limit (descending score l), List.pairwise_append] at hsorted
  have hmem : a ∈ descending score l := (descending_perm l).mem_iff.mpr ha
  rw [← List.take_append_drop limit (descending score l), List.mem_append] at hmem
  exact hsorted.2.2 b hb a (hmem.resolve_left hcut)

section Orders
variable {score : ℕ × α → κ} {limit : ℕ} {entries : List (ℕ × α)} {keep : ℕ × α → Bool}

/-- The order that visits an entry first puts it before all entries of its score. -/
lemma getElem?_first (hnodup : (entries.map Prod.fst).Nodup) {a : ℕ × α}
    (ha : a ∈ entries.filter keep) (hlt : above score (entries.filter keep) a<limit) :
    ((descending score (((HashOrder.first a.1).arrange entries).filter keep)).take
      limit)[above score (entries.filter keep) a]? = some a := by
  obtain ⟨hmem,hkeep⟩ := List.mem_filter.mp ha
  obtain ⟨rest,hfirst⟩ := HashOrder.arrange_first hnodup hmem
  have habove : above score (((HashOrder.first a.1).arrange entries).filter keep) a
      = above score (entries.filter keep) a :=
    above_perm (((HashOrder.first a.1).perm _).filter keep) a
  rw [List.getElem?_take_of_lt hlt, ← habove]
  have hties : (((HashOrder.first a.1).arrange entries).filter keep).filter
      (fun b => decide (score b = score a))
        = a::(rest.filter keep).filter fun b => decide (score b = score a) := by
    rw [hfirst, List.filter_cons_of_pos hkeep, List.filter_cons_of_pos (by simp)]
  exact getElem?_descending hties

/-- A result that is the same for all orders has its ties behind the cut. -/
theorem tieFree_of_take (hnodup : (entries.map Prod.fst).Nodup)
    (h : ∀ order order' : HashOrder,
      ((descending score ((order.arrange entries).filter keep)).take limit).map Prod.fst
        = ((descending score ((order'.arrange entries).filter keep)).take limit).map Prod.fst) :
    TieFree score limit (entries.filter keep) := by
  intro a ha b hb hne heq
  by_contra hle
  have hlt := Nat.not_le.mp hle
  have habove : above score (entries.filter keep) a = above score (entries.filter keep) b := by
    simp only [above, heq]
  have hfirst := getElem?_first hnodup ha hlt
  have hsecond := getElem?_first hnodup hb (habove ▸ hlt)
  have hids := congrArg (·[above score (entries.filter keep) a]?)
    (h (HashOrder.first a.1) (HashOrder.first b.1))
  simp only [List.getElem?_map, hfirst] at hids
  rw [habove, hsecond] at hids
  have hkey : a.1 = b.1 := by simpa using hids
  exact hne (List.inj_on_of_nodup_map hnodup (List.mem_of_mem_filter ha)
    (List.mem_of_mem_filter hb) hkey)

end Orders
end MicroExpertRouter.StableSort
