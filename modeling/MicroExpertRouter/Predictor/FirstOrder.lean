import MicroExpertRouter.Predictor.Loader

/-! The first-order prediction: the successors that pass the threshold by descending count, and
behind them the first unseen ones. -/
namespace MicroExpertRouter.Predictor

/-- Its successors are experts, observed and not beyond saturation. -/
def Row.Sound (numExperts : ℕ) (row : Row) : Prop :=
  ∀ id count, row.counts.get id = some count → id<numExperts ∧ 0<count ∧ count ≤ u32Max

section Probability
variable {P : Type} [LinearOrder P] (p : Probabilities P)

lemma Probabilities.prob_le_iff {a b total : ℕ} (ha : a ≤ u32Max) (hb : b ≤ u32Max)
    (htotal : 0<total) : p.prob a total ≤ p.prob b total ↔ a ≤ b := by
  refine ⟨fun h => ?_,fun h => ?_⟩
  · by_contra hlt
    exact h.not_gt (p.prob_lt (not_le.mp hlt) ha htotal)
  · rcases h.lt_or_eq with hlt | heq
    · exact (p.prob_lt hlt hb htotal).le
    · rw [heq]

end Probability

namespace PredictiveLoader

/-- The experts that were not observed. -/
def unseen (loader : PredictiveLoader) (row : Row) : List ℕ :=
  (List.range loader.numExperts).filter fun id => !(row.counts.get id).isSome

lemma topUp_eq {P : Type} {loader : PredictiveLoader} {row : Row} (priorP : P) (probs : List (ℕ × P)) :
    loader.topUp row priorP probs
      = probs++((loader.unseen row).take (loader.fanout-probs.length)).map (·,priorP) := by
  unfold topUp unseen
  induction List.range loader.numExperts generalizing probs with
  | nil => simp
  | cons id ids ih =>
    rw [List.foldl_cons, ih]
    by_cases hfull : loader.fanout ≤ probs.length
    · simp [hfull]
    · rw [if_neg hfull]
      by_cases hseen : (row.counts.get id).isSome
      · rw [if_pos hseen, List.filter_cons_of_neg (by simp [hseen])]
      · have hroom : loader.fanout-probs.length = loader.fanout-(probs.length+1)+1 := by omega
        rw [if_neg hseen, List.filter_cons_of_pos (by simp [hseen]), hroom, List.take_succ_cons]
        simp

variable {P : Type} [LinearOrder P] (p : Probabilities P) (loader : PredictiveLoader) (row : Row)

/-- The count passes the threshold. -/
def passes (entry : ℕ × ℕ) : Bool :=
  p.atLeast (p.prob entry.2 (loader.effectiveTotal row.totalObserved))

/-- The successors that pass the threshold. -/
def kept : List (ℕ × ℕ) := row.counts.entries.filter (loader.passes p row)

/-- The unseen experts there is room for. -/
def filling : List ℕ := (loader.unseen row).take (loader.fanout-(loader.kept p row).length)

/-- The kept successors before the cut. -/
def leading (order : HashOrder) : List (ℕ × ℕ) :=
  (StableSort.descending Prod.snd ((order.arrange row.counts.entries).filter
    (loader.passes p row))).take loader.fanout

/-- An entry with its probability. -/
def withProb (entry : ℕ × ℕ) : ℕ × P :=
  (entry.1,p.prob entry.2 (loader.effectiveTotal row.totalObserved))

variable {p loader row}

lemma kept_perm (order : HashOrder) :
    ((order.arrange row.counts.entries).filter (loader.passes p row)).Perm (loader.kept p row) :=
  (order.perm _).filter _

lemma mem_kept {entry : ℕ × ℕ} : entry ∈ loader.kept p row
    ↔ row.counts.get entry.1 = some entry.2 ∧ loader.passes p row entry = true := by
  rw [kept, List.mem_filter, ← KeyMap.mem_entries]

lemma nodup_keys_kept : ((loader.kept p row).map Prod.fst).Nodup :=
  row.counts.nodup.sublist (List.filter_sublist.map _)

lemma mem_unseen {id : ℕ} :
    id ∈ loader.unseen row ↔ id<loader.numExperts ∧ row.counts.get id = none := by
  rw [unseen, List.mem_filter, List.mem_range]
  simp

lemma mem_kept_of_leading {order : HashOrder} {entry : ℕ × ℕ} (h : entry ∈ loader.leading p row order) :
    entry ∈ loader.kept p row :=
  (kept_perm order).mem_iff.mp ((StableSort.descending_perm _).mem_iff.mp (List.mem_of_mem_take h))

lemma mem_unseen_of_filling {id : ℕ} (h : id ∈ loader.filling p row) : id ∈ loader.unseen row :=
  List.mem_of_mem_take h

/-- With room left, all that pass the threshold stand before the cut. -/
lemma mem_leading_of_room {order : HashOrder} (hroom : (loader.kept p row).length ≤ loader.fanout)
    {entry : ℕ × ℕ} (h : entry ∈ loader.kept p row) : entry ∈ loader.leading p row order := by
  rw [leading, List.take_of_length_le (by
    rw [StableSort.length_descending, (kept_perm order).length_eq]
    exact hroom)]
  exact (StableSort.descending_perm _).mem_iff.mpr ((kept_perm order).mem_iff.mpr h)

/-- The kept successors by descending count, then the filling. -/
theorem predictNext_eq {source : ℕ} (hsource : source<loader.numExperts) (hfanout : 0<loader.fanout)
    (hsound : (loader.row source).Sound loader.numExperts) (order : HashOrder) :
    loader.predictNext p order source
    = (loader.leading p (loader.row source) order).map (loader.withProb p (loader.row source))
      ++(loader.filling p (loader.row source)).map
        (·,p.prob 0 (loader.effectiveTotal (loader.row source).totalObserved)) := by
  have htotal : 0<loader.effectiveTotal (loader.row source).totalObserved := by
    unfold effectiveTotal
    omega
  set row := loader.row source with hrow
  set total := loader.effectiveTotal row.totalObserved with htotaldef
  have hcount {entry : ℕ × ℕ} (h : entry ∈ (order.arrange row.counts.entries).filter
      (loader.passes p row)) : entry.2 ≤ u32Max :=
    (hsound _ _ (mem_kept.mp ((kept_perm order).mem_iff.mp h)).1).2.2
  have hfilter : ((order.arrange row.counts.entries).map fun entry =>
      (entry.1,p.prob entry.2 total)).filter (fun entry => p.atLeast entry.2)
        = ((order.arrange row.counts.entries).filter (loader.passes p row)).map
          (loader.withProb p row) := List.filter_map ..
  have hdescending : StableSort.descending Prod.snd (((order.arrange row.counts.entries).filter
      (loader.passes p row)).map (loader.withProb p row))
        = (StableSort.descending Prod.snd ((order.arrange row.counts.entries).filter
          (loader.passes p row))).map (loader.withProb p row) :=
    StableSort.descending_map _ fun a ha b hb =>
      (p.prob_le_iff (hcount hb) (hcount ha) htotal).symm
  unfold predictNext
  rw [if_neg (not_or.mpr ⟨not_le.mpr hsource,hfanout.ne'⟩), if_neg htotal.ne']
  simp only [← hrow, ← htotaldef, hfilter, List.length_map, (kept_perm order).length_eq]
  split_ifs with hroom
  · rw [topUp_eq, List.length_map, (kept_perm order).length_eq, ← filling,
      StableSort.descending_append ?behind ?ties, hdescending, List.take_of_length_le ?fits, leading,
      List.take_of_length_le ?all]
    case behind =>
      intro a ha b hb
      obtain ⟨entry,hentry,rfl⟩ := List.mem_map.mp ha
      obtain ⟨id,-,rfl⟩ := List.mem_map.mp hb
      exact (p.prob_le_iff (Nat.zero_le _) (hcount hentry) htotal).mpr (Nat.zero_le _)
    case ties =>
      exact List.pairwise_map.mpr (List.pairwise_of_forall fun _ _ => le_rfl)
    case fits =>
      simp only [List.length_append, List.length_map, StableSort.length_descending,
        (kept_perm order).length_eq, filling, List.length_take]
      omega
    case all =>
      rw [StableSort.length_descending, (kept_perm order).length_eq]
      exact hroom.le
  · have hnone : loader.filling p row = [] := by
      rw [filling, Nat.sub_eq_zero_of_le (not_lt.mp hroom), List.take_zero]
    rw [hdescending, hnone, List.map_nil, List.append_nil, leading, List.map_take]

/-- What is not before the cut has no larger count than what is. -/
lemma count_missing_le {source : ℕ} (hsource : source<loader.numExperts)
    (hsound : (loader.row source).Sound loader.numExperts) {order : HashOrder} {missing : ℕ}
    (hmissing : missing ∉ (loader.leading p (loader.row source) order).map Prod.fst) {entry : ℕ × ℕ}
    (hentry : entry ∈ loader.leading p (loader.row source) order) :
    ((loader.row source).counts.get missing).getD 0 ≤ entry.2 := by
  cases hcount : (loader.row source).counts.get missing with
  | none => exact Nat.zero_le _
  | some count =>
    have hpasses := (mem_kept.mp (mem_kept_of_leading hentry)).2
    have htotal : 0<loader.effectiveTotal (loader.row source).totalObserved :=
      Nat.add_pos_right _ (by omega)
    by_contra hlt
    have hmore : entry.2<count := not_le.mp hlt
    have hkept : (missing,count) ∈ loader.kept p (loader.row source) := mem_kept.mpr
      ⟨hcount,p.atLeast_mono hmore.le (hsound _ _ hcount).2.2 htotal hpasses⟩
    exact hlt (StableSort.le_of_not_mem_take ((kept_perm order).mem_iff.mpr hkept)
      (fun hmem => hmissing (List.mem_map_of_mem hmem)) hentry)

section Result
variable {source : ℕ} (hsource : source<loader.numExperts) (hfanout : 0<loader.fanout)
  (hsound : (loader.row source).Sound loader.numExperts)
include hsource hfanout hsound

lemma ids_predictNext (order : HashOrder) : (loader.predictNext p order source).map Prod.fst
    = (loader.leading p (loader.row source) order).map Prod.fst
      ++loader.filling p (loader.row source) := by
  rw [predictNext_eq hsource hfanout hsound, List.map_append, List.map_map, List.map_map]
  exact congrArg₂ (·++·) rfl (List.map_id _)

theorem length_predictNext_le (order : HashOrder) :
    (loader.predictNext p order source).length ≤ loader.fanout := by
  rw [predictNext_eq hsource hfanout hsound, List.length_append, List.length_map, List.length_map,
    leading, List.length_take, StableSort.length_descending, (kept_perm order).length_eq, filling,
    List.length_take]
  omega

theorem nodup_predictNext (order : HashOrder) :
    ((loader.predictNext p order source).map Prod.fst).Nodup := by
  rw [ids_predictNext hsource hfanout hsound]
  refine List.nodup_append.mpr ⟨?_,?_,fun id hid id' hid' heq => ?_⟩
  · refine List.Nodup.sublist ((List.take_sublist _ _).map _) ?_
    exact (((StableSort.descending_perm _).trans (kept_perm order)).map _).nodup_iff.mpr nodup_keys_kept
  · exact (List.nodup_range.filter _).sublist (List.take_sublist _ _)
  · obtain ⟨entry,hentry,rfl⟩ := List.mem_map.mp hid
    have hsome := (mem_kept.mp (mem_kept_of_leading hentry)).1
    rw [heq, (mem_unseen.mp (mem_unseen_of_filling hid')).2] at hsome
    cases hsome

theorem lt_of_mem_predictNext {order : HashOrder} {id : ℕ}
    (h : id ∈ (loader.predictNext p order source).map Prod.fst) : id<loader.numExperts := by
  rw [ids_predictNext hsource hfanout hsound] at h
  rcases List.mem_append.mp h with hlead | hfill
  · obtain ⟨entry,hentry,rfl⟩ := List.mem_map.mp hlead
    exact (hsound _ _ (mem_kept.mp (mem_kept_of_leading hentry)).1).1
  · exact (mem_unseen.mp (mem_unseen_of_filling hfill)).1

/-- The prediction is the same for all orders exactly when ties stand behind the cut. -/
theorem orderFree_predictNext_iff :
    (∀ order order', loader.predictNext p order source = loader.predictNext p order' source)
      ↔ StableSort.TieFree Prod.snd loader.fanout (loader.kept p (loader.row source)) := by
  constructor
  · intro h
    refine StableSort.tieFree_of_take (loader.row source).counts.nodup fun order order' => ?_
    have hids := congrArg (List.map Prod.fst) (h order order')
    rw [ids_predictNext hsource hfanout hsound, ids_predictNext hsource hfanout hsound] at hids
    exact List.append_cancel_right hids
  · intro htie order order'
    have hleading (order : HashOrder) : loader.leading p (loader.row source) order
        = (StableSort.descending Prod.snd (loader.kept p (loader.row source))).take loader.fanout :=
      (StableSort.take_descending_congr (List.Nodup.of_map _ nodup_keys_kept) htie
        (kept_perm order).symm).symm
    rw [predictNext_eq hsource hfanout hsound, predictNext_eq hsource hfanout hsound, hleading,
      hleading]

/-- No missing expert has a larger count exactly when nothing unseen stands in the place of an
observed successor below the threshold. -/
theorem missing_le_iff :
    (∀ order, ∀ missing<loader.numExperts,
      missing ∉ (loader.predictNext p order source).map Prod.fst →
      ∀ id ∈ (loader.predictNext p order source).map Prod.fst,
        ((loader.row source).counts.get missing).getD 0 ≤ ((loader.row source).counts.get id).getD 0)
      ↔ loader.filling p (loader.row source) = []
        ∨ ∀ entry ∈ (loader.row source).counts.entries, loader.passes p (loader.row source) entry := by
  set row := loader.row source
  constructor
  · intro h
    by_contra hnot
    obtain ⟨hfilling,hall⟩ := not_or.mp hnot
    push Not at hall
    obtain ⟨entry,hentry,hbelow⟩ := hall
    obtain ⟨id,hid⟩ := List.exists_mem_of_ne_nil _ hfilling
    have hget := KeyMap.mem_entries.mp hentry
    have hids := ids_predictNext (p := p) hsource hfanout hsound (HashOrder.first 0)
    have hmissing : entry.1 ∉ (loader.predictNext p (HashOrder.first 0) source).map Prod.fst := by
      rw [hids]
      intro hmem
      rcases List.mem_append.mp hmem with hlead | hfill
      · obtain ⟨other,hother,heq⟩ := List.mem_map.mp hlead
        obtain ⟨hsame,hpasses⟩ := mem_kept.mp (mem_kept_of_leading hother)
        rw [heq, hget] at hsame
        exact hbelow ((Prod.ext heq (Option.some.inj hsame).symm : other = entry) ▸ hpasses)
      · have hnone := (mem_unseen.mp (mem_unseen_of_filling hfill)).2
        rw [hget] at hnone
        cases hnone
    have hle := h (HashOrder.first 0) entry.1 (hsound _ _ hget).1 hmissing id
      (hids ▸ List.mem_append_right _ hid)
    rw [hget, (mem_unseen.mp (mem_unseen_of_filling hid)).2] at hle
    exact (hsound _ _ hget).2.1.not_ge hle
  · intro h order missing hlt hmissing id hid
    rw [ids_predictNext hsource hfanout hsound] at hmissing hid
    rw [List.mem_append, not_or] at hmissing
    rcases List.mem_append.mp hid with hlead | hfill
    · obtain ⟨entry,hentry,rfl⟩ := List.mem_map.mp hlead
      rw [(mem_kept.mp (mem_kept_of_leading hentry)).1]
      exact count_missing_le hsource hsound hmissing.1 hentry
    · -- what is unseen fills the list only behind all that pass the threshold
      have hall := h.resolve_left (List.ne_nil_of_mem hfill)
      cases hcount : row.counts.get missing with
      | none => exact Nat.zero_le _
      | some count =>
        have hroom : (loader.kept p row).length ≤ loader.fanout := by
          by_contra hfull
          rw [filling, Nat.sub_eq_zero_of_le (not_le.mp hfull).le, List.take_zero] at hfill
          cases hfill
        have hkept : (missing,count) ∈ loader.kept p row :=
          mem_kept.mpr ⟨hcount,hall _ (KeyMap.mem_entries.mpr hcount)⟩
        exact absurd (List.mem_map_of_mem (mem_leading_of_room hroom hkept)) hmissing.1

end Result
end PredictiveLoader
end MicroExpertRouter.Predictor
