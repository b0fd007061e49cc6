import MicroExpertRouter.Predictor.FirstOrder
import MicroExpertRouter.Predictor.Rows

/-! The second-order prediction: the first-order one, blended with the row of a pair of experts. -/
namespace MicroExpertRouter.Predictor.PredictiveLoader
variable {P : Type} [LinearOrder P] (p : Probabilities P) (loader : PredictiveLoader)

def pairRow (prevPrev prev : ℕ) : Row := (loader.rows2.get (loader.pairKey prevPrev prev)).getD .new

/-- The first-order probability of an expert that stands before the cut. -/
def likely (row : Row) (id : ℕ) : Option P :=
  match row.counts.get id with
  | some count =>
    if loader.passes p row (id,count) = true
        ∧ StableSort.above Prod.snd (loader.kept p row) (id,count)<loader.fanout then
      some (p.prob count (loader.effectiveTotal row.totalObserved))
    else none
  | none =>
    if id ∈ loader.filling p row then some (p.prob 0 (loader.effectiveTotal row.totalObserved))
    else none

/-- Half of the first-order probability and half of that after the pair. -/
def blended (row row2 : Row) (id : ℕ) : Option P :=
  let first := (loader.likely p row id).map fun prob => p.add p.zero (p.half prob)
  (row2.counts.get id).elim first fun count => some (p.add (first.getD p.zero)
    (p.half (p.prob count (loader.effectiveTotal row2.totalObserved))))

/-- The experts whose blend passes the threshold. -/
def candidates (row row2 : Row) : List (ℕ × P) :=
  ((List.range loader.numExperts).filterMap fun id => (loader.blended p row row2 id).map (id,·)).filter
    fun entry => p.atLeast entry.2

variable {p loader}

lemma likely_of_some {row : Row} {id count : ℕ} (hcount : row.counts.get id = some count) {prob : P} :
    loader.likely p row id = some prob ↔ (loader.passes p row (id,count) = true
      ∧ StableSort.above Prod.snd (loader.kept p row) (id,count)<loader.fanout)
      ∧ p.prob count (loader.effectiveTotal row.totalObserved) = prob := by
  rw [likely, hcount]
  exact Option.ite_none_right_eq_some.trans (and_congr_right fun _ => Option.some_inj)

lemma likely_of_none {row : Row} {id : ℕ} (hcount : row.counts.get id = none) {prob : P} :
    loader.likely p row id = some prob ↔ id ∈ loader.filling p row
      ∧ p.prob 0 (loader.effectiveTotal row.totalObserved) = prob := by
  rw [likely, hcount]
  exact Option.ite_none_right_eq_some.trans (and_congr_right fun _ => Option.some_inj)

section Blend
variable {source : ℕ} (hsource : source<loader.numExperts) (hfanout : 0<loader.fanout)
  (hsound : (loader.row source).Sound loader.numExperts)
  (htie : StableSort.TieFree Prod.snd loader.fanout (loader.kept p (loader.row source)))
include hsource hfanout hsound htie

lemma mem_predictNext_iff {order : HashOrder} {id : ℕ} {prob : P} :
    (id,prob) ∈ loader.predictNext p order source
      ↔ loader.likely p (loader.row source) id = some prob := by
  have hleading (entry : ℕ × ℕ) : entry ∈ loader.leading p (loader.row source) order
      ↔ entry ∈ loader.kept p (loader.row source)
        ∧ StableSort.above Prod.snd (loader.kept p (loader.row source)) entry<loader.fanout := by
    rw [leading, StableSort.mem_take_iff (htie.perm (kept_perm order).symm),
      (kept_perm order).mem_iff, StableSort.above_perm (kept_perm order)]
  rw [predictNext_eq hsource hfanout hsound, List.mem_append, List.mem_map, List.mem_map]
  cases hcount : (loader.row source).counts.get id with
  | some count =>
    have hfill : ¬∃ other ∈ loader.filling p (loader.row source),
        (other,p.prob 0 (loader.effectiveTotal (loader.row source).totalObserved)) = (id,prob) := by
      rintro ⟨other,hother,heq⟩
      have hnone := (mem_unseen.mp (mem_unseen_of_filling hother)).2
      have hid : other = id := congrArg Prod.fst heq
      rw [hid, hcount] at hnone
      cases hnone
    rw [or_iff_left hfill, likely_of_some hcount]
    constructor
    · rintro ⟨entry,hentry,heq⟩
      obtain ⟨hkept,hlt⟩ := (hleading entry).mp hentry
      obtain ⟨hget,hpasses⟩ := mem_kept.mp hkept
      obtain ⟨rfl,rfl⟩ := Prod.mk.inj heq
      rw [hcount] at hget
      obtain rfl := Option.some.inj hget
      exact ⟨⟨hpasses,hlt⟩,rfl⟩
    · rintro ⟨⟨hpasses,hlt⟩,hprob⟩
      exact ⟨(id,count),(hleading _).mpr ⟨mem_kept.mpr ⟨hcount,hpasses⟩,hlt⟩,Prod.ext rfl hprob⟩
  | none =>
    have hlead : ¬∃ entry ∈ loader.leading p (loader.row source) order,
        loader.withProb p (loader.row source) entry = (id,prob) := by
      rintro ⟨entry,hentry,heq⟩
      have hget := (mem_kept.mp (mem_kept_of_leading hentry)).1
      have hid : entry.1 = id := congrArg Prod.fst heq
      rw [hid, hcount] at hget
      cases hget
    rw [or_iff_right hlead, likely_of_none hcount]
    constructor
    · rintro ⟨other,hother,heq⟩
      obtain ⟨rfl,rfl⟩ := Prod.mk.inj heq
      exact ⟨hother,rfl⟩
    · rintro ⟨hfill,hprob⟩
      exact ⟨id,hfill,Prod.ext rfl hprob⟩

lemma get_combined (order order2 : HashOrder) (row2 : Row) (id : ℕ) :
    (loader.combined p order2 (loader.predictNext p order source) row2).get id
      = loader.blended p (loader.row source) row2 id := by
  have hnodup2 : ((order2.arrange row2.counts.entries).map Prod.fst).Nodup :=
    ((order2.perm _).map _).nodup_iff.mpr row2.counts.nodup
  have hrow2 : KeyMap.lookup id (order2.arrange row2.counts.entries) = row2.counts.get id :=
    KeyMap.lookup_eq_of_mem_iff hnodup2 fun count =>
      ((order2.perm _).mem_iff).trans KeyMap.mem_entries
  have hfirst : KeyMap.lookup id (loader.predictNext p order source)
      = loader.likely p (loader.row source) id :=
    KeyMap.lookup_eq_of_mem_iff (nodup_predictNext hsource hfanout hsound order) fun _ =>
      mem_predictNext_iff hsource hfanout hsound htie
  unfold combined blended
  rw [KeyMap.get_foldl_upsert p.zero (fun count prob => p.add prob (p.half (p.prob count _))) hnodup2,
    KeyMap.get_foldl_upsert p.zero (fun prob prob' => p.add prob' (p.half prob))
      (nodup_predictNext hsource hfanout hsound order), hrow2, hfirst]
  cases loader.likely p (loader.row source) id <;> rfl

lemma lt_of_blended {row2 : Row} (hrow2 : row2.InRange loader.numExperts) {id : ℕ} {prob : P}
    (h : loader.blended p (loader.row source) row2 id = some prob) : id<loader.numExperts := by
  by_contra hle
  have hlikely : loader.likely p (loader.row source) id = none := by
    refine Option.eq_none_iff_forall_not_mem.mpr fun prob hprob => hle ?_
    have hmem : (id,prob) ∈ loader.predictNext p (HashOrder.first 0) source :=
      (mem_predictNext_iff hsource hfanout hsound htie).mpr hprob
    exact lt_of_mem_predictNext hsource hfanout hsound (List.mem_map_of_mem hmem)
  rw [blended, hrow2 id (not_lt.mp hle), hlikely] at h
  cases h

/-- The blend has the same entries for all orders. -/
lemma combined_perm {row2 : Row} (hrow2 : row2.InRange loader.numExperts) (order order2 : HashOrder) :
    ((loader.combined p order2 (loader.predictNext p order source) row2).entries.filter
      fun entry => p.atLeast entry.2).Perm (loader.candidates p (loader.row source) row2) := by
  refine List.Perm.filter _ ((List.perm_ext_iff_of_nodup (KeyMap.nodup_entries _) ?_).mpr ?_)
  · refine List.Nodup.filterMap (fun id id' entry hid hid' => ?_) List.nodup_range
    obtain ⟨prob,-,rfl⟩ := Option.map_eq_some_iff.mp hid
    obtain ⟨prob',-,heq⟩ := Option.map_eq_some_iff.mp hid'
    exact (congrArg Prod.fst heq).symm
  · rintro ⟨id,prob⟩
    rw [KeyMap.mem_entries, get_combined hsource hfanout hsound htie, List.mem_filterMap]
    constructor
    · intro h
      exact ⟨id,List.mem_range.mpr (lt_of_blended hsource hfanout hsound htie hrow2 h),by rw [h]; rfl⟩
    · rintro ⟨id',-,h⟩
      obtain ⟨prob',hprob,heq⟩ := Option.map_eq_some_iff.mp h
      obtain ⟨rfl,rfl⟩ := Prod.mk.inj heq
      exact hprob

/-- The second-order prediction is the same for all orders exactly when it falls back, or ties of the
blend stand behind the cut. -/
theorem orderFree_predictNext2_iff {prevPrev : ℕ}
    (hrow2 : (loader.pairRow prevPrev source).InRange loader.numExperts) :
    (∀ order order2 orderCombined order' order2' orderCombined',
      loader.predictNext2 p order order2 orderCombined prevPrev source
        = loader.predictNext2 p order' order2' orderCombined' prevPrev source)
      ↔ loader.numExperts ≤ prevPrev ∨ (loader.pairRow prevPrev source).totalObserved = 0
        ∨ StableSort.TieFree Prod.snd loader.fanout
          (loader.candidates p (loader.row source) (loader.pairRow prevPrev source)) := by
  have hbaseline := (orderFree_predictNext_iff hsource hfanout hsound).mpr htie
  by_cases hfallback : loader.numExperts ≤ prevPrev ∨ (loader.pairRow prevPrev source).totalObserved = 0
  · have heq (order order2 orderCombined : HashOrder) :
        loader.predictNext2 p order order2 orderCombined prevPrev source
          = loader.predictNext p order source := by
      unfold predictNext2
      rcases hfallback with hout | hzero
      · exact if_pos (.inl hout)
      · split_ifs
        · rfl
        · unfold pairRow at hzero
          cases hget : loader.rows2.get (loader.pairKey prevPrev source) with
          | none => rfl
          | some row2 =>
            rw [hget] at hzero
            exact if_pos hzero
    refine iff_of_true (fun _ _ _ _ _ _ => ?_) (hfallback.elim .inl fun h => .inr (.inl h))
    rw [heq, heq]
    exact hbaseline _ _
  · obtain ⟨hin,hobserved⟩ := not_or.mp hfallback
    have hget : loader.rows2.get (loader.pairKey prevPrev source)
        = some (loader.pairRow prevPrev source) := by
      unfold pairRow at hobserved ⊢
      cases hget : loader.rows2.get (loader.pairKey prevPrev source) with
      | none =>
        rw [hget] at hobserved
        exact absurd rfl hobserved
      | some row2 => rfl
    have heq (order order2 orderCombined : HashOrder) :
        loader.predictNext2 p order order2 orderCombined prevPrev source
          = (StableSort.descending Prod.snd ((orderCombined.arrange (loader.combined p order2
            (loader.predictNext p order source) (loader.pairRow prevPrev source)).entries).filter
              fun entry => p.atLeast entry.2)).take loader.fanout := by
      unfold predictNext2
      rw [if_neg (by omega), hget]
      exact if_neg hobserved
    rw [or_iff_right hin, or_iff_right hobserved]
    constructor
    · intro h
      refine StableSort.TieFree.perm ?_ (combined_perm hsource hfanout hsound htie hrow2
        (HashOrder.first 0) (HashOrder.first 0))
      refine StableSort.tieFree_of_take (KeyMap.nodup _) fun order order' => ?_
      rw [← heq, ← heq]
      exact congrArg _ (h ..)
    · intro hties order order2 orderCombined order' order2' orderCombined'
      have hall (order order2 orderCombined : HashOrder) := ((orderCombined.perm _).filter
        fun entry : ℕ × P => p.atLeast entry.2).trans
          (combined_perm hsource hfanout hsound htie hrow2 order order2)
      have hnodup := (hall order order2 orderCombined).nodup_iff.mp
        (((orderCombined.perm _).nodup_iff.mpr (KeyMap.nodup_entries _)).filter _)
      rw [heq, heq, ← StableSort.take_descending_congr hnodup hties (hall _ _ _).symm,
        ← StableSort.take_descending_congr hnodup hties (hall _ _ _).symm]

end Blend
end MicroExpertRouter.Predictor.PredictiveLoader
