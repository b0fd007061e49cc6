import MicroExpertRouter.Gating.Routing

/-! The two loops of the gate, and the decision they lead to. -/
namespace MicroExpertRouter.Gating
open DenseTensor (DenseWeight readSlice q8_0BlockElems)
open Ranking (best scoreKey scoreKey_injective scoreIsBetter_iff)

section Loops
variable {F : Type} [LinearOrder F] {f : Floats F} {gate : LinearGate F}

lemma insertTopGroup_best {limit : ℕ} (entries : List (ℕ × F)) (group : ℕ) (score : F) :
    insertTopGroup limit (best scoreKey limit entries) group score
      = best scoreKey limit ((group,score)::entries) := by
  unfold insertTopGroup
  split_ifs with hlimit
  · rw [hlimit, best, best, List.take_zero, List.take_zero]
  · exact Ranking.insertBounded_best scoreKey_injective scoreIsBetter_iff limit entries _

/-- The form in which a chosen expert is stored. -/
def stored (entry : ℕ × F) : ℕ × F := (entry.1 % 2^32,entry.2)

/-- Later experts lose ties against all before them, stored in full or not. -/
lemma scoreIdIsBetter_stored {expert : ℕ} {score : F} {entry : ℕ × F} (h : entry.1<expert) :
    scoreIdIsBetter score expert (stored entry).2 (stored entry).1
      = scoreIdIsBetter score expert entry.2 entry.1 := by
  have hmod : entry.1 % 2^32 ≤ entry.1 := Nat.mod_le _ _
  refine Bool.eq_iff_iff.mpr (((scoreIsBetter_iff (expert,score) (stored entry)).trans ?_).trans
    (scoreIsBetter_iff (expert,score) entry).symm)
  rw [Ranking.scoreKey_lt, Ranking.scoreKey_lt]
  refine or_congr Iff.rfl (and_congr Iff.rfl ?_)
  change expert<entry.1 % 2^32 ↔ expert<entry.1
  omega

lemma insertTopExpert_best {limit : ℕ} {entries : List (ℕ × F)} {expert : ℕ} {score : F}
    (hlimit : 0<limit) (hbefore : ∀ entry ∈ entries, entry.1<expert)
    (hfinite : f.isFinite score = true) :
    insertTopExpert f limit ((best scoreKey limit entries).map stored) expert score
      = (best scoreKey limit (entries++[(expert,score)])).map stored := by
  have hcongr := Ranking.best_congr scoreKey_injective
    (@List.perm_append_comm _ entries [(expert,score)]) limit
  have hinsert := @Ranking.insertBounded_map _ (fun a b => scoreIdIsBetter a.2 a.1 b.2 b.1) _
    (fun _ entry => scoreIdIsBetter score expert entry.2 entry.1) stored (best scoreKey limit entries)
    (expert,score) (fun entry hentry =>
      scoreIdIsBetter_stored (hbefore entry (Ranking.mem_of_mem_best _ hentry))) limit
  unfold insertTopExpert
  rw [if_neg (by rw [hfinite]; simp; omega), hcongr]
  exact hinsert.trans (congrArg (List.map stored)
    (Ranking.insertBounded_best scoreKey_injective scoreIsBetter_iff limit entries _))

namespace LinearGate

lemma groupFilterShape_spec {F : Type} {gate : LinearGate F} {nGroup groupSize : ℕ}
    (h : gate.groupFilterShape = some (nGroup,groupSize)) :
    nGroup*groupSize = gate.numExperts := by
  unfold groupFilterShape at h
  dsimp only at h
  split_ifs at h with hshape
  obtain ⟨rfl,rfl⟩ := Prod.mk.inj (Option.some.inj h)
  exact Nat.mul_div_cancel' (Nat.dvd_of_mod_eq_zero (by omega))

/-- The loop over the groups keeps the best of those so far. -/
lemma foldlM_groups [Zero F] [Add F] {selection : List F} {nGroup groupSize limit : ℕ}
    (hlen : nGroup*groupSize ≤ selection.length) {count : ℕ} (hcount : count ≤ nGroup) :
    (List.range count).foldlM (fun groups g => do
        let slice ← readSlice selection (g*groupSize) groupSize
        return insertTopGroup limit groups g (groupScore f slice)) []
      = some (best scoreKey limit ((List.range count).map fun g =>
        (g,groupScore f (Slab.read selection (g*groupSize) groupSize)))) := by
  induction count with
  | zero => exact congrArg some List.take_nil.symm
  | succ count ih =>
    have hfits : count*groupSize+groupSize ≤ selection.length := by
      rw [← Nat.succ_mul]
      exact (Nat.mul_le_mul_right _ hcount).trans hlen
    rw [List.range_succ, List.foldlM_append, ih (by omega), List.map_append]
    simp only [List.foldlM_cons, List.foldlM_nil, Option.bind_eq_bind, Option.bind_some, readSlice,
      if_pos hfits, insertTopGroup_best]
    exact congrArg some (Ranking.best_congr scoreKey_injective
      (@List.perm_append_comm _ [_] _) limit)

/-- Whether the loop over the experts leaves one out. -/
lemma selectTopGroups_eq [Zero F] [Add F] {selection : List F}
    (hlen : selection.length = gate.numExperts) :
    ∃ groupSize groups, gate.selectTopGroups f selection [] = some (groupSize,groups) ∧
      ∀ expert, (groupSize.any fun groupSize => !expertGroupAllowed expert groupSize groups)
        = !gate.allowed f selection expert := by
  unfold selectTopGroups allowed
  cases hshape : gate.groupFilterShape with
  | none => exact ⟨none,[],rfl,fun _ => rfl⟩
  | some shape =>
    obtain ⟨nGroup,groupSize⟩ := shape
    have hgroups := @foldlM_groups F _ f _ _ selection nGroup groupSize gate.topkGroup
      (by rw [hlen, groupFilterShape_spec hshape]) nGroup le_rfl
    refine ⟨some groupSize,gate.allowedGroups f selection nGroup groupSize,?_,fun _ => rfl⟩
    dsimp only
    rw [hgroups]
    rfl

lemma candidates_before [Zero F] [Add F] {selection : List F} {count : ℕ} {entry : ℕ × F}
    (h : entry ∈ gate.candidates f selection count) : entry.1<count := by
  obtain ⟨e,he,rfl⟩ := List.mem_map.mp h
  exact List.mem_range.mp (List.mem_of_mem_filter he)

/-- The loop over the experts keeps the best candidates so far. -/
lemma foldlM_experts [Zero F] [Add F] {selection : List F}
    (hlen : selection.length = gate.numExperts) {groupSize : Option ℕ} {groups : List (ℕ × F)}
    (hallowed : ∀ expert, (groupSize.any fun groupSize => !expertGroupAllowed expert groupSize groups)
      = !gate.allowed f selection expert) {count : ℕ} (hcount : count ≤ gate.numExperts) :
    (List.range count).foldlM (fun topExperts expert =>
        if groupSize.any fun groupSize => !expertGroupAllowed expert groupSize groups then
          some topExperts
        else do
          let score ← selection[expert]?
          return insertTopExpert f gate.topK topExperts expert score) []
      = some ((best scoreKey gate.topK (gate.candidates f selection count)).map stored) := by
  induction count with
  | zero => exact congrArg some (congrArg (List.map stored) List.take_nil.symm)
  | succ count ih =>
    have hlt : count<selection.length := by omega
    have hget : selection[count]? = some selection[count] := List.getElem?_eq_getElem hlt
    have hgetD : selection.getD count 0 = selection[count] := by simp [List.getD, hget]
    have hsplit : gate.candidates f selection (count+1) = gate.candidates f selection count++
        ([count].filter fun e => gate.allowed f selection e && f.isFinite (selection.getD e 0)).map
          fun e => (e,selection.getD e 0) := by
      rw [candidates, candidates, List.range_succ, List.filter_append, List.map_append]
    rw [List.range_succ, List.foldlM_append, ih (by omega), hsplit]
    simp only [List.foldlM_cons, List.foldlM_nil, Option.bind_eq_bind, Option.bind_some, hallowed, hget,
      List.filter_singleton, hgetD]
    cases hall : gate.allowed f selection count with
    | false => simp
    | true =>
      cases hfinite : f.isFinite selection[count] with
      | false => simp [insertTopExpert, hfinite]
      | true =>
        have hinsert := insertTopExpert_best gate.topK_pos
          (fun entry hentry => @candidates_before F _ f gate _ _ selection count entry hentry) hfinite
        simpa [hget] using hinsert

/-- The chosen experts are distinct experts of the gate. -/
lemma chosen_spec [Zero F] [Add F] (scores : List F) :
    (gate.chosen f scores).Nodup ∧ ∀ e ∈ gate.chosen f scores, e<gate.numExperts := by
  constructor
  · have hnodup : ((gate.candidates f (gate.selection scores) gate.numExperts).map Prod.fst).Nodup := by
      rw [candidates, List.map_map]
      exact (List.nodup_range.filter _).map_on fun _ _ _ _ h => h
    have hranked := ((Ranking.ranked_perm scoreKey _).map Prod.fst).nodup_iff.mpr hnodup
    exact hranked.sublist ((List.take_sublist _ _).map _)
  · intro e he
    obtain ⟨entry,hentry,rfl⟩ := List.mem_map.mp he
    exact candidates_before (Ranking.mem_of_mem_best _ hentry)

end LinearGate
end Loops

namespace LinearGate
variable {F : Type} [LinearOrder F] [Zero F] [Add F] [Mul F] {f : Floats F} {gate : LinearGate F}
  {decode : List UInt8 → Vector F q8_0BlockElems} {matmul : List F → List F → ℕ → ℕ → ℕ → F}

/-- The decision depends on the scores of the input only. -/
lemma routeWithScratch_eq (x : List F) (scratch : RoutingScratch F) :
    (gate.routeWithScratch f decode matmul x scratch).map Prod.fst =
      (gate.scores f decode matmul x).map fun scores =>
        gate.decision f scores ((gate.chosen f scores).map (· % 2^32)) := by
  have hrows : (scratch.resizeFor gate.numExperts).logits.length = gate.weights.rows := by
    rw [gate.rows_eq]
    exact length_resize _ _ _
  unfold routeWithScratch
  simp only [matvecInto_eq hrows]
  cases hlogits : gate.weights.matvec decode matmul x with
  | none => simp [scores, hlogits]
  | some logits =>
    have hscores : gate.scores f decode matmul x = some (gate.score f logits) := by
      rw [scores, hlogits, Option.map_some]
    have hlen := length_scores hscores
    have hselection := selectionScores_eq (length_resize scratch.selection gate.numExperts 0) hlen
    obtain ⟨groupSize,groups,hgroups,hallowed⟩ := @selectTopGroups_eq F _ f gate _ _
      (gate.selection (gate.score f logits)) (length_selection hlen)
    have hexperts : gate.selectTopExperts f (gate.selection (gate.score f logits)) groupSize groups []
        = some ((best scoreKey gate.topK (gate.candidates f (gate.selection (gate.score f logits))
          gate.numExperts)).map stored) := foldlM_experts (length_selection hlen) hallowed le_rfl
    have hids : ((best scoreKey gate.topK (gate.candidates f (gate.selection (gate.score f logits))
        gate.numExperts)).map stored).map Prod.fst
          = (gate.chosen f (gate.score f logits)).map (· % 2^32) := by
      rw [chosen, List.map_map, List.map_map]
      rfl
    have hweights : ((gate.chosen f (gate.score f logits)).map (· % 2^32)).mapM
        (fun expert => (gate.score f logits)[expert]?)
          = some (((gate.chosen f (gate.score f logits)).map (· % 2^32)).map
            fun e => (gate.score f logits).getD e 0) := by
      refine mapM_eq_some fun e he => ?_
      obtain ⟨expert,hexpert,rfl⟩ := List.mem_map.mp he
      obtain ⟨entry,hentry,rfl⟩ := List.mem_map.mp hexpert
      have hlt := candidates_before (Ranking.mem_of_mem_best _ hentry)
      have hmod : entry.1 % 2^32 ≤ entry.1 := Nat.mod_le _ _
      have hget : (gate.score f logits)[entry.1 % 2^32]? = some (gate.score f logits)[entry.1 % 2^32] :=
        List.getElem?_eq_getElem (by omega)
      simp only [List.getD, hget, Option.getD_some]
    simp only [Option.bind_eq_bind, Option.bind_some, RoutingScratch.resizeFor,
      hselection, hgroups, hexperts, hids, hweights, hscores, Option.map_some]
    rfl

/-- Whatever the buffers held, routing chooses what sorting would: of the finite-scored experts of
the allowed groups the first by descending score and ascending id, with weights from their scores
without the bias. The ids are stored as `u32`, so that they are exact for a gate of at most `2^32`
experts. On an accepted weight every input of the model's width has scores. -/
theorem routeWithScratch_sorted (x : List F) (scratch : RoutingScratch F) :
    ((gate.routeWithScratch f decode matmul x scratch).map Prod.fst =
      (gate.scores f decode matmul x).map fun scores =>
        gate.decision f scores ((gate.chosen f scores).map (· % 2^32))) ∧
    (gate.numExperts ≤ 2^32 → (gate.routeWithScratch f decode matmul x scratch).map Prod.fst =
      (gate.scores f decode matmul x).map fun scores =>
        gate.decision f scores (gate.chosen f scores)) ∧
    (∀ scores, (gate.chosen f scores).Nodup ∧ ∀ e ∈ gate.chosen f scores, e<gate.numExperts) ∧
    (Accepted gate.weights → x.length = gate.dModel → ∃ scores : List F,
      gate.scores f decode matmul x = some scores ∧ scores.length = gate.numExperts) := by
  refine ⟨routeWithScratch_eq x scratch,fun hsmall => ?_,fun scores => chosen_spec scores,
    fun haccepted hx => ?_⟩
  · rw [routeWithScratch_eq]
    congr 1
    funext scores
    have hids : (gate.chosen f scores).map (· % 2^32) = gate.chosen f scores := by
      have hid : ∀ e ∈ gate.chosen f scores, e % 2^32 = id e := fun e he =>
        Nat.mod_eq_of_lt (((chosen_spec scores).2 e he).trans_le hsmall)
      rw [List.map_congr_left hid, List.map_id]
    rw [hids]
  · obtain ⟨logits,hlogits⟩ := @matvec_isSome F _ _ _ gate.weights decode matmul haccepted x
      (hx.trans gate.cols_eq.symm)
    have hscores : gate.scores f decode matmul x = some (gate.score f logits) := by
      rw [scores, hlogits, Option.map_some]
    exact ⟨_,hscores,length_scores hscores⟩

end LinearGate

section Truncation

/-- Rationals and negative infinity, with the value of `exp` at zero. -/
def rationals : Floats (WithBot ℚ) where
  one := 1
  negInf := ⊥
  ofLen n := ((n : ℚ) : WithBot ℚ)
  neg := WithBot.map Neg.neg
  exp _ := 1
  sub := WithBot.map₂ (·-·)
  div := WithBot.map₂ (·/·)
  sum := List.sum
  gt a b := decide (b<a)
  ne a b := decide (a ≠ b)
  isNan _ := false
  isFinite a := decide (a ≠ ⊥)

/-- A bias that leaves only the last expert a finite score. -/
def lastOnlyBias (n : ℕ) : List (WithBot ℚ) := List.replicate n ⊥++[0]

/-- A gate without inputs, whose scores are all one half. -/
def lastOnly (n : ℕ) : LinearGate (WithBot ℚ) where
  weights := .f32 [] (n+1) 0
  numExperts := n+1
  dModel := 0
  topK := 1
  normaliseTopk := false
  scoringFunc := .sigmoid
  correctionBias := some (lastOnlyBias n)
  nGroup := 1
  topkGroup := 1
  routedScalingFactor := 1
  topK_pos := one_pos
  topK_le := Nat.le_add_left 1 n
  rows_eq := rfl
  cols_eq := rfl
  bias_len := fun bias h => by
    obtain rfl := Option.some.inj h
    simp [lastOnlyBias]

lemma lastOnly_withRouting (n : ℕ) :
    LinearGate.withRouting rationals [] (n+1) 0 1 .sigmoid false (some (lastOnlyBias n)) 1 1 1
      = some (lastOnly n) := by
  have hbias : (lastOnlyBias n).length = n+1 := by simp [lastOnlyBias]
  simp [LinearGate.withRouting, LinearGate.new, DenseWeight.fromF32, LinearGate.fromDense,
    LinearGate.withSettings, saturatingMul, DenseWeight.rows, DenseWeight.cols, hbias, lastOnly]

variable (decode : List UInt8 → Vector (WithBot ℚ) q8_0BlockElems)

lemma lastOnly_scores (n : ℕ) : ∃ half : ℚ,
    (lastOnly n).scores rationals decode (fun _ _ _ _ _ => 0) []
      = some (List.replicate (n+1) (half : WithBot ℚ)) := by
  refine ⟨1/(1+1),?_⟩
  have hmatvec : (lastOnly n).weights.matvec decode (fun _ _ _ _ _ => 0) []
      = some (List.replicate (n+1) 0) := by
    unfold DenseWeight.matvec DenseWeight.matvecInto
    rw [if_neg (by simp [lastOnly, DenseWeight.cols])]
    refine congrArg some (List.ext_getElem ?_ fun i _ _ => ?_)
    · rw [List.length_mapIdx, List.length_replicate, List.length_replicate]
      rfl
    · rw [List.getElem_mapIdx, List.getElem_replicate]
  have hscore (logits : List (WithBot ℚ)) : (lastOnly n).score rationals logits
      = logits.map fun v =>
        rationals.div rationals.one (rationals.one+rationals.exp (rationals.neg v)) :=
    rfl
  rw [LinearGate.scores, hmatvec, Option.map_some, hscore, List.map_replicate]
  rfl

lemma lastOnly_chosen (n : ℕ) (half : ℚ) :
    (lastOnly n).chosen rationals (List.replicate (n+1) (half : WithBot ℚ)) = [n] := by
  have hselection : (lastOnly n).selection (List.replicate (n+1) (half : WithBot ℚ))
      = List.replicate n ⊥++[(half : WithBot ℚ)+0] := by
    change List.zipWith (·+·) (List.replicate (n+1) (half : WithBot ℚ)) (lastOnlyBias n) = _
    rw [lastOnlyBias, List.replicate_succ', List.zipWith_append (by simp), List.zipWith_replicate]
    simp
  have hlow : ∀ e<n,
      ((lastOnly n).selection (List.replicate (n+1) (half : WithBot ℚ))).getD e 0 = ⊥ := by
    intro e he
    rw [hselection, List.getD, List.getElem?_append_left (by simpa using he)]
    simp [he]
  have hlast : ((lastOnly n).selection (List.replicate (n+1) (half : WithBot ℚ))).getD n 0
      = (half : WithBot ℚ) := by
    rw [hselection, List.getD, List.getElem?_append_right (by simp)]
    simp
  have hnone : (List.range n).filter (fun e => (lastOnly n).allowed rationals
      ((lastOnly n).selection (List.replicate (n+1) (half : WithBot ℚ))) e &&
        rationals.isFinite (((lastOnly n).selection
          (List.replicate (n+1) (half : WithBot ℚ))).getD e 0)) = [] := by
    refine List.filter_eq_nil_iff.mpr fun e he => ?_
    rw [hlow e (List.mem_range.mp he)]
    simp [rationals]
  have hcandidates : (lastOnly n).candidates rationals
      ((lastOnly n).selection (List.replicate (n+1) (half : WithBot ℚ))) (n+1)
        = [(n,(half : WithBot ℚ))] := by
    rw [LinearGate.candidates, List.range_succ, List.filter_append, hnone, List.nil_append,
      List.filter_singleton, hlast]
    have hallowed : (lastOnly n).allowed rationals
        ((lastOnly n).selection (List.replicate (n+1) (half : WithBot ℚ))) n = true := rfl
    have hfinite : rationals.isFinite (half : WithBot ℚ) = true := by simp [rationals]
    rw [hallowed, hfinite]
    exact congrArg (fun score => [(n,score)]) hlast
  rw [LinearGate.chosen]
  change ((best scoreKey 1 ((lastOnly n).candidates rationals _ (n+1))).map Prod.fst) = _
  rw [hcandidates]
  rfl

/-- Of `2^32 + 1` experts the last one is the only candidate, and the decision names expert zero. -/
theorem route_truncates_ids : ∃ gate, LinearGate.withRouting rationals [] (2^32+1) 0 1 .sigmoid false
      (some (lastOnlyBias (2^32))) 1 1 1 = some gate ∧
    (∃ scores, gate.scores rationals (fun _ => Vector.replicate q8_0BlockElems 0)
      (fun _ _ _ _ _ => 0) [] = some scores ∧ gate.chosen rationals scores = [2^32]) ∧
    ((gate.routeWithScratch rationals (fun _ => Vector.replicate q8_0BlockElems 0)
      (fun _ _ _ _ _ => 0) [] ⟨[],[],[],[],[],[]⟩).map Prod.fst).map RoutingDecision.experts
        = some [0] := by
  obtain ⟨half,hscores⟩ := lastOnly_scores (fun _ => Vector.replicate q8_0BlockElems 0) (2^32)
  have hchosen := lastOnly_chosen (2^32) half
  refine ⟨lastOnly (2^32),lastOnly_withRouting (2^32),⟨_,hscores,hchosen⟩,?_⟩
  rw [LinearGate.routeWithScratch_eq, hscores, Option.map_some, Option.map_some, hchosen]
  rfl

end Truncation
end MicroExpertRouter.Gating
