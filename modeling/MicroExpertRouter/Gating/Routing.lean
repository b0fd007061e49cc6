import MicroExpertRouter.Gating.Gate

/-! Routing by bounded insertion selects what sorting the candidates would, whatever the reused
buffers held. -/
namespace MicroExpertRouter.Gating
open DenseTensor (DenseWeight readSlice q8_0BlockElems)
open Ranking (best scoreKey scoreKey_injective scoreIsBetter scoreIsBetter_iff)

/-- The weight comes from one of its constructors. -/
def Accepted {F : Type} (weight : DenseWeight F) : Prop :=
  (∃ values rows cols, DenseWeight.fromF32 values rows cols = some weight) ∨
    ∃ bytes rows cols, DenseWeight.fromQ8_0Bytes bytes rows cols = .ok weight

section Product
variable {F : Type} [Zero F] [Add F] [Mul F] {weight : DenseWeight F}
  {decode : List UInt8 → Vector F q8_0BlockElems} {matmul : List F → List F → ℕ → ℕ → ℕ → F}

/-- The output buffer matters by its length only. -/
lemma matvecInto_eq {x y : List F} (hy : y.length = weight.rows) :
    weight.matvecInto decode matmul x y = weight.matvec decode matmul x := by
  unfold DenseWeight.matvec DenseWeight.matvecInto
  refine if_congr (by rw [hy, List.length_replicate]) rfl ?_
  cases weight with
  | f32 values rows cols =>
    refine congrArg some (List.ext_getElem ?_ fun i _ _ => ?_)
    · rw [List.length_mapIdx, List.length_mapIdx, List.length_replicate, hy]
    · rw [List.getElem_mapIdx, List.getElem_mapIdx]
  | q8_0 bytes rows cols =>
    refine if_congr Iff.rfl ?_ ?_
    · rw [List.map_const', List.map_const', List.length_replicate, hy]
    · rw [hy, List.length_replicate]

lemma length_matvec {x y : List F} (h : weight.matvec decode matmul x = some y) :
    y.length = weight.rows := by
  unfold DenseWeight.matvec DenseWeight.matvecInto at h
  split_ifs at h with hlen
  cases weight with
  | f32 values rows cols =>
    obtain rfl := Option.some.inj h
    simp [DenseWeight.rows]
  | q8_0 bytes rows cols =>
    dsimp only at h
    split_ifs at h
    · obtain rfl := Option.some.inj h
      simp [DenseWeight.rows]
    · simpa [DenseWeight.rows] using length_of_mapM h

/-- On an accepted weight the product is computed for every input of the right length. -/
lemma matvec_isSome (haccepted : Accepted weight) {x : List F} (hx : x.length = weight.cols) :
    ∃ y, weight.matvec decode matmul x = some y := by
  unfold DenseWeight.matvec DenseWeight.matvecInto
  rw [if_neg (by rw [List.length_replicate]; simpa using hx)]
  rcases haccepted with ⟨values,rows,cols,h⟩ | ⟨bytes,rows,cols,h⟩
  · unfold DenseWeight.fromF32 at h
    split_ifs at h
    obtain rfl := Option.some.inj h
    exact ⟨_,rfl⟩
  · obtain ⟨rfl,hbytes⟩ := DenseTensor.Holds.of_fromQ8_0Bytes h
    dsimp only
    split_ifs
    · exact ⟨_,rfl⟩
    · refine ⟨_,mapM_eq_some fun row hrow => DenseTensor.q8_0RowDot_eq hbytes ?_ hx⟩
      simpa [DenseWeight.rows] using hrow

end Product

namespace LinearGate

/-- Scores of an input, computed in fresh buffers. -/
def scores {F : Type} [Zero F] [Add F] [Mul F] (gate : LinearGate F) (f : Floats F)
    (decode : List UInt8 → Vector F q8_0BlockElems) (matmul : List F → List F → ℕ → ℕ → ℕ → F)
    (x : List F) : Option (List F) :=
  (gate.weights.matvec decode matmul x).map (gate.score f)

/-- Scores with the correction bias. -/
def selection {F : Type} [Add F] (gate : LinearGate F) (scores : List F) : List F :=
  match gate.correctionBias with
  | some bias => List.zipWith (·+·) scores bias
  | none => scores

/-- The decision on some experts: weights come from the scores without the bias. -/
def decision {F : Type} [Zero F] [Mul F] (gate : LinearGate F) (f : Floats F) (scores : List F)
    (experts : List ℕ) : RoutingDecision F :=
  ⟨experts,gate.mixingWeights f (experts.map fun e => scores.getD e 0)⟩

section Spec
variable {F : Type} [LinearOrder F] [Zero F] [Add F] (gate : LinearGate F) (f : Floats F)

/-- The first groups by descending score and ascending id. -/
def allowedGroups (selection : List F) (nGroup groupSize : ℕ) : List (ℕ × F) :=
  best scoreKey gate.topkGroup ((List.range nGroup).map fun g =>
    (g,groupScore f (Slab.read selection (g*groupSize) groupSize)))

/-- Whether the group of an expert takes part: all do when grouping does not apply. -/
def allowed (selection : List F) (expert : ℕ) : Bool :=
  match gate.groupFilterShape with
  | none => true
  | some (nGroup,groupSize) =>
    expertGroupAllowed expert groupSize (gate.allowedGroups f selection nGroup groupSize)

/-- The finite-scored experts of the allowed groups among the first `count` experts. -/
def candidates (selection : List F) (count : ℕ) : List (ℕ × F) :=
  ((List.range count).filter fun e => gate.allowed f selection e && f.isFinite (selection.getD e 0)).map
    fun e => (e,selection.getD e 0)

/-- The chosen experts: the first candidates by descending score and ascending id. -/
def chosen (scores : List F) : List ℕ :=
  (best scoreKey gate.topK (gate.candidates f (gate.selection scores) gate.numExperts)).map Prod.fst

end Spec

section Lengths
variable {F : Type} {gate : LinearGate F}

@[simp] lemma length_score [Zero F] [Add F] (f : Floats F) (gate : LinearGate F)
    (logits : List F) : (gate.score f logits).length = logits.length := by
  unfold score softmaxInplace
  cases gate.scoringFunc with
  | softmax =>
    dsimp only
    split_ifs <;> simp
  | sigmoid => simp

lemma length_scores [Zero F] [Add F] [Mul F] {f : Floats F}
    {decode : List UInt8 → Vector F q8_0BlockElems} {matmul : List F → List F → ℕ → ℕ → ℕ → F}
    {x scores : List F} (h : gate.scores f decode matmul x = some scores) :
    scores.length = gate.numExperts := by
  obtain ⟨logits,hlogits,rfl⟩ := Option.map_eq_some_iff.mp h
  rw [length_score, length_matvec hlogits, gate.rows_eq]

lemma length_selection [Add F] {scores : List F} (h : scores.length = gate.numExperts) :
    (gate.selection scores).length = gate.numExperts := by
  unfold selection
  cases hbias : gate.correctionBias with
  | none => exact h
  | some bias => simp [h, gate.bias_len bias hbias]

/-- The old selection scores are all overwritten. -/
lemma selectionScores_eq [Add F] {old scores : List F} (hold : old.length = gate.numExperts)
    (hscores : scores.length = gate.numExperts) :
    gate.selectionScores old scores = some (gate.selection scores) := by
  unfold selectionScores selection
  cases hbias : gate.correctionBias with
  | none =>
    dsimp only
    rw [if_pos (hold.trans hscores.symm)]
  | some bias =>
    have hlen := gate.bias_len bias hbias
    have hzip : (scores.zip bias).length = gate.numExperts := by simp [hscores, hlen]
    have hdrop : old.drop (scores.zip bias).length = [] :=
      List.drop_eq_nil_of_le (hold.trans hzip.symm).le
    refine congrArg some ?_
    rw [addBias, hdrop, List.append_nil]
    apply List.ext_getElem
    · simp [hold, hscores, hlen]
    · intro i _ _
      simp

end Lengths
end LinearGate
end MicroExpertRouter.Gating
