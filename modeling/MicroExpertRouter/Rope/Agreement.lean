import MicroExpertRouter.Lib.Machine
import MicroExpertRouter.Rope.Cache

/-! When the cached rotation is the uncached one: a cache keeps the rows of the configuration it was
built for, and its key has to tell that from the caller's. -/
namespace MicroExpertRouter.Rope

section Rotation
variable {F : Type} (ops : FloatOps F) (v : List F)

/-- The two entries that a pair rotates. -/
def turned (p : RopePair F) (i : ℕ) : Option (F × F) := do
  let a ← v[i]?
  let b ← v[i+v.length/2]?
  return (ops.sub (ops.mul a p.cos) (ops.mul b p.sin),ops.add (ops.mul a p.sin) (ops.mul b p.cos))

variable {ops v}

lemma rotate_congr {pair pair' : ℕ → Option (RopePair F)} (h : ∀ i<v.length/2, pair i = pair' i) :
    rotate ops v pair = rotate ops v pair' := by
  refine foldlM_congr (fun i hi w => ?_) v
  rw [turn, turn, h i (List.mem_range.mp hi)]

/-- What a loop has turned so far, and what it has still to turn. -/
structure Turned (ops : FloatOps F) (v : List F) (p : ℕ → RopePair F) (k : ℕ) (w : List F) : Prop where
  length : w.length = v.length
  done : ∀ i<k, w[i]? = (turned ops v (p i) i).map Prod.fst
    ∧ w[i+v.length/2]? = (turned ops v (p i) i).map Prod.snd
  todo : ∀ i, k ≤ i → i<v.length/2 → w[i]? = v[i]? ∧ w[i+v.length/2]? = v[i+v.length/2]?

lemma Turned.step {pair : ℕ → Option (RopePair F)} {p : ℕ → RopePair F} {k : ℕ} {w : List F}
    (h : Turned ops v p k w) (hk : k<v.length/2) (hpair : pair k = some (p k)) :
    ∃ w', turn ops (v.length/2) pair w k = some w' ∧ Turned ops v p (k+1) w' := by
  have hfirst : k<v.length := by omega
  have hsecond : k+v.length/2<v.length := by omega
  have ha := (h.todo k le_rfl hk).1.trans (List.getElem?_eq_getElem hfirst)
  have hb := (h.todo k le_rfl hk).2.trans (List.getElem?_eq_getElem hsecond)
  have hlen := h.length
  have hturned : turned ops v (p k) k
      = some (ops.sub (ops.mul v[k] (p k).cos) (ops.mul v[k+v.length/2] (p k).sin),
        ops.add (ops.mul v[k] (p k).sin) (ops.mul v[k+v.length/2] (p k).cos)) := by
    simp [turned, hfirst, hsecond]
  refine ⟨(w.set k (ops.sub (ops.mul v[k] (p k).cos) (ops.mul v[k+v.length/2] (p k).sin))).set
    (k+v.length/2) (ops.add (ops.mul v[k] (p k).sin) (ops.mul v[k+v.length/2] (p k).cos)),?_,?_⟩
  · rw [turn, hpair, ha, hb]
    rfl
  · have hother {i : ℕ} (x y : F) (hi : i ≠ k) (hi' : i ≠ k+v.length/2) :
        ((w.set k x).set (k+v.length/2) y)[i]? = w[i]? := by
      rw [List.getElem?_set_ne hi'.symm, List.getElem?_set_ne hi.symm]
    refine ⟨by rw [List.length_set, List.length_set, hlen],fun i hi => ?_,fun i hle hi => ?_⟩
    · rcases Nat.lt_succ_iff_lt_or_eq.mp hi with hlt | rfl
      · rw [hother _ _ (by omega) (by omega), hother _ _ (by omega) (by omega)]
        exact h.done i hlt
      · rw [hturned, List.getElem?_set_ne (by omega), List.getElem?_set_self (by omega),
          List.getElem?_set_self (by rw [List.length_set]; omega)]
        exact ⟨rfl,rfl⟩
    · rw [hother _ _ (by omega) (by omega), hother _ _ (by omega) (by omega)]
      exact h.todo i (by omega) hi

/-- With a pair for each index, the rotation turns each entry of the first half once. -/
theorem rotate_eq_some {pair : ℕ → Option (RopePair F)} {p : ℕ → RopePair F}
    (hpair : ∀ i<v.length/2, pair i = some (p i)) :
    ∃ w, rotate ops v pair = some w ∧ Turned ops v p (v.length/2) w := by
  have hsteps : ∀ k ≤ v.length/2, ∃ w,
      (List.range k).foldlM (turn ops (v.length/2) pair) v = some w ∧ Turned ops v p k w := by
    intro k hk
    induction k with
    | zero =>
      exact ⟨v,rfl,⟨rfl,fun i hi => absurd hi (Nat.not_lt_zero i),fun _ _ _ => ⟨rfl,rfl⟩⟩⟩
    | succ k ih =>
      obtain ⟨w,hrun,hturned⟩ := ih (by omega)
      obtain ⟨w',hturn,hturned'⟩ := hturned.step hk (hpair k hk)
      refine ⟨w',?_,hturned'⟩
      rw [List.range_succ, List.foldlM_append, hrun]
      simpa using hturn
  exact hsteps _ le_rfl

/-- A configuration with a frequency for each pair rotates the whole vector. -/
theorem applyRopeScaledInplace_eq_some {yarn : YarnRope F} (h : yarn.invFreq.length = v.length/2)
    (pos : ℕ) : ∃ w, applyRopeScaledInplace ops v pos yarn = some w ∧ Turned ops v
      (fun i => scaledPair ops yarn.attnFactor pos (yarn.invFreq.getD i ops.one)) (v.length/2) w := by
  refine rotate_eq_some fun i hi => ?_
  rw [← h] at hi
  rw [List.getElem?_eq_getElem hi, List.getD_eq_getElem?_getD, List.getElem?_eq_getElem hi]
  rfl

end Rotation

namespace RopeCache
variable {F : Type} {ops : FloatOps F}

/-- A cache as it was built, up to the rows it has filled. -/
structure Filled (ops : FloatOps F) (built cache : RopeCache F) : Prop where
  same : cache = { built with rows := cache.rows }
  holds : OnceTable.Holds cache.rows (built.computeRow ops)

lemma Filled.computeRow {built cache : RopeCache F} (h : Filled ops built cache) (pos : ℕ) :
    cache.computeRow ops pos = built.computeRow ops pos := by
  rw [h.same]
  rfl

lemma Filled.applyInplace {built cache : RopeCache F} (h : Filled ops built cache) (v : List F)
    (pos : ℕ) : (cache.applyInplace ops v pos).1 = applyRopePairs ops v (built.computeRow ops pos)
      ∧ Filled ops built (cache.applyInplace ops v pos).2 := by
  have hrow : cache.computeRow ops = built.computeRow ops := funext h.computeRow
  unfold RopeCache.applyInplace
  rw [hrow]
  refine ⟨congrArg (applyRopePairs ops v) (h.holds.getOrInit_fst pos),?_,h.holds.getOrInit_snd pos⟩
  dsimp only
  rw [h.same]

section Uses
variable [DecidableEq F]

lemma Filled.fits {built cache : RopeCache F} (h : Filled ops built cache) (n : ℕ) (base : F)
    (yarn : Option (YarnRope F)) : cache.fits ops n base yarn = built.fits ops n base yarn := by
  rw [h.same]
  rfl

/-- A filled cache answers from the rows it was built for, or not at all. -/
lemma Filled.applyRopeWithCache {built cache : RopeCache F} (h : Filled ops built cache) (v : List F)
    (pos : ℕ) (base : F) (yarn : Option (YarnRope F)) :
    (applyRopeWithCache ops v pos base yarn (some cache)).1
        = (if built.fits ops v.length base yarn then applyRopePairs ops v (built.computeRow ops pos)
          else applyRopeMaybeScaled ops v pos base yarn)
      ∧ ∃ after, (applyRopeWithCache ops v pos base yarn (some cache)).2 = some after
        ∧ Filled ops built after := by
  rw [Rope.applyRopeWithCache, h.fits]
  split_ifs
  · exact ⟨(h.applyInplace v pos).1,_,rfl,(h.applyInplace v pos).2⟩
  · exact ⟨rfl,cache,rfl,h⟩

lemma Filled.use {built cache : RopeCache F} (h : Filled ops built cache) (u : Use F) :
    Filled ops built (cache.use ops u) := by
  cases u with
  | applyInplace v pos => exact (h.applyInplace v pos).2
  | applyRopeWithCache v pos base yarn =>
    obtain ⟨-,after,hafter,hfilled⟩ := h.applyRopeWithCache v pos base yarn
    rw [RopeCache.use, hafter]
    exact hfilled

/-- Uses only fill rows. -/
theorem Filled.run {built cache : RopeCache F} (h : Filled ops built cache) (uses : List (Use F)) :
    Filled ops built (cache.run ops uses) :=
  List.foldlRecOn uses _ (motive := fun cache : RopeCache F => Filled ops built cache) h
    fun _ hcache u _ => hcache.use u

end Uses

/-- A new cache has filled nothing. -/
lemma filled_built {ropeDim positions : ℕ} {base : F} {yarn : Option (YarnRope F)}
    {built : RopeCache F} (h : withPositions ops ropeDim base yarn positions = some built) :
    Filled ops built built := by
  refine ⟨rfl,?_⟩
  unfold withPositions at h
  obtain ⟨-,h⟩ := Option.ite_none_left_eq_some.mp h
  cases yarn with
  | none =>
    obtain rfl := Option.some.inj h
    exact OnceTable.holds_replicate _ _
  | some y =>
    obtain ⟨-,h⟩ := Option.ite_none_right_eq_some.mp h
    obtain rfl := Option.some.inj h
    exact OnceTable.holds_replicate _ _

/-- The configurations that a cache is built for. -/
def Buildable (ropeDim : ℕ) (yarn : Option (YarnRope F)) : Prop :=
  0<ropeDim ∧ ropeDim % 2 = 0 ∧ ∀ y, yarn = some y → y.invFreq.length = ropeDim/2

lemma withPositions_none {ropeDim : ℕ} (h : Buildable (F := F) ropeDim none) (base : F)
    (positions : ℕ) : withPositions ops ropeDim base none positions = some ⟨ropeDim,base,false,ops.one,
      (List.range (ropeDim/2)).map (inverseFrequency ops base ropeDim),List.replicate positions none⟩ :=
  if_neg (by have hpos := h.1; have heven := h.2.1; omega)

lemma withPositions_some {ropeDim : ℕ} {y : YarnRope F} (h : Buildable ropeDim (some y)) (base : F)
    (positions : ℕ) : withPositions ops ropeDim base (some y) positions = some ⟨ropeDim,base,true,
      y.attnFactor,y.invFreq,List.replicate positions none⟩ :=
  (if_neg (by have hpos := h.1; have heven := h.2.1; omega)).trans (if_pos (h.2.2 y rfl))

end RopeCache

section Agreement
variable {F : Type} {ops : FloatOps F} {ropeDim positions : ℕ} {base base' : F}
  {yarn yarn' : Option (YarnRope F)} {built : RopeCache F}

/-- Rows of the same frequencies and the same factor rotate as the uncached function does. -/
lemma applyRopePairs_built (hbuildable : RopeCache.Buildable ropeDim yarn)
    (hbuilt : RopeCache.withPositions ops ropeDim base yarn positions = some built)
    (hattn : yarn.map YarnRope.attnFactor = yarn'.map YarnRope.attnFactor)
    (hfreq : yarn.map YarnRope.invFreq = yarn'.map YarnRope.invFreq) {v : List F}
    (hv : v.length = ropeDim) (pos : ℕ) : applyRopePairs ops v (built.computeRow ops pos)
      = applyRopeMaybeScaled ops v pos base yarn' := by
  cases yarn with
  | none =>
    obtain rfl : yarn' = none := Option.map_eq_none_iff.mp hattn.symm
    rw [RopeCache.withPositions_none hbuildable] at hbuilt
    obtain rfl := Option.some.inj hbuilt
    refine rotate_congr fun i hi => ?_
    rw [hv] at hi ⊢
    simp only [RopeCache.computeRow, List.map_map, List.getElem?_map, List.getElem?_range hi,
      Option.map_some, Function.comp_apply, scaledPair, ops.mul_one]
  | some y =>
    obtain ⟨y',rfl,hfactor⟩ := Option.map_eq_some_iff.mp hattn.symm
    have hsame : y.invFreq = y'.invFreq := Option.some.inj hfreq
    rw [RopeCache.withPositions_some hbuildable] at hbuilt
    obtain rfl := Option.some.inj hbuilt
    refine rotate_congr fun i _ => ?_
    simp only [RopeCache.computeRow, List.getElem?_map, hsame, hfactor]

/-- The key compares the shape, the base and the attention factor. -/
lemma fits_built [DecidableEq F] (hbuildable : RopeCache.Buildable ropeDim yarn)
    (hbuilt : RopeCache.withPositions ops ropeDim base yarn positions = some built) (n : ℕ) :
    built.fits ops n base' yarn' = true ↔ ropeDim = n ∧ base = base'
      ∧ yarn.map YarnRope.attnFactor = yarn'.map YarnRope.attnFactor := by
  cases yarn with
  | none =>
    rw [RopeCache.withPositions_none hbuildable] at hbuilt
    obtain rfl := Option.some.inj hbuilt
    cases yarn' <;> simp [RopeCache.fits]
  | some y =>
    rw [RopeCache.withPositions_some hbuildable] at hbuilt
    obtain rfl := Option.some.inj hbuilt
    cases yarn' <;> simp [RopeCache.fits, and_assoc]

end Agreement

section Separation
variable {F : Type} [DecidableEq F]

/-- Operations that tell all frequencies apart. -/
def separating (one : F) : FloatOps F where
  add a _ := a
  sub a _ := a
  mul a b := Equiv.swap one b a
  div a _ := a
  powf a _ := a
  sin := id
  cos := id
  ofNat _ := one
  one := one
  two := one
  mul_one x := by rw [Equiv.swap_self]; rfl

/-- An entry of a vector of ones turns into the frequency of its pair, up to the factor. -/
lemma getElem?_separated {n : ℕ} {w : List F} {one : F} {y : YarnRope F}
    (hturned : Turned (separating one) (List.replicate n one)
      (fun i => scaledPair (separating one) y.attnFactor 0 (y.invFreq.getD i one))
      ((List.replicate n one).length/2) w) {i : ℕ} (hi : i<n/2) :
    w[i]? = some (Equiv.swap one y.attnFactor (y.invFreq.getD i one)) := by
  have hlen : (List.replicate n one).length = n := List.length_replicate
  have hone {j : ℕ} (hj : j<n) : (List.replicate n one)[j]? = some one := by
    rw [List.getElem?_replicate, if_pos hj]
  have hmul (x : F) : (separating one).mul one x = x := Equiv.swap_apply_left one x
  rw [(hturned.done i (by rw [hlen]; exact hi)).1, turned, hlen, hone (by omega), hone (by omega)]
  exact congrArg some ((hmul _).trans (congrArg (Equiv.swap one y.attnFactor) (hmul _)))

/-- Configurations of one factor that always rotate alike have the same frequencies. -/
lemma invFreq_eq_of_agrees {n : ℕ} {y y' : YarnRope F} (hfactor : y.attnFactor = y'.attnFactor)
    (hy : y.invFreq.length = n/2) (hy' : y'.invFreq.length = n/2)
    (hagrees : ∀ (ops : FloatOps F) (v : List F), v.length = n →
      applyRopeScaledInplace ops v 0 y = applyRopeScaledInplace ops v 0 y') :
    y.invFreq = y'.invFreq := by
  refine List.ext_getElem (hy.trans hy'.symm) fun i hi hi' => ?_
  set one := y.invFreq[i] with hone
  have hlen : (List.replicate n one).length = n := List.length_replicate
  obtain ⟨w,hw,hturned⟩ := @applyRopeScaledInplace_eq_some F (separating one) (List.replicate n one) y
    (by rw [hlen, hy]) 0
  obtain ⟨w',hw',hturned'⟩ := @applyRopeScaledInplace_eq_some F (separating one) (List.replicate n one)
    y' (by rw [hlen, hy']) 0
  obtain rfl : w = w' := Option.some.inj (hw.symm.trans ((hagrees _ _ hlen).trans hw'))
  have hfirst := getElem?_separated hturned (hy ▸ hi)
  rw [getElem?_separated hturned' (hy ▸ hi), hfactor] at hfirst
  have heq := (Equiv.swap one y'.attnFactor).injective (Option.some.inj hfirst)
  rw [List.getD_eq_getElem?_getD, List.getD_eq_getElem?_getD, List.getElem?_eq_getElem hi,
    List.getElem?_eq_getElem hi'] at heq
  exact heq.symm

end Separation

section Cached
variable {F : Type} [DecidableEq F]

/-- For every cache built by a configuration and every call by another, the cached rotation is the
uncached one, after all earlier uses, for all operations, vectors and positions, exactly when
the key tells the inverse frequencies apart. -/
theorem cached_rope_agrees_iff (ropeDim positions n : ℕ) (base base' : F)
    (yarn yarn' : Option (YarnRope F)) (hbuildable : RopeCache.Buildable ropeDim yarn)
    (hyarn' : ∀ y, yarn' = some y → y.invFreq.length = n/2) :
    (∀ (ops : FloatOps F) (built : RopeCache F),
      RopeCache.withPositions ops ropeDim base yarn positions = some built →
      ∀ (uses : List (Use F)) (v : List F) (pos : ℕ), v.length = n →
        (applyRopeWithCache ops v pos base' yarn' (some (built.run ops uses))).1
          = applyRopeMaybeScaled ops v pos base' yarn')
      ↔ (ropeDim = n → base = base' → yarn.map YarnRope.attnFactor = yarn'.map YarnRope.attnFactor →
        yarn.map YarnRope.invFreq = yarn'.map YarnRope.invFreq) := by
  constructor
  · intro hagrees hdim hbase hattn
    cases yarn with
    | none =>
      obtain rfl : yarn' = none := Option.map_eq_none_iff.mp hattn.symm
      rfl
    | some y =>
      obtain ⟨y',rfl,hfactor⟩ := Option.map_eq_some_iff.mp hattn.symm
      refine congrArg some (invFreq_eq_of_agrees hfactor.symm (hdim ▸ hbuildable.2.2 y rfl)
        (hyarn' y' rfl) fun ops v hv => ?_)
      have hbuilt := @RopeCache.withPositions_some F ops ropeDim y hbuildable base positions
      have hfilled := (RopeCache.filled_built hbuilt).run []
      have hfits := (fits_built hbuildable hbuilt v.length).mpr ⟨hdim.trans hv.symm,hbase,hattn⟩
      have hcached := (hfilled.applyRopeWithCache v 0 base' (some y')).1
      rw [hagrees ops _ hbuilt [] v 0 hv, if_pos hfits, applyRopePairs_built hbuildable hbuilt rfl rfl
        (hv.trans hdim.symm) 0] at hcached
      exact hcached.symm
  · intro hkey ops built hbuilt uses v pos hv
    rw [(((RopeCache.filled_built hbuilt).run uses).applyRopeWithCache v pos base' yarn').1]
    split_ifs with hfits
    · obtain ⟨hdim,rfl,hattn⟩ := (fits_built hbuildable hbuilt v.length).mp hfits
      exact applyRopePairs_built hbuildable hbuilt hattn (hkey (hdim.trans hv) rfl hattn) hdim.symm pos
    · rfl

end Cached

section Sampled

/-- The operations on some exact values: sine and cosine at 0, 1/2 and 1. -/
def sampled : FloatOps ℚ where
  add a b := a+b
  sub a b := a-b
  mul a b := a*b
  div a b := a/b
  powf a b := if b = 0 then 1 else a
  sin a := if a = 0 then 0 else if a = 1/2 then 4021713/8388608 else 3529385/4194304
  cos a := if a = 0 then 1 else if a = 1/2 then 230053/262144 else 141637/262144
  ofNat n := n
  one := 1
  two := 2
  mul_one := mul_one

theorem cached_rope_agrees_iff_same : ∃ built,
    RopeCache.withPositions sampled 2 10000 (some ⟨[1],1⟩) 4 = some built
      ∧ (applyRopeWithCache sampled [1,0] 1 10000 (some ⟨[1],1⟩)
          (some (built.run sampled [.applyInplace [3,4] 1]))).1
        = applyRopeMaybeScaled sampled [1,0] 1 10000 (some ⟨[1],1⟩) := by
  have hbuildable : RopeCache.Buildable 2 (some (⟨[1],1⟩ : YarnRope ℚ)) :=
    ⟨by decide,by decide,fun y hy => by cases hy; rfl⟩
  have hbuilt := @RopeCache.withPositions_some ℚ sampled 2 _ hbuildable 10000 4
  exact ⟨_,hbuilt,(cached_rope_agrees_iff 2 4 2 10000 10000 (some ⟨[1],1⟩) (some ⟨[1],1⟩) hbuildable
    fun y hy => by cases hy; rfl).mpr (fun _ _ _ => rfl) sampled _ hbuilt _ _ _ rfl⟩

/-- A cache of one YaRN configuration answers for another of the same factor. -/
theorem cache_ignores_frequencies : ∃ built,
    RopeCache.withPositions sampled 2 10000 (some ⟨[1],1⟩) 4 = some built
      ∧ (applyRopeWithCache sampled [1,0] 1 10000 (some ⟨[1/2],1⟩) (some (built.run sampled []))).1
        = some [141637/262144,3529385/4194304]
      ∧ applyRopeMaybeScaled sampled [1,0] 1 10000 (some ⟨[1/2],1⟩)
        = some [230053/262144,4021713/8388608] :=
  ⟨_,rfl,by decide +kernel,by decide +kernel⟩

end Sampled
end MicroExpertRouter.Rope
