import MicroExpertRouter.Lib.Machine
import MicroExpertRouter.Lib.StableSort

/-! The Markov predictor of `router.rs`: sparse counts of successors of first and second order, and
the predictions from them. Probabilities and the orders in which hash maps are visited are
parameters; a history is a list of calls. -/
namespace MicroExpertRouter.Predictor

/-- Sparse counts of the successors of one state. -/
structure Row where
  counts : KeyMap ℕ
  totalObserved : ℕ

namespace Row

def new : Row := ⟨.empty,0⟩

/-- Count a successor. A saturated count no longer adds to the total. -/
def bump (row : Row) (successor : ℕ) : Row where
  counts := row.counts.upsert successor 0 fun entry => if entry<u32Max then entry+1 else entry
  totalObserved :=
    if (row.counts.get successor).getD 0<u32Max then saturatingAdd u64Max row.totalObserved 1
    else row.totalObserved

end Row

/-- The arithmetic on `f64` that prediction uses, with the threshold `min_prob`. A probability
grows with the count, and what grows does not fall below the threshold. -/
structure Probabilities (P : Type) [LinearOrder P] where
  prob : ℕ → ℕ → P
  atLeast : P → Bool
  half : P → P
  zero : P
  add : P → P → P
  prob_lt : ∀ {a b total : ℕ}, a<b → b ≤ u32Max → 0<total → prob a total<prob b total
  atLeast_mono : ∀ {a b total : ℕ}, a ≤ b → b ≤ u32Max → 0<total →
    atLeast (prob a total) = true → atLeast (prob b total) = true

/-- `num_experts` experts; `rows` has one row for each of them. -/
structure PredictiveLoader where
  numExperts : ℕ
  rows : List Row
  rows2 : KeyMap Row
  fanout : ℕ

namespace PredictiveLoader

def new (numExperts fanout : ℕ) : PredictiveLoader :=
  ⟨numExperts,List.replicate numExperts .new,.empty,fanout⟩

def row (self : PredictiveLoader) (expert : ℕ) : Row := self.rows.getD expert .new

def observe (self : PredictiveLoader) (source successor : ℕ) : PredictiveLoader :=
  if self.numExperts ≤ source ∨ self.numExperts ≤ successor then self
  else { self with rows := self.rows.modify source (·.bump successor) }

/-- The index of a pair of experts. -/
def pairKey (self : PredictiveLoader) (prevPrev prev : ℕ) : ℕ := prevPrev*self.numExperts+prev

def observe2 (self : PredictiveLoader) (prevPrev prev successor : ℕ) : PredictiveLoader :=
  if self.numExperts ≤ prevPrev ∨ self.numExperts ≤ prev ∨ self.numExperts ≤ successor then self
  else { self with rows2 := self.rows2.upsert (self.pairKey prevPrev prev) .new (·.bump successor) }

/-- Each expert of one token with each of the next. -/
def observeStep (self : PredictiveLoader) (prevSet nextSet : List ℕ) : PredictiveLoader :=
  if prevSet.isEmpty || nextSet.isEmpty then self
  else
    prevSet.foldl (fun self source =>
      if self.numExperts ≤ source then self
      else nextSet.foldl (fun self successor =>
        if self.numExperts ≤ successor then self
        else { self with rows := self.rows.modify source (·.bump successor) }) self) self

def observeStep2 (self : PredictiveLoader) (prevPrevSet prevSet nextSet : List ℕ) :
    PredictiveLoader :=
  prevPrevSet.foldl (fun self prevPrev =>
    prevSet.foldl (fun self prev =>
      nextSet.foldl (fun self successor => self.observe2 prevPrev prev successor) self) self)
    (self.observeStep prevSet nextSet)

/-- The total with the prior of one for each expert. -/
def effectiveTotal (self : PredictiveLoader) (totalObserved : ℕ) : ℕ :=
  totalObserved+self.numExperts*1

section Prediction
variable {P : Type} [LinearOrder P] (p : Probabilities P)

/-- Unseen successors in id order at the probability of the prior, while there is room. -/
def topUp (self : PredictiveLoader) (row : Row) (priorP : P) (probs : List (ℕ × P)) : List (ℕ × P) :=
  (List.range self.numExperts).foldl (fun probs id =>
    if self.fanout ≤ probs.length then probs
    else if (row.counts.get id).isSome then probs
    else probs++[(id,priorP)]) probs

def predictNext (self : PredictiveLoader) (order : HashOrder) (source : ℕ) : List (ℕ × P) :=
  if self.numExperts ≤ source ∨ self.fanout = 0 then []
  else
    let row := self.row source
    let total := self.effectiveTotal row.totalObserved
    if total = 0 then []
    else
      let probs := ((order.arrange row.counts.entries).map fun entry =>
        (entry.1,p.prob entry.2 total)).filter fun entry => p.atLeast entry.2
      let probs := if probs.length<self.fanout then self.topUp row (p.prob 0 total) probs else probs
      (StableSort.descending Prod.snd probs).take self.fanout

/-- The first-order prediction blended with the row of the pair. -/
def combined (self : PredictiveLoader) (order : HashOrder) (baseline : List (ℕ × P)) (row2 : Row) :
    KeyMap P :=
  let total := self.effectiveTotal row2.totalObserved
  let fromBaseline := baseline.foldl (fun map entry =>
    map.upsert entry.1 p.zero (p.add · (p.half entry.2))) KeyMap.empty
  (order.arrange row2.counts.entries).foldl (fun map entry =>
    map.upsert entry.1 p.zero (p.add · (p.half (p.prob entry.2 total)))) fromBaseline

/-- The maps visited are the row, the row of the pair and the blend. -/
def predictNext2 (self : PredictiveLoader) (order order2 orderCombined : HashOrder)
    (prevPrev prev : ℕ) : List (ℕ × P) :=
  let baseline := self.predictNext p order prev
  if self.numExperts ≤ prevPrev ∨ self.numExperts ≤ prev ∨ self.fanout = 0 then baseline
  else
    match self.rows2.get (self.pairKey prevPrev prev) with
    | none => baseline
    | some row2 =>
      if row2.totalObserved = 0 then baseline
      else
        let out := (orderCombined.arrange (self.combined p order2 baseline row2).entries).filter
          fun entry => p.atLeast entry.2
        (StableSort.descending Prod.snd out).take self.fanout

end Prediction
end PredictiveLoader

inductive Call
  | observe (source successor : ℕ)
  | observe2 (prevPrev prev successor : ℕ)
  | observeStep (prevSet nextSet : List ℕ)
  | observeStep2 (prevPrevSet prevSet nextSet : List ℕ)
  deriving DecidableEq, Repr

def PredictiveLoader.apply (self : PredictiveLoader) : Call → PredictiveLoader
  | .observe source successor => self.observe source successor
  | .observe2 prevPrev prev successor => self.observe2 prevPrev prev successor
  | .observeStep prevSet nextSet => self.observeStep prevSet nextSet
  | .observeStep2 prevPrevSet prevSet nextSet => self.observeStep2 prevPrevSet prevSet nextSet

/-- The loader after some calls. -/
def PredictiveLoader.run (self : PredictiveLoader) (calls : List Call) : PredictiveLoader :=
  calls.foldl apply self

/-- The transitions between experts that a call records. -/
def Call.transitions : Call → List (ℕ × ℕ)
  | .observe source successor => [(source,successor)]
  | .observe2 _ _ _ => []
  | .observeStep prevSet nextSet => prevSet.flatMap fun source => nextSet.map (source,·)
  | .observeStep2 _ prevSet nextSet => prevSet.flatMap fun source => nextSet.map (source,·)

/-- How often a successor was observed after an expert. -/
def observed (history : List Call) (source successor : ℕ) : ℕ :=
  (history.flatMap Call.transitions).count (source,successor)

end MicroExpertRouter.Predictor
