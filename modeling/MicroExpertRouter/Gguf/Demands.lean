import MicroExpertRouter.Gguf.Eager
import MicroExpertRouter.Lib.Metered
import Mathlib.Algebra.Order.Floor.Div

/-! What a header asks of the machine that parses it: capacity for its tables and arrays, products
of dimensions that fit `u64`, and stack for nested values. The parser panics exactly when one of
these is refused. -/
namespace MicroExpertRouter.Gguf

inductive Demand
  | metadata (n : ℕ)
  | tensors (n : ℕ)
  | shape (n : ℕ)
  | values (n : ℕ)
  | product (n : ℕ)
  | nesting
  deriving DecidableEq, Repr

/-- A machine that grants nothing. Scalars can be read on it. -/
def Runtime.nothing : Runtime where
  overflowChecks := true
  metadata _ := false
  tensors _ := false
  shape _ := false
  values _ := false
  stack := 0

/-- What a machine grants when overflow counts as a panic. -/
def Runtime.admits (self : Runtime) : Demand → Bool
  | .metadata n => self.metadata n
  | .tensors n => self.tensors n
  | .shape n => self.shape n
  | .values n => self.values n
  | .product n => decide (n ≤ u64Max)
  | .nesting => false

/-- The grammar again, on a machine without limits that notes what is asked of it. -/
abbrev Meter (α : Type) := Metered Demand UInt8 Failure α

namespace Meter
open Metered

def readValues (readValue : Meter GgufValue) (n : ℕ) : Meter (List GgufValue) :=
  loop (fun out => do return out++[← readValue]) n []

def readValueTyped (version : ℕ) : ℕ → ℕ → Meter GgufValue
  | 0, _ => do
    ask .nesting
    lift (Parser.fail .panic)
  | depth+1, ty =>
    if GgufType.ofCode ty = some .array then do
      let innerTy ← lift (readLe 4)
      let n ← lift (readCount version)
      ask (.values n)
      return .array (← readValues (readValueTyped version depth innerTy) n)
    else lift (Gguf.readValueTyped .nothing version 1 ty)

def readValue (stack version : ℕ) : Meter GgufValue := do
  let ty ← lift (readLe 4)
  readValueTyped version stack ty

def readEntry (stack version : ℕ) (metadata : Table GgufValue) : Meter (Table GgufValue) := do
  let key ← lift (readString version)
  let val ← readValue stack version
  return Lru.put metadata key val

def elems (shape : List ℕ) : Meter ℕ :=
  shape.foldlM (fun total d => do
    ask (.product (total*d))
    return total*d) 1

def tensorBytes (name : String) (ggmlDtype : ℕ) (shape : List ℕ) : Meter ℕ := do
  let elems ← elems shape
  lift (knownBytes name ggmlDtype (dtypeBytes ggmlDtype elems))

def readTensor (version : ℕ) (tensors : Table GgufTensorInfo) : Meter (Table GgufTensorInfo) := do
  let name ← lift (readString version)
  let nDims ← lift (readLe 4)
  ask (.shape nDims)
  let shape ← lift (Parser.loop (readDim version) nDims [])
  let ggmlDtype ← lift (readLe 4)
  let offset ← lift (readLe 8)
  let byteLen ← tensorBytes name ggmlDtype shape
  return Lru.put tensors name ⟨name,shape,ggmlDtype,offset,byteLen⟩

def readHeader (stack : ℕ) : Meter Header := do
  lift readMagic
  let version ← lift readVersion
  let tensorCount ← lift (readCount version)
  let kvCount ← lift (readCount version)
  ask (.metadata kvCount)
  let metadata ← loop (readEntry stack version) kvCount []
  ask (.tensors tensorCount)
  let tensors ← loop (readTensor version) tensorCount []
  return ⟨version,metadata,tensors⟩

end Meter

/-- What the header of these bytes asks for, with a stack for this many nested values. -/
def demands (stack : ℕ) (bytes : List UInt8) : List Demand := (Meter.readHeader stack bytes 0).1

namespace Meter
open Metered
variable (runtime : Runtime) (version : ℕ)

lemma run_capacity {fits : ℕ → Bool} {d : ℕ → Demand} (h : ∀ n, runtime.admits (d n) = fits n)
    (n : ℕ) : run runtime.admits .panic (ask (d n) : Meter Unit) = withCapacity fits n := by
  rw [run_ask, h]
  rfl

/-- A scalar is read alike on every machine. -/
lemma readValueTyped_scalar {ty : ℕ} (h : GgufType.ofCode ty ≠ some .array) (depth : ℕ) :
    Gguf.readValueTyped .nothing version 1 ty = Gguf.readValueTyped runtime version (depth+1) ty := by
  unfold Gguf.readValueTyped
  cases htag : GgufType.ofCode ty with
  | none => rfl
  | some tag =>
    cases tag with
    | array => exact absurd htag h
    | _ => rfl

lemma run_readValueTyped (depth : ℕ) : ∀ ty,
    run runtime.admits .panic (readValueTyped version depth ty) =
      Gguf.readValueTyped runtime version depth ty := by
  induction depth with
  | zero =>
    intro ty
    rw [readValueTyped, run_bind, run_ask]
    rfl
  | succ depth ih =>
    intro ty
    unfold readValueTyped
    by_cases harray : GgufType.ofCode ty = some .array
    · rw [if_pos harray]
      unfold Gguf.readValueTyped readValues
      rw [harray]
      unfold Gguf.readValues
      have hvalues := @run_capacity runtime runtime.values .values fun _ => rfl
      simp only [run_bind, run_lift, run_loop, run_pure, ih, hvalues]
    · rw [if_neg harray, run_lift]
      exact readValueTyped_scalar runtime version harray depth

lemma run_readEntry (metadata : Table GgufValue) :
    run runtime.admits .panic (readEntry runtime.stack version metadata) =
      Gguf.readEntry runtime version metadata := by
  unfold readEntry Gguf.readEntry readValue Gguf.readValue
  simp only [run_bind, run_lift, run_pure, run_readValueTyped]

/-- Every partial product is asked for. -/
lemma run_elems (hchecks : runtime.overflowChecks = true) (shape : List ℕ) (buf : List UInt8)
    (pos : ℕ) : run runtime.admits .panic (elems shape) buf pos =
      (Gguf.elems runtime shape).map fun total => (total,pos) := by
  have hfold : ∀ (shape : List ℕ) (total : ℕ), run runtime.admits .panic (shape.foldlM
      (fun total d => do
        ask (.product (total*d))
        return total*d) total : Meter ℕ) buf pos =
      (shape.foldlM (fun total d =>
        if total*d ≤ u64Max then Except.ok (total*d)
        else if runtime.overflowChecks then .error Failure.panic
        else .ok (total*d % 2^64)) total).map fun total => (total,pos) := by
    intro shape
    induction shape with
    | nil => exact fun total => rfl
    | cons d shape ih =>
      intro total
      rw [List.foldlM_cons, List.foldlM_cons, run_bind, run_bind, run_ask]
      by_cases hfits : total*d ≤ u64Max
      · have hadmits : runtime.admits (.product (total*d)) = true := decide_eq_true hfits
        rw [if_pos hadmits, if_pos hfits]
        exact ih (total*d)
      · have hadmits : ¬ runtime.admits (.product (total*d)) = true := fun h =>
          hfits (of_decide_eq_true h)
        rw [if_neg hadmits, if_neg hfits, if_pos hchecks]
        rfl
  exact hfold shape 1

lemma run_tensorBytes (hchecks : runtime.overflowChecks = true) (name : String) (ggmlDtype : ℕ)
    (shape : List ℕ) : run runtime.admits .panic (tensorBytes name ggmlDtype shape) =
      Gguf.tensorBytes runtime name ggmlDtype shape := by
  unfold tensorBytes Gguf.tensorBytes ggmlTensorBytes
  simp only [run_bind, run_lift]
  funext buf pos
  change Parser.bind _ _ buf pos = _
  unfold Parser.bind
  rw [run_elems runtime hchecks]
  cases Gguf.elems runtime shape with
  | error e => rfl
  | ok total => rfl

lemma run_readTensor (hchecks : runtime.overflowChecks = true) (tensors : Table GgufTensorInfo) :
    run runtime.admits .panic (readTensor version tensors) =
      Gguf.readTensor runtime version tensors := by
  unfold readTensor Gguf.readTensor
  have hshape := @run_capacity runtime runtime.shape .shape fun _ => rfl
  simp only [run_bind, run_lift, run_pure, run_tensorBytes runtime hchecks, hshape]

/-- The parser is the metered one on its machine. -/
theorem run_readHeader (hchecks : runtime.overflowChecks = true) :
    run runtime.admits .panic (readHeader runtime.stack) = Gguf.readHeader runtime := by
  unfold readHeader Gguf.readHeader
  have hmetadata := @run_capacity runtime runtime.metadata .metadata fun _ => rfl
  have htensors := @run_capacity runtime runtime.tensors .tensors fun _ => rfl
  simp only [run_bind, run_lift, run_loop, run_pure, run_readEntry, run_readTensor runtime _ hchecks,
    hmetadata, htensors]

section Blame
variable {admits : Demand → Bool} {version}

lemma readBytes_never (n : ℕ) : Never .panic (readBytes n) :=
  .read (fun h => by cases h) usizeMax n

lemma readLe_never (bytes : ℕ) : Never .panic (readLe bytes) :=
  (readBytes_never bytes).bind fun _ => .pure _

lemma readCount_never : Never .panic (readCount version) := by
  unfold readCount
  split_ifs
  · exact readLe_never 4
  · exact readLe_never 8

lemma readString_never : Never .panic (readString version) :=
  readCount_never.bind fun len => (readBytes_never len).bind fun _ => .pure _

lemma invalid_never {α : Type} (message : String) :
    Never .panic (Parser.fail (.invalid message) : Read α) :=
  .fail fun h => by cases h

/-- No scalar panics. -/
lemma readValueTyped_never {ty : ℕ} (h : GgufType.ofCode ty ≠ some .array) :
    Never .panic (Gguf.readValueTyped .nothing version 1 ty) := by
  unfold Gguf.readValueTyped
  cases htag : GgufType.ofCode ty with
  | none => exact invalid_never _
  | some tag =>
    cases tag with
    | array => exact absurd htag h
    | string => exact readString_never.bind fun _ => .pure _
    | _ => exact (readLe_never _).bind fun _ => .pure _

lemma readValueTyped_blames (hnesting : admits .nesting = false) (depth : ℕ) :
    ∀ ty, Blames admits .panic (readValueTyped version depth ty) := by
  induction depth with
  | zero => exact fun ty => .refused hnesting _
  | succ depth ih =>
    intro ty
    unfold readValueTyped
    by_cases harray : GgufType.ofCode ty = some .array
    · rw [if_pos harray]
      refine (Blames.lift (readLe_never 4)).bind fun innerTy =>
        (Blames.lift readCount_never).bind fun n => (Blames.ask _).bind fun _ =>
          .bind ?_ fun _ => .pure _
      exact .loop (fun out => (ih innerTy).bind fun _ => .pure _) n []
    · rw [if_neg harray]
      exact .lift (readValueTyped_never harray)

lemma readEntry_blames (hnesting : admits .nesting = false) (stack : ℕ)
    (metadata : Table GgufValue) : Blames admits .panic (readEntry stack version metadata) := by
  refine (Blames.lift readString_never).bind fun key => .bind ?_ fun _ => .pure _
  exact (Blames.lift (readLe_never 4)).bind fun ty => readValueTyped_blames hnesting stack ty

lemma elems_blames (shape : List ℕ) : Blames admits .panic (elems shape) := by
  have hfold : ∀ (shape : List ℕ) (total : ℕ), Blames admits .panic (shape.foldlM
      (fun total d => do
        ask (.product (total*d))
        return total*d) total : Meter ℕ) := by
    intro shape
    induction shape with
    | nil => exact fun total => .pure total
    | cons d shape ih =>
      intro total
      rw [List.foldlM_cons]
      exact ((Blames.ask _).bind fun _ => .pure _).bind ih
  exact hfold shape 1

lemma readTensor_blames (tensors : Table GgufTensorInfo) :
    Blames admits .panic (readTensor version tensors) := by
  refine (Blames.lift readString_never).bind fun name => (Blames.lift (readLe_never 4)).bind
    fun nDims => (Blames.ask _).bind fun _ => .bind (.lift ?_) fun shape =>
      (Blames.lift (readLe_never 4)).bind fun ggmlDtype => (Blames.lift (readLe_never 8)).bind
        fun _ => .bind (.bind (elems_blames shape) fun total => .lift ?_) fun _ => .pure _
  · refine Never.loop (fun s => Never.bind ?_ fun _ => .pure _) nDims []
    split_ifs
    · exact readLe_never 4
    · exact readLe_never 8
  · cases dtypeBytes ggmlDtype total with
    | none => exact invalid_never _
    | some byteLen => exact .pure _

/-- No other step of the parser panics. -/
theorem readHeader_blames (hnesting : admits .nesting = false) (stack : ℕ) :
    Blames admits .panic (readHeader stack) := by
  refine (Blames.lift ?_).bind fun _ => (Blames.lift ?_).bind fun version =>
    (Blames.lift readCount_never).bind fun tensorCount => (Blames.lift readCount_never).bind
      fun kvCount => (Blames.ask _).bind fun _ =>
        (Blames.loop (readEntry_blames hnesting stack) kvCount []).bind fun _ =>
          (Blames.ask _).bind fun _ => (Blames.loop readTensor_blames tensorCount []).bind
            fun _ => .pure _
  · refine (readBytes_never 4).bind fun magic => ?_
    split_ifs
    · exact invalid_never _
    · exact .pure _
  · refine (readLe_never 4).bind fun version => ?_
    split_ifs
    · exact invalid_never _
    · exact .pure _

end Blame

end Meter

/-- The parser panics exactly when the machine refuses a demand of the header. -/
theorem parse_eq_panic (runtime : Runtime) (hchecks : runtime.overflowChecks = true)
    (bytes : List UInt8) : GgufFile.parse runtime bytes = .error .panic ↔
      ¬ ∀ d ∈ demands runtime.stack bytes, runtime.admits d = true := by
  unfold demands
  rw [← Metered.run_eq_stop (Meter.readHeader_blames rfl runtime.stack),
    Meter.run_readHeader runtime hchecks]
  unfold GgufFile.parse
  cases readHeader runtime bytes 0 with
  | error e => exact ⟨fun h => congrArg _ (Except.error.inj h),fun h => congrArg _ (Except.error.inj h)⟩
  | ok found =>
    dsimp only
    split_ifs
    · exact iff_of_false (fun h => by cases h) fun h => by cases h
    · exact iff_of_false (fun h => by cases h) fun h => by cases h

end MicroExpertRouter.Gguf
