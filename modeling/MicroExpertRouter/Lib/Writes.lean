import Mathlib.Tactic

/-! A buffer that is written entry by entry, and one whose entries are added to. -/
namespace Writes

section Write
variable {α : Type*}

/-- The entries are written one after the other. -/
def writeAll (buffer : List α) (writes : List (ℕ × α)) : List α :=
  writes.foldl (fun buffer write => buffer.set write.1 write.2) buffer

@[simp] lemma writeAll_nil (buffer : List α) : writeAll buffer [] = buffer := rfl

@[simp] lemma writeAll_append (buffer : List α) (a b : List (ℕ × α)) :
    writeAll buffer (a++b) = writeAll (writeAll buffer a) b := by
  simp [writeAll]

@[simp] lemma length_writeAll (writes : List (ℕ × α)) : ∀ buffer : List α,
    (writeAll buffer writes).length = buffer.length := by
  induction writes with
  | nil => exact fun _ => rfl
  | cons write writes ih =>
    intro buffer
    exact (ih _).trans List.length_set

/-- What is written at an index that only one value is written to. -/
lemma getElem?_writeAll {f : ℕ → α} (writes : List (ℕ × α)) (hagree : ∀ write ∈ writes,
    write.2 = f write.1) (n : ℕ) : ∀ buffer : List α, n<buffer.length →
      (n ∈ writes.map Prod.fst ∨ buffer[n]? = some (f n)) →
        (writeAll buffer writes)[n]? = some (f n) := by
  induction writes with
  | nil =>
    intro buffer _ h
    simpa using h
  | cons write writes ih =>
    intro buffer hn h
    have hfirst := hagree write List.mem_cons_self
    refine ih (fun write hwrite => hagree write (List.mem_cons_of_mem _ hwrite))
      (buffer.set write.1 write.2) (by simpa using hn) ?_
    by_cases hindex : write.1 = n
    · right
      rw [hindex, List.getElem?_set_self hn, hfirst, hindex]
    · rw [List.getElem?_set_ne hindex]
      rw [List.map_cons, List.mem_cons] at h
      obtain (heq | hmem) | hold := h
      · exact absurd heq.symm hindex
      · exact .inl hmem
      · exact .inr hold

/-- A buffer all of whose entries are written. -/
theorem writeAll_eq_map {f : ℕ → α} {writes : List (ℕ × α)} {buffer : List α}
    (hagree : ∀ write ∈ writes, write.2 = f write.1)
    (hcover : ∀ n, n<buffer.length → n ∈ writes.map Prod.fst) :
    writeAll buffer writes = (List.range buffer.length).map f := by
  refine List.ext_getElem? fun n => ?_
  by_cases hn : n<buffer.length
  · rw [getElem?_writeAll writes hagree n buffer hn (.inl (hcover n hn))]
    simp [hn]
  · rw [List.getElem?_eq_none (by rw [length_writeAll]; omega)]
    simp [hn]

/-- Values written from an index on, with the index behind them. -/
def writeRun (buffer : List α) (out : ℕ) (values : List α) : ℕ × List α :=
  values.foldl (fun state value => (state.1+1,state.2.set state.1 value)) (out,buffer)

lemma writeRun_eq (values : List α) : ∀ (buffer : List α) (out : ℕ), writeRun buffer out values =
    (out+values.length,writeAll buffer ((values.zipIdx out).map Prod.swap)) := by
  induction values with
  | nil => exact fun _ _ => rfl
  | cons value values ih =>
    intro buffer out
    have hstep : writeRun buffer out (value::values) =
      writeRun (buffer.set out value) (out+1) values := rfl
    rw [hstep, ih, List.zipIdx_cons, List.length_cons, Nat.add_right_comm, Nat.add_assoc]
    rfl

lemma writeRun_map (f : ℕ → α) (len : ℕ) (buffer : List α) (out : ℕ) :
    writeRun buffer out ((List.range len).map f) =
      (out+len,writeAll buffer ((List.range len).map fun i => (out+i,f i))) := by
  rw [writeRun_eq, List.length_map, List.length_range]
  congr 2
  apply List.ext_getElem?
  intro i
  by_cases hi : i<len
  · simp [hi]
  · simp [hi]

/-- A block of a buffer is replaced. -/
def writeBlock (size : ℕ) (write : List α → List α) (buffer : List α) (block : ℕ) : List α :=
  buffer.take (block*size)++write ((buffer.drop (block*size)).take size)++
    buffer.drop ((block+1)*size)

/-- The first blocks written one after the other. -/
lemma foldl_writeBlock {size : ℕ} {write : ℕ → List α → List α} {f : ℕ → α} {buffer : List α}
    (k : ℕ) (hsize : k*size ≤ buffer.length) (hwrite : ∀ block, block<k → ∀ old : List α,
      old.length = size → write block old = (List.range size).map fun i => f (block*size+i)) :
    (List.range k).foldl (fun buffer block => writeBlock size (write block) buffer block) buffer =
      (List.range (k*size)).map f++buffer.drop (k*size) := by
  induction k with
  | zero => simp
  | succ k ih =>
    rw [Nat.succ_mul] at hsize
    have hlen : ((List.range (k*size)).map f).length = k*size := by simp
    have hold : ((buffer.drop (k*size)).take size).length = size := by
      rw [List.length_take, List.length_drop]
      omega
    have hrest : ((List.range (k*size)).map f++buffer.drop (k*size)).drop ((k+1)*size) =
        buffer.drop ((k+1)*size) := by
      rw [Nat.succ_mul, ← List.drop_drop, List.drop_left' hlen, List.drop_drop]
    rw [List.range_succ, List.foldl_append,
      ih (by omega) fun block hblock => hwrite block (by omega), List.foldl_cons, List.foldl_nil]
    unfold writeBlock
    rw [List.take_left' hlen, List.drop_left' hlen, hwrite k (by omega) _ hold, hrest, Nat.succ_mul,
      List.range_add, List.map_append, List.map_map]
    rfl

end Write

section Accumulate
variable {α : Type*} [AddCommMonoid α]

/-- Values added to entries one after the other. -/
def accumulate (buffer : List α) (terms : List (ℕ × α)) : List α :=
  terms.foldl (fun buffer term => buffer.modify term.1 (·+term.2)) buffer

@[simp] lemma length_accumulate (terms : List (ℕ × α)) : ∀ buffer : List α,
    (accumulate buffer terms).length = buffer.length := by
  induction terms with
  | nil => exact fun _ => rfl
  | cons term terms ih =>
    intro buffer
    exact (ih _).trans (List.length_modify _ _ _)

lemma accumulate_append (buffer : List α) (a b : List (ℕ × α)) :
    accumulate buffer (a++b) = accumulate (accumulate buffer a) b := by
  simp [accumulate]

/-- Each entry gets the sum of the terms for it. -/
lemma getElem?_accumulate (terms : List (ℕ × α)) (n : ℕ) : ∀ buffer : List α,
    (accumulate buffer terms)[n]? = buffer[n]?.map
      (·+((terms.filter fun term => term.1 = n).map Prod.snd).sum) := by
  induction terms with
  | nil => simp [accumulate]
  | cons term terms ih =>
    intro buffer
    have hstep : accumulate buffer (term::terms) =
      accumulate (buffer.modify term.1 (·+term.2)) terms := rfl
    rw [hstep, ih, List.getElem?_modify]
    by_cases hindex : term.1 = n
    · simp [hindex, Function.comp_def, add_assoc]
    · simp [hindex]

end Accumulate

end Writes
