import MicroExpertRouter.Lib.Writes

/-! A matrix stored row after row, and its product with a vector. -/
namespace RowMajor
open scoped BigOperators

section Rows
variable {rows cols row : ℕ}

/-- The places of a row. -/
lemma filter_row (hcols : 0<cols) (hrow : row<rows) :
    ((List.range (rows*cols)).filter fun n => n/cols = row) =
      (List.range cols).map (row*cols+·) := by
  induction rows with
  | zero => exact absurd hrow (Nat.not_lt_zero _)
  | succ rows ih =>
    have hplace : ∀ i, i<cols → (rows*cols+i)/cols = rows := by
      intro i hi
      rw [Nat.mul_comm, Nat.mul_add_div hcols, Nat.div_eq_of_lt hi, Nat.add_zero]
    rw [Nat.succ_mul, List.range_add, List.filter_append, List.filter_map]
    obtain hlt | rfl := Nat.lt_or_eq_of_le (Nat.le_of_lt_succ hrow)
    · have hlast : ((List.range cols).filter ((fun n => decide (n/cols = row)) ∘ (rows*cols+·))) =
          [] := by
        apply List.filter_eq_nil_iff.mpr
        intro i hi
        simp [hplace i (List.mem_range.mp hi), hlt.ne']
      rw [ih hlt, hlast, List.map_nil, List.append_nil]
    · have hfirst : ((List.range (row*cols)).filter fun n => decide (n/cols = row)) = [] := by
        apply List.filter_eq_nil_iff.mpr
        intro n hn
        have hless : n/cols<row := Nat.div_lt_of_lt_mul (by
          rw [Nat.mul_comm]
          exact List.mem_range.mp hn)
        simp [hless.ne]
      have hall : ((List.range cols).filter ((fun n => decide (n/cols = row)) ∘ (row*cols+·))) =
          List.range cols := by
        apply List.filter_eq_self.mpr
        intro i hi
        simp [hplace i (List.mem_range.mp hi)]
      rw [hfirst, hall, List.nil_append]

end Rows

section Sum
variable {α : Type*} [AddCommMonoid α]

lemma sum_map_range (n : ℕ) (f : ℕ → α) :
    ((List.range n).map f).sum = ∑ i ∈ Finset.range n, f i := by
  induction n with
  | zero => rfl
  | succ n ih =>
    rw [List.range_succ, List.map_append, List.sum_append, ih, Finset.sum_range_succ]
    simp

/-- The terms of a matrix, each added to the entry of its row. -/
theorem accumulate_rows (rows cols : ℕ) (f : ℕ → α) :
    Writes.accumulate (List.replicate rows 0)
        ((List.range (rows*cols)).map fun n => (n/cols,f n)) =
      (List.range rows).map fun row => ∑ col ∈ Finset.range cols, f (row*cols+col) := by
  apply List.ext_getElem?
  intro row
  rw [Writes.getElem?_accumulate]
  by_cases hrow : row<rows
  · obtain rfl | hcols := Nat.eq_zero_or_pos cols
    · simp [hrow]
    · have hterms : ((((List.range (rows*cols)).map fun n => (n/cols,f n)).filter
          fun term => term.1 = row).map Prod.snd) =
          (List.range cols).map fun col => f (row*cols+col) := by
        rw [List.filter_map, List.map_map]
        have hfilter := filter_row hcols hrow
        simp only [Function.comp_def] at hfilter ⊢
        rw [hfilter, List.map_map]
        rfl
      rw [hterms, sum_map_range]
      simp [hrow]
  · simp [hrow]

end Sum

section Product
variable {α : Type*} [CommSemiring α]

/-- `x[i]`. -/
def entry (x : List α) (i : ℕ) : α := x.getD i 0

/-- The product of a matrix with a vector. -/
def product (rows cols : ℕ) (weight : ℕ → α) (x : List α) : List α :=
  (List.range rows).map fun row => ∑ col ∈ Finset.range cols, weight (row*cols+col)*entry x col

@[simp] lemma length_product (rows cols : ℕ) (weight : ℕ → α) (x : List α) :
    (product rows cols weight x).length = rows := by
  simp [product]

/-- The product, one element of the matrix after the other. -/
theorem accumulate_product (rows cols : ℕ) (weight : ℕ → α) (x : List α) :
    Writes.accumulate (List.replicate rows 0) ((List.range (rows*cols)).map fun n =>
      (n/cols,weight n*entry x (n % cols))) = product rows cols weight x := by
  rw [accumulate_rows]
  refine List.map_congr_left fun row _ => Finset.sum_congr rfl fun col hcol => ?_
  have hmod : (row*cols+col) % cols = col := by
    rw [Nat.mul_comm, Nat.mul_add_mod, Nat.mod_eq_of_lt (Finset.mem_range.mp hcol)]
  rw [hmod]

variable {rows cols : ℕ} {a b : ℕ → α}

lemma product_congr (h : ∀ n, n<rows*cols → a n = b n) (x : List α) :
    product rows cols a x = product rows cols b x := by
  apply List.map_congr_left
  intro row hrow
  apply Finset.sum_congr rfl
  intro col hcol
  have hplace : row*cols+col<rows*cols := by
    have hrow := List.mem_range.mp hrow
    have hcol := Finset.mem_range.mp hcol
    calc row*cols+col<row*cols+cols := by omega
      _ = (row+1)*cols := (Nat.succ_mul row cols).symm
      _ ≤ rows*cols := Nat.mul_le_mul_right cols hrow
  rw [h _ hplace]

/-- A vector with one entry. -/
def unit (cols col : ℕ) : List α := (List.range cols).map fun i => if i = col then 1 else 0

@[simp] lemma length_unit (cols col : ℕ) : (unit cols col : List α).length = cols := by
  simp [unit]

lemma entry_unit {col i : ℕ} (hi : i<cols) :
    entry (unit cols col : List α) i = if i = col then 1 else 0 := by
  simp [entry, unit, hi]

lemma product_unit {col : ℕ} (hcol : col<cols) (weight : ℕ → α) :
    product rows cols weight (unit cols col) =
      (List.range rows).map fun row => weight (row*cols+col) := by
  apply List.map_congr_left
  intro row _
  have hterm : ∀ i ∈ Finset.range cols, weight (row*cols+i)*entry (unit cols col : List α) i =
      if i = col then weight (row*cols+col) else 0 := by
    intro i hi
    rw [entry_unit (Finset.mem_range.mp hi)]
    split_ifs with hindex
    · rw [hindex, mul_one]
    · rw [mul_zero]
  rw [Finset.sum_congr rfl hterm, Finset.sum_ite_eq', if_pos (Finset.mem_range.mpr hcol)]

/-- Matrices with the same products are the same. -/
theorem product_eq_iff : (∀ x : List α, x.length = cols →
      product rows cols a x = product rows cols b x) ↔ ∀ n, n<rows*cols → a n = b n := by
  constructor
  · intro h n hn
    have hcols : 0<cols := Nat.pos_of_lt_mul_left hn
    have hcol := Nat.mod_lt n hcols
    have hrow : n/cols<rows := Nat.div_lt_of_lt_mul (by rwa [Nat.mul_comm])
    have hproduct := h (unit cols (n % cols)) (length_unit _ _)
    rw [product_unit hcol, product_unit hcol] at hproduct
    have hentry := congrArg (·[n/cols]?) hproduct
    simpa [hrow, Nat.div_add_mod'] using hentry
  · exact fun h x _ => product_congr h x

end Product

end RowMajor
