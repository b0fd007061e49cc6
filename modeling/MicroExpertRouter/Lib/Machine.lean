import Mathlib.Tactic

/-! Fixed-width unsigned arithmetic on natural numbers, for a 64-bit target, and the early
return of `?`. A value of a width is a natural number below its bound; an operation that can
leave the width says how. -/
namespace MicroExpertRouter

/-- `u32::MAX`. -/
def u32Max : ℕ := 2^32-1
/-- `u64::MAX`. -/
def u64Max : ℕ := 2^64-1
/-- `usize::MAX` on a 64-bit target. -/
def usizeMax : ℕ := 2^64-1
/-- `isize::MAX` on a 64-bit target. -/
def isizeMax : ℕ := 2^63-1

/-- `a.checked_add(b)` in a width with largest value `top`. -/
def checkedAdd (top a b : ℕ) : Option ℕ := if a+b ≤ top then some (a+b) else none
/-- `a.checked_mul(b)`. -/
def checkedMul (top a b : ℕ) : Option ℕ := if a*b ≤ top then some (a*b) else none
/-- `a.checked_sub(b)`. -/
def checkedSub (a b : ℕ) : Option ℕ := if b ≤ a then some (a-b) else none
/-- `a.saturating_add(b)`. -/
def saturatingAdd (top a b : ℕ) : ℕ := min (a+b) top
/-- `a.saturating_mul(b)`. -/
def saturatingMul (top a b : ℕ) : ℕ := min (a*b) top

lemma checkedAdd_eq_some {top a b c : ℕ} :
    checkedAdd top a b = some c ↔ a+b ≤ top ∧ c = a+b := by
  unfold checkedAdd
  split_ifs with h
  · simp [h, eq_comm]
  · simp [h]

lemma checkedAdd_of_le {top a b : ℕ} (h : a+b ≤ top) : checkedAdd top a b = some (a+b) := by
  simp [checkedAdd,h]

lemma checkedMul_eq_some {top a b c : ℕ} :
    checkedMul top a b = some c ↔ a*b ≤ top ∧ c = a*b := by
  unfold checkedMul
  split_ifs with h
  · simp [h, eq_comm]
  · simp [h]

lemma checkedMul_of_le {top a b : ℕ} (h : a*b ≤ top) : checkedMul top a b = some (a*b) := by
  simp [checkedMul,h]

lemma saturatingMul_of_le {top a b : ℕ} (h : a*b ≤ top) : saturatingMul top a b = a*b :=
  Nat.min_eq_left h

lemma saturatingMul_comm_of_le {top a b : ℕ} (h : b*a ≤ top) : saturatingMul top a b = b*a := by
  rw [saturatingMul_of_le (by rwa [Nat.mul_comm]), Nat.mul_comm]

lemma checkedSub_of_le {a b : ℕ} (h : b ≤ a) : checkedSub a b = some (a-b) := by
  simp [checkedSub,h]

/-- A sequence of `?` steps returns `Ok` when every step does. -/
lemma bind_eq_ok {ε α β : Type*} {x : Except ε α} {f : α → Except ε β} {b : β} :
    x.bind f = .ok b ↔ ∃ a, x = .ok a ∧ f a = .ok b := by
  cases x with
  | error e => simp [Except.bind]
  | ok a => simp [Except.bind]

/-- The error of a sequence of `?` steps is the error of the first failing one. -/
lemma bind_eq_error {ε α β : Type*} {x : Except ε α} {f : α → Except ε β} {e : ε} :
    x.bind f = .error e ↔ x = .error e ∨ ∃ a, x = .ok a ∧ f a = .error e := by
  cases x with
  | error e => simp [Except.bind]
  | ok a => simp [Except.bind]

/-- A step on a state that returns goes on with the state it leaves. -/
lemma run_bind_ok {ε σ α β : Type} {x : EStateM ε σ α} {f : α → EStateM ε σ β} {s s' : σ} {a : α}
    (h : x s = .ok a s') : (x >>= f) s = f a s' := by
  change EStateM.bind x f s = f a s'
  rw [EStateM.bind, h]

/-- A step that fails is the last. -/
lemma run_bind_error {ε σ α β : Type} {x : EStateM ε σ α} {f : α → EStateM ε σ β} {s s' : σ} {e : ε}
    (h : x s = .error e s') : (x >>= f) s = .error e s' := by
  change EStateM.bind x f s = .error e s'
  rw [EStateM.bind, h]

/-- A loop that collects its results returns `Ok` when every turn does. -/
lemma mapM_eq_ok {ε α β : Type} {f : α → Except ε β} {xs : List α} {ys : List β} :
    xs.mapM f = .ok ys ↔ List.Forall₂ (fun x y => f x = .ok y) xs ys := by
  induction xs generalizing ys with
  | nil =>
    rw [List.mapM_nil, List.forall₂_nil_left_iff]
    exact ⟨fun h => (Except.ok.inj h).symm,fun h => congrArg _ h.symm⟩
  | cons x xs ih =>
    rw [List.mapM_cons, List.forall₂_cons_left_iff]
    constructor
    · intro h
      obtain ⟨y,hy,h⟩ := bind_eq_ok.mp h
      obtain ⟨tail,htail,h⟩ := bind_eq_ok.mp h
      exact ⟨y,tail,hy,ih.mp htail,(Except.ok.inj h).symm⟩
    · rintro ⟨y,tail,hy,htail,rfl⟩
      exact bind_eq_ok.mpr ⟨y,hy,bind_eq_ok.mpr ⟨tail,ih.mpr htail,rfl⟩⟩

/-- A loop returns `Ok` when its turns can. -/
lemma mapM_ok {ε α β : Type} {f : α → Except ε β} {xs : List α}
    (h : ∀ x ∈ xs, ∃ y, f x = .ok y) : ∃ ys, xs.mapM f = .ok ys := by
  induction xs with
  | nil => exact ⟨[],rfl⟩
  | cons x xs ih =>
    obtain ⟨hx,hxs⟩ := List.forall_mem_cons.mp h
    obtain ⟨y,hy⟩ := hx
    obtain ⟨ys,hys⟩ := ih hxs
    exact ⟨y::ys,mapM_eq_ok.mpr (.cons hy (mapM_eq_ok.mp hys))⟩

/-- A loop collects its results index by index. -/
lemma getElem_mapM_ok {ε α β : Type} {f : α → Except ε β} {xs : List α} {ys : List β}
    (h : xs.mapM f = .ok ys) (i : ℕ) {x : α} (hx : xs[i]? = some x) :
    ∃ y, ys[i]? = some y ∧ f x = .ok y := by
  have hturns := mapM_eq_ok.mp h
  obtain ⟨hi,rfl⟩ := List.getElem?_eq_some_iff.mp hx
  have hi' : i<ys.length := hturns.length_eq ▸ hi
  exact ⟨ys[i],List.getElem?_eq_getElem hi',hturns.get hi hi'⟩

/-- What a loop collects is of one of its elements. -/
lemma of_mapM_ok {ε α β : Type} {f : α → Except ε β} {xs : List α} {ys : List β}
    (h : xs.mapM f = .ok ys) {y : β} (hy : y ∈ ys) : ∃ x ∈ xs, f x = .ok y := by
  have hturns := mapM_eq_ok.mp h
  obtain ⟨i,hi,rfl⟩ := List.mem_iff_getElem.mp hy
  have hi' : i<xs.length := hturns.length_eq.symm ▸ hi
  exact ⟨xs[i],List.getElem_mem hi',hturns.get hi' hi⟩

/-- What a loop over the numbers below a bound collects, number by number. -/
lemma of_mapM_range {ε β : Type} {n : ℕ} {f : ℕ → Except ε β} {ys : List β}
    (h : (List.range n).mapM f = .ok ys) :
    ys.length = n ∧ ∀ i, i<n → ∃ y, ys[i]? = some y ∧ f i = .ok y := by
  constructor
  · rw [← (mapM_eq_ok.mp h).length_eq, List.length_range]
  · exact fun i hi => getElem_mapM_ok h i (List.getElem?_range hi)

/-- A loop whose turns all return is a map. -/
lemma mapM_eq_some {α β : Type} {g : α → Option β} {g' : α → β} {xs : List α}
    (h : ∀ x ∈ xs, g x = some (g' x)) : xs.mapM g = some (xs.map g') := by
  induction xs with
  | nil => rfl
  | cons x xs ih =>
    obtain ⟨hx,hxs⟩ := List.forall_mem_cons.mp h
    rw [List.mapM_cons, hx, ih hxs]
    rfl

lemma length_of_mapM {α β : Type} {g : α → Option β} {xs : List α} {ys : List β}
    (h : xs.mapM g = some ys) : ys.length = xs.length := by
  induction xs generalizing ys with
  | nil =>
    cases h
    rfl
  | cons x xs ih =>
    rw [List.mapM_cons] at h
    obtain ⟨y,-,h⟩ := Option.bind_eq_some_iff.mp h
    obtain ⟨rest,hrest,h⟩ := Option.bind_eq_some_iff.mp h
    cases h
    exact congrArg Nat.succ (ih hrest)

/-- What a loop collects of each of its elements. -/
lemma of_mapM_some {α β : Type} {f : α → Option β} {xs : List α} {ys : List β}
    (h : xs.mapM f = some ys) {x : α} (hx : x ∈ xs) : ∃ y ∈ ys, f x = some y := by
  induction xs generalizing ys with
  | nil => cases hx
  | cons first xs ih =>
    rw [List.mapM_cons] at h
    obtain ⟨y,hy,h⟩ := Option.bind_eq_some_iff.mp h
    obtain ⟨rest,hrest,h⟩ := Option.bind_eq_some_iff.mp h
    cases h
    obtain rfl | hx := List.mem_cons.mp hx
    · exact ⟨y,List.mem_cons_self,hy⟩
    · obtain ⟨z,hz,hsome⟩ := ih hrest hx
      exact ⟨z,List.mem_cons_of_mem y hz,hsome⟩

/-- A loop that only checks returns `Ok` when every turn does. -/
lemma forM_eq_ok {ε α : Type} {f : α → Except ε Unit} {xs : List α} :
    xs.forM f = .ok () ↔ ∀ x ∈ xs, f x = .ok () := by
  induction xs with
  | nil => exact iff_of_true rfl (List.forall_mem_nil _)
  | cons x xs ih =>
    rw [List.forall_mem_cons, ← ih]
    change (f x).bind (fun _ => xs.forM f) = .ok () ↔ _
    rw [bind_eq_ok]
    constructor
    · rintro ⟨⟨⟩,hx,hrest⟩
      exact ⟨hx,hrest⟩
    · exact fun h => ⟨(),h⟩

/-- A loop whose turns all succeed is a fold. -/
lemma foldlM_ok {ε σ α : Type} {f : σ → α → Except ε σ} {g : σ → α → σ} {xs : List α}
    (h : ∀ x ∈ xs, ∀ s, f s x = .ok (g s x)) (s : σ) : xs.foldlM f s = .ok (xs.foldl g s) := by
  induction xs generalizing s with
  | nil => rfl
  | cons x xs ih =>
    obtain ⟨hx,hrest⟩ := List.forall_mem_cons.mp h
    rw [List.foldlM_cons, hx s]
    exact ih hrest (g s x)

lemma foldlM_congr {m : Type → Type} [Monad m] {σ α : Type} {f g : σ → α → m σ} {xs : List α}
    (h : ∀ x ∈ xs, ∀ s, f s x = g s x) (s : σ) : xs.foldlM f s = xs.foldlM g s := by
  induction xs generalizing s with
  | nil => rfl
  | cons x xs ih =>
    obtain ⟨hx,hxs⟩ := List.forall_mem_cons.mp h
    rw [List.foldlM_cons, List.foldlM_cons, hx s]
    exact bind_congr fun s => ih hxs s

/-- A loop over concatenated lists is a loop in a loop. -/
lemma foldlM_flatMap {m : Type → Type} [Monad m] [LawfulMonad m] {σ α β : Type} {f : σ → β → m σ}
    {g : α → List β} (xs : List α) (s : σ) :
    (xs.flatMap g).foldlM f s = xs.foldlM (fun s x => (g x).foldlM f s) s := by
  induction xs generalizing s with
  | nil => rfl
  | cons x xs ih =>
    rw [List.flatMap_cons, List.foldlM_append, List.foldlM_cons]
    exact bind_congr fun s => ih s

end MicroExpertRouter
