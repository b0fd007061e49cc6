import Mathlib.Data.Finset.Card
import Mathlib.Data.Finset.Lattice.Basic
import Mathlib.Data.List.Nodup
import Mathlib.Tactic

/-! Demand paging with simultaneous set accesses. Every access names a finite set of
pages that must be resident together; a schedule pays one install for each page that
becomes resident. Farthest-next-use is compared with an arbitrary demand schedule and,
access by access, with recency. -/
namespace MicroExpertRouter.Paging

variable {α : Type*} [DecidableEq α]

/-- Pages named by the first `n` accesses that are still to come. -/
def usedWithin (rest : List (Finset α)) (n : ℕ) : Finset α :=
  (rest.take n).foldr (· ∪ ·) ∅

@[simp] lemma usedWithin_zero (rest : List (Finset α)) : usedWithin rest 0 = ∅ := by
  simp [usedWithin]

@[simp] lemma usedWithin_nil (n : ℕ) : usedWithin ([] : List (Finset α)) n = ∅ := by
  simp [usedWithin]

@[simp] lemma usedWithin_cons_succ (A : Finset α) (rest : List (Finset α)) (n : ℕ) :
    usedWithin (A::rest) (n+1) = A ∪ usedWithin rest n := by
  simp [usedWithin]

/-- The next use of `g` comes no later than the next use of `e`. -/
def NoLater (rest : List (Finset α)) (g e : α) : Prop :=
  ∀ n, e ∈ usedWithin rest n → g ∈ usedWithin rest n

/-- Pages outside the served access keep their order of next use. -/
lemma NoLater.tail {A : Finset α} {rest : List (Finset α)} {g e : α}
    (h : NoLater (A::rest) g e) (hg : g ∉ A) : NoLater rest g e := by
  intro n he
  have hu : g ∈ A ∪ usedWithin rest n := by
    rw [← usedWithin_cons_succ]
    exact h (n+1) (by rw [usedWithin_cons_succ]; exact Finset.mem_union_right _ he)
  exact (Finset.mem_union.mp hu).resolve_left hg

/-- One served access: the whole set becomes resident, nothing else is installed. -/
structure DemandStep (capacity : ℕ) (A S T : Finset α) : Prop where
  serves : A ⊆ T
  installs : T ⊆ S ∪ A
  fits : T.card ≤ capacity

/-- A demand step that evicts only from a full store. -/
structure LazyStep (capacity : ℕ) (A S T : Finset α) : Prop extends
    DemandStep capacity A S T where
  full : T ≠ S ∪ A → T.card = capacity

/-- A lazy step whose victims are used no earlier than any unrequested survivor. -/
structure FarthestStep (capacity : ℕ) (rest : List (Finset α)) (A S T : Finset α) : Prop extends
    LazyStep capacity A S T where
  farthest : ∀ e ∈ (S ∪ A) \ T, ∀ g ∈ T \ A, NoLater rest g e

/-- A legal demand schedule: the resident sets after each served access. -/
def Legal (capacity : ℕ) : Finset α → List (Finset α) → List (Finset α) → Prop
  | _, [], [] => True
  | S, A::accesses, T::schedule => DemandStep capacity A S T ∧ Legal capacity T accesses schedule
  | _, _, _ => False

/-- Pages that become resident along a schedule, each time they do. -/
def installs : Finset α → List (Finset α) → ℕ
  | _, [] => 0
  | S, T::schedule => (T \ S).card + installs T schedule

/-- A schedule that follows farthest-next-use while knowing `later` accesses beyond its end. -/
def Farthest (capacity : ℕ) (later : List (Finset α)) :
    Finset α → List (Finset α) → List (Finset α) → Prop
  | _, [], [] => True
  | S, A::accesses, T::schedule =>
    FarthestStep capacity (accesses++later) A S T ∧ Farthest capacity later T accesses schedule
  | _, _, _ => False

namespace DemandStep
variable {capacity : ℕ} {A S T : Finset α}

lemma installed (h : DemandStep capacity A S T) : T \ S = A \ S := by
  ext x
  simp only [Finset.mem_sdiff]
  constructor
  · rintro ⟨hx,hs⟩
    exact ⟨(Finset.mem_union.mp (h.installs hx)).resolve_left hs,hs⟩
  · rintro ⟨hx,hs⟩
    exact ⟨h.serves hx,hs⟩

/-- Installs so far plus first uses still missing grow by the evicted pages that are used again. -/
lemma missing (h : DemandStep capacity A S T) (U : Finset α) :
    (T \ S).card + (U \ T).card =
      ((A ∪ U) \ S).card + (U ∩ ((S ∪ A) \ T)).card := by
  have hd : Disjoint (A \ S) (U \ (S ∪ A)) := by
    rw [Finset.disjoint_left]
    intro x hx hu
    simp only [Finset.mem_sdiff, Finset.mem_union, not_or] at hx hu
    exact hu.2.2 hx.1
  have hn : (A ∪ U) \ S = (A \ S) ∪ (U \ (S ∪ A)) := by
    ext x; simp only [Finset.mem_sdiff, Finset.mem_union, not_or]; tauto
  have he : Disjoint (U \ (S ∪ A)) (U ∩ ((S ∪ A) \ T)) := by
    rw [Finset.disjoint_left]
    intro x hx hu
    simp only [Finset.mem_sdiff, Finset.mem_union, Finset.mem_inter, not_or] at hx hu
    tauto
  have hs : U \ T = (U \ (S ∪ A)) ∪ (U ∩ ((S ∪ A) \ T)) := by
    ext x
    have hi : x ∈ T → x ∈ S ∪ A := fun hx => h.installs hx
    simp only [Finset.mem_sdiff, Finset.mem_union, Finset.mem_inter, not_or] at hi ⊢
    tauto
  rw [h.installed, hs, Finset.card_union_of_disjoint he, hn, Finset.card_union_of_disjoint hd]
  omega

end DemandStep

/-- With `m` and `o` installs paid, the store `M` is at least as good as `O` for every
horizon: the unpaid first uses up to the horizon never tip the balance. -/
def Dominates (rest : List (Finset α)) (m : ℕ) (M : Finset α) (o : ℕ) (O : Finset α) : Prop :=
  ∀ n, m + (usedWithin rest n \ M).card ≤ o + (usedWithin rest n \ O).card

lemma Dominates.le {rest : List (Finset α)} {m o : ℕ} {M O : Finset α}
    (h : Dominates rest m M o O) : m ≤ o := by
  simpa using h 0

/-- One access served by farthest-next-use on one side and by any demand step on the other. -/
theorem Dominates.step {capacity : ℕ} {A : Finset α} {rest : List (Finset α)} {m o : ℕ}
    {M N O P : Finset α} (h : Dominates (A::rest) m M o O)
    (hM : FarthestStep capacity rest A M N) (hO : DemandStep capacity A O P) :
    Dominates rest (m+(N \ M).card) N (o+(P \ O).card) P := by
  have hpaid : m+(N \ M).card ≤ o+(P \ O).card := by
    have h1 := h 1
    rw [usedWithin_cons_succ, usedWithin_zero, Finset.union_empty] at h1
    rw [hM.installed, hO.installed]
    exact h1
  intro n
  have hn := h (n+1)
  rw [usedWithin_cons_succ] at hn
  have hm := hM.missing (usedWithin rest n)
  have ho := hO.missing (usedWithin rest n)
  by_cases he : usedWithin rest n ∩ ((M ∪ A) \ N) = ∅
  · rw [he, Finset.card_empty] at hm
    omega
  · -- A victim is used again within the horizon, so every survivor is, and `N` is full.
    obtain ⟨e,hmem⟩ := Finset.nonempty_iff_ne_empty.mpr he
    obtain ⟨heU,heE⟩ := Finset.mem_inter.mp hmem
    have hsub : N ⊆ A ∪ usedWithin rest n := by
      intro g hg
      by_cases hgA : g ∈ A
      · exact Finset.mem_union_left _ hgA
      · exact Finset.mem_union_right _ (hM.farthest e heE g (Finset.mem_sdiff.mpr ⟨hg,hgA⟩) n heU)
    have hfull : N.card = capacity := by
      apply hM.full
      rintro rfl
      simp at heE
    have hcount : ∀ T : Finset α, A ⊆ T →
        usedWithin rest n \ T = (A ∪ usedWithin rest n) \ T := by
      intro T hs
      rw [Finset.union_sdiff_distrib, Finset.sdiff_eq_empty_iff_subset.mpr hs, Finset.empty_union]
    have hleft := Finset.card_sdiff_add_card_eq_card hsub
    have hright := Finset.le_card_sdiff P (A ∪ usedWithin rest n)
    rw [hcount N hM.serves, hcount P hO.serves]
    have hfit := hO.fits
    omega

/-- Farthest-next-use pays at most what any legal demand schedule pays. -/
theorem Dominates.run {capacity : ℕ} {later accesses : List (Finset α)} {m o : ℕ}
    {M O : Finset α} {chosen schedule : List (Finset α)}
    (h : Dominates (accesses++later) m M o O)
    (hM : Farthest capacity later M accesses chosen) (hO : Legal capacity O accesses schedule) :
    m+installs M chosen ≤ o+installs O schedule := by
  induction accesses generalizing m o M O chosen schedule with
  | nil =>
    cases chosen with
    | cons => simp [Farthest] at hM
    | nil =>
      have := h.le
      simp only [installs]
      omega
  | cons A accesses ih =>
    cases chosen with
    | nil => simp [Farthest] at hM
    | cons N chosen =>
      cases schedule with
      | nil => simp [Legal] at hO
      | cons P schedule =>
        obtain ⟨hMs,hMr⟩ := hM
        obtain ⟨hOs,hOr⟩ := hO
        have := ih (h.step hMs hOs) hMr hOr
        simp only [installs]
        omega

/-- The empty store dominates itself, so the bound holds from a cold start. -/
theorem farthest_installs_le {capacity : ℕ} {later accesses chosen schedule : List (Finset α)}
    (hM : Farthest capacity later ∅ accesses chosen) (hO : Legal capacity ∅ accesses schedule) :
    installs ∅ chosen ≤ installs ∅ schedule := by
  have h : Dominates (accesses++later) 0 (∅ : Finset α) 0 ∅ := fun _ => le_rfl
  simpa using h.run hM hO

/-- One access under recency: `L` lists residents from oldest to newest, the requested pages
move to the new end and the oldest of the others leave. -/
structure RecencyStep (capacity : ℕ) (A : Finset α) (L K : List α) : Prop where
  shape : ∃ k B, K = (L.filter (· ∉ A)).drop k ++ B ∧ B.toFinset = A
  nodup : K.Nodup
  lazyStep : LazyStep capacity A L.toFinset K.toFinset

/-- Dropping the oldest unrequested residents, as many as the capacity forces, is a recency step. -/
lemma RecencyStep.of_drop {capacity : ℕ} {L B ids : List α} (hL : L.Nodup) (hids : ids.Nodup)
    (hB : B.Perm ids) (hfits : ids.length ≤ capacity) :
    RecencyStep capacity ids.toFinset L
      ((L.filter (· ∉ ids)).drop ((L.filter (· ∉ ids)).length+B.length-capacity)++B) := by
  set X := L.filter (· ∉ ids) with hX
  set k := X.length+B.length-capacity with hk
  have hlen : B.length = ids.length := hB.length_eq
  have hXL : ∀ x ∈ X, x ∈ L ∧ x ∉ ids := fun x hx => by simpa [hX] using hx
  have hnodup : (X.drop k++B).Nodup := by
    rw [List.nodup_append]
    refine ⟨(hL.filter _).sublist (List.drop_sublist k X),hB.nodup_iff.mpr hids,?_⟩
    rintro x hx y hy rfl
    exact (hXL x (List.mem_of_mem_drop hx)).2 (hB.mem_iff.mp hy)
  have hlength : (X.drop k++B).length = X.length-k+B.length := by simp
  refine ⟨⟨k,B,?_,List.toFinset_eq_of_perm _ _ hB⟩,hnodup,⟨⟨?_,?_,?_⟩,?_⟩⟩
  · simp only [hX, List.mem_toFinset]
  · intro x hx
    rw [List.toFinset_append, List.toFinset_eq_of_perm _ _ hB]
    exact Finset.mem_union_right _ hx
  · intro x hx
    simp only [List.mem_toFinset, List.mem_append, Finset.mem_union] at hx ⊢
    rcases hx with hx | hx
    · exact Or.inl (hXL x (List.mem_of_mem_drop hx)).1
    · exact Or.inr (hB.mem_iff.mp hx)
  · rw [List.toFinset_card_of_nodup hnodup]
    omega
  · -- Nothing is dropped unless the store is full afterwards.
    intro hne
    rw [List.toFinset_card_of_nodup hnodup]
    by_cases hzero : k = 0
    · refine absurd ?_ hne
      ext x
      have hmem : x ∈ X ↔ x ∈ L ∧ x ∉ ids := by simp [hX]
      simp only [hzero, List.drop_zero, List.mem_toFinset, List.mem_append, Finset.mem_union,
        hmem, hB.mem_iff]
      tauto
    · omega

/-- Where recency keeps `e` and farthest-next-use does not, every page of `M` that recency
ranks behind `e` is used no later than `e`. -/
def Ahead (rest : List (Finset α)) (M : Finset α) (L : List α) : Prop :=
  ∀ older e newer, L = older++e::newer → e ∉ M → ∀ g ∈ M, g ∉ newer → NoLater rest g e

lemma split_drop_filter {β : Type*} {p : β → Bool} {k : ℕ} {L B older newer : List β} {e : β}
    (h : (L.filter p).drop k ++ B = older++e::newer) (he : e ∉ B) :
    ∃ older' newer', L = older'++e::newer' ∧
      ∀ x ∈ newer', p x = true → x ∈ newer := by
  rw [List.append_eq_append_iff] at h
  rcases h with ⟨as,hold,hB⟩ | ⟨bs,hdrop,hnew⟩
  · exact absurd (by rw [hB]; simp) he
  · cases bs with
    | nil => exact absurd (by rw [← List.nil_append B, ← hnew]; simp) he
    | cons b bs =>
      rw [List.cons_append] at hnew
      obtain ⟨rfl,rfl⟩ := List.cons.inj hnew
      have hf : L.filter p = ((L.filter p).take k++older)++e::bs := by
        rw [List.append_assoc, ← hdrop, List.take_append_drop]
      obtain ⟨l1,l2,rfl,hl1,hl2⟩ := List.filter_eq_append_iff.mp hf
      obtain ⟨m1,m2,rfl,hm1,hpe,hm2⟩ := List.filter_eq_cons_iff.mp hl2
      refine ⟨l1++m1,m2,by simp,?_⟩
      intro x hx hpx
      have : x ∈ m2.filter p := List.mem_filter.mpr ⟨hx,hpx⟩
      rw [hm2] at this
      exact List.mem_append_left _ this

theorem Ahead.step {capacity : ℕ} {A : Finset α} {rest : List (Finset α)} {M N : Finset α}
    {L K : List α} (h : Ahead (A::rest) M L)
    (hM : FarthestStep capacity rest A M N) (hL : RecencyStep capacity A L K) :
    Ahead rest N K := by
  obtain ⟨k,B,rfl,hB⟩ := hL.shape
  intro older e newer hsplit heM g hgM hgnew
  have heA : e ∉ A := fun hA => heM (hM.serves hA)
  have heB : e ∉ B := by
    rw [← List.mem_toFinset, hB]
    exact heA
  have hBnew : ∀ x ∈ B, x ∈ newer := by
    -- The requested pages are the newest entries, so they follow every unrequested one.
    rw [List.append_eq_append_iff] at hsplit
    rcases hsplit with ⟨as,_,hB'⟩ | ⟨bs,_,hnew⟩
    · exact absurd (by rw [hB']; simp) heB
    · cases bs with
      | nil => exact absurd (by rw [← List.nil_append B, ← hnew]; simp) heB
      | cons b bs =>
        rw [List.cons_append] at hnew
        intro x hx
        rw [(List.cons.inj hnew).2]
        exact List.mem_append_right _ hx
  have hgA : g ∉ A := by
    intro hA
    exact hgnew (hBnew g (by rw [← List.mem_toFinset, hB]; exact hA))
  obtain ⟨older',newer',hLsplit,hkeep⟩ := split_drop_filter hsplit heB
  have hg : g ∈ M := (Finset.mem_union.mp (hM.installs hgM)).resolve_right hgA
  by_cases heMold : e ∈ M
  · exact hM.farthest e (Finset.mem_sdiff.mpr ⟨Finset.mem_union_left _ heMold,heM⟩) g
      (Finset.mem_sdiff.mpr ⟨hgM,hgA⟩)
  · have hgold : g ∉ newer' := fun hx => hgnew (hkeep g hx (by simpa using hgA))
    exact (h older' e newer' hLsplit heMold g hg hgold).tail hgA

/-- The two stores are the same, or both are full. -/
def Level {β : Type*} (capacity : ℕ) (M L : Finset β) : Prop :=
  M = L ∨ M.card = capacity ∧ L.card = capacity

lemma Level.card_eq {β : Type*} {capacity : ℕ} {M L : Finset β} (h : Level capacity M L) :
    M.card = L.card := by
  rcases h with rfl | ⟨hM,hL⟩
  · rfl
  · rw [hM,hL]

lemma LazyStep.card_of_full {capacity : ℕ} {A S T : Finset α} (h : LazyStep capacity A S T)
    (hfull : capacity ≤ (S ∪ A).card) : T.card = capacity := by
  by_cases he : T = S ∪ A
  · have := h.fits
    rw [he] at this ⊢
    omega
  · exact h.full he

lemma LazyStep.eq_of_room {capacity : ℕ} {A S T : Finset α} (h : LazyStep capacity A S T)
    (hroom : (S ∪ A).card < capacity) : T = S ∪ A := by
  by_contra he
  have hc := h.full he
  have := Finset.card_le_card h.installs
  omega

lemma Level.step {capacity : ℕ} {A M N L K : Finset α} (h : Level capacity M L)
    (hM : LazyStep capacity A M N) (hL : LazyStep capacity A L K) : Level capacity N K := by
  rcases h with rfl | ⟨hMc,hLc⟩
  · by_cases hroom : (M ∪ A).card < capacity
    · exact Or.inl ((hM.eq_of_room hroom).trans (hL.eq_of_room hroom).symm)
    · exact Or.inr ⟨hM.card_of_full (by omega),hL.card_of_full (by omega)⟩
  · have h1 : M.card ≤ (M ∪ A).card := Finset.card_le_card Finset.subset_union_left
    have h2 : L.card ≤ (L ∪ A).card := Finset.card_le_card Finset.subset_union_left
    exact Or.inr ⟨hM.card_of_full (by omega),hL.card_of_full (by omega)⟩

/-- At every single access farthest-next-use misses at most as many pages as recency. -/
theorem Ahead.misses_le {A : Finset α} {rest : List (Finset α)} {M : Finset α} {L : List α}
    (h : Ahead (A::rest) M L) (hcard : M.card = L.toFinset.card) :
    (A \ M).card ≤ (A \ L.toFinset).card := by
  have hswap := Finset.card_sdiff_comm hcard
  have hM := Finset.card_sdiff_add_card_inter A M
  have hL := Finset.card_sdiff_add_card_inter A L.toFinset
  suffices hinter : (A ∩ L.toFinset).card ≤ (A ∩ M).card by omega
  by_cases he : ∃ e ∈ A, e ∈ L ∧ e ∉ M
  · -- A page recency hits and `M` misses is used now, so everything only `M` holds is used now.
    obtain ⟨e,heA,heL,heM⟩ := he
    obtain ⟨older,newer,hsplit⟩ := List.append_of_mem heL
    have hsub : M \ L.toFinset ⊆ A := by
      intro g hg
      obtain ⟨hgM,hgL⟩ := Finset.mem_sdiff.mp hg
      have hgn : g ∉ newer := by
        intro hx
        exact hgL (by rw [hsplit]; simp [hx])
      have hu := h older e newer hsplit heM g hgM hgn 1
      simpa using hu (by simpa using heA)
    have h1 : A ∩ L.toFinset ⊆ (A ∩ (M ∩ L.toFinset)) ∪ (L.toFinset \ M) := by
      intro x hx
      simp only [Finset.mem_inter, Finset.mem_union, Finset.mem_sdiff] at hx ⊢
      tauto
    have h2 : (A ∩ (M ∩ L.toFinset)) ∪ (M \ L.toFinset) ⊆ A ∩ M := by
      intro x hx
      rcases Finset.mem_union.mp hx with hx | hx
      · simp only [Finset.mem_inter] at hx ⊢
        tauto
      · exact Finset.mem_inter.mpr ⟨hsub hx,(Finset.mem_sdiff.mp hx).1⟩
    have hdis : Disjoint (A ∩ (M ∩ L.toFinset)) (M \ L.toFinset) := by
      rw [Finset.disjoint_left]
      intro x hx hy
      simp only [Finset.mem_inter, Finset.mem_sdiff] at hx hy
      tauto
    calc (A ∩ L.toFinset).card
        ≤ ((A ∩ (M ∩ L.toFinset)) ∪ (L.toFinset \ M)).card := Finset.card_le_card h1
      _ ≤ (A ∩ (M ∩ L.toFinset)).card+(L.toFinset \ M).card := Finset.card_union_le _ _
      _ = (A ∩ (M ∩ L.toFinset)).card+(M \ L.toFinset).card := by rw [hswap]
      _ = ((A ∩ (M ∩ L.toFinset)) ∪ (M \ L.toFinset)).card :=
          (Finset.card_union_of_disjoint hdis).symm
      _ ≤ (A ∩ M).card := Finset.card_le_card h2
  · apply Finset.card_le_card
    intro x hx
    obtain ⟨hxA,hxL⟩ := Finset.mem_inter.mp hx
    refine Finset.mem_inter.mpr ⟨hxA,?_⟩
    by_contra hxM
    exact he ⟨x,hxA,List.mem_toFinset.mp hxL,hxM⟩

end MicroExpertRouter.Paging
