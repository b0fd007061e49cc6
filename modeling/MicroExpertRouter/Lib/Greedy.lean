import Mathlib.Data.List.Forall2
import Mathlib.Tactic

/-! Units bought one at a time for several holders: always the cheapest next unit, for the first
holder among equals, until no next unit can be paid. -/
namespace MicroExpertRouter.Greedy

section Lists
variable {shares : List ℕ} {i k v : ℕ}

lemma sum_map_set (f : ℕ → ℕ) (h : shares[i]? = some k) :
    ((shares.set i v).map f).sum+f k = (shares.map f).sum+f v := by
  induction shares generalizing i with
  | nil => simp at h
  | cons share shares ih =>
    cases i with
    | zero =>
      cases h
      simp only [List.set_cons_zero, List.map_cons, List.sum_cons]
      omega
    | succ i =>
      simp only [List.set_cons_succ, List.map_cons, List.sum_cons]
      have := ih h
      omega

lemma forall₂_set (h : shares[i]? = some k) (hle : k ≤ v) :
    List.Forall₂ (· ≤ ·) shares (shares.set i v) := by
  induction shares generalizing i with
  | nil => simp at h
  | cons share shares ih =>
    cases i with
    | zero =>
      cases h
      exact .cons hle (List.forall₂_same.mpr fun _ _ => le_rfl)
    | succ i => exact .cons le_rfl (ih h)

lemma forall₂_le_trans {a b c : List ℕ} (hab : List.Forall₂ (· ≤ ·) a b)
    (hbc : List.Forall₂ (· ≤ ·) b c) : List.Forall₂ (· ≤ ·) a c := by
  induction hab generalizing c with
  | nil =>
    cases hbc
    exact .nil
  | cons h _ ih =>
    cases hbc with
    | cons h' hrest => exact .cons (h.trans h') (ih hrest)

end Lists

variable {cost : ℕ → ℕ} {full : ℕ}

/-- The holder to buy for, and how much it holds. -/
structure Cheapest (cost : ℕ → ℕ) (full : ℕ) (shares : List ℕ) (i k : ℕ) : Prop where
  held : shares[i]? = some k
  room : k<full
  least : ∀ j other, shares[j]? = some other → other<full →
    cost k<cost other ∨ cost k = cost other ∧ i ≤ j

lemma Cheapest.unique {shares : List ℕ} {i j k other : ℕ} (h : Cheapest cost full shares i k)
    (h' : Cheapest cost full shares j other) : i = j ∧ k = other := by
  have hij : i = j := by
    have hleft := h.least j other h'.held h'.room
    have hright := h'.least i k h.held h.room
    omega
  subst hij
  exact ⟨rfl,Option.some.inj (h.held.symm.trans h'.held)⟩

lemma exists_cheapest {shares : List ℕ} (h : ∃ k ∈ shares, k<full) :
    ∃ i k, Cheapest cost full shares i k := by
  induction shares with
  | nil =>
    obtain ⟨k,hk,-⟩ := h
    cases hk
  | cons share shares ih =>
    -- Without room the first holder is passed over; with room it competes with the rest.
    by_cases hrest : ∃ k ∈ shares, k<full
    · obtain ⟨i,k,hbest⟩ := ih hrest
      by_cases hfirst : share<full ∧ cost share ≤ cost k
      · refine ⟨0,share,rfl,hfirst.1,fun j other hother hroom => ?_⟩
        cases j with
        | zero =>
          cases hother
          exact .inr ⟨rfl,le_rfl⟩
        | succ j =>
          have := hbest.least j other hother hroom
          omega
      · refine ⟨i+1,k,hbest.held,hbest.room,fun j other hother hroom => ?_⟩
        cases j with
        | zero =>
          cases hother
          exact .inl (Nat.not_le.mp fun hle => hfirst ⟨hroom,hle⟩)
        | succ j =>
          have := hbest.least j other hother hroom
          omega
    · obtain ⟨k,hk,hroom⟩ := h
      rcases List.mem_cons.mp hk with rfl | hk
      · refine ⟨0,k,rfl,hroom,fun j other hother hother' => ?_⟩
        cases j with
        | zero =>
          cases hother
          exact .inr ⟨rfl,le_rfl⟩
        | succ j => exact absurd ⟨other,List.mem_of_getElem? hother,hother'⟩ hrest
      · exact absurd ⟨k,hk,hroom⟩ hrest

/-- A run from some money and some shares, to the shares and the money that remain. -/
inductive Run (cost : ℕ → ℕ) (full : ℕ) : ℕ → List ℕ → List ℕ → ℕ → Prop
  | stop {money : ℕ} {shares : List ℕ} (unpaid : ∀ k ∈ shares, k<full → money<cost k) :
    Run cost full money shares shares money
  | buy {money i k left : ℕ} {shares last : List ℕ} (best : Cheapest cost full shares i k)
    (paid : cost k ≤ money) (tail : Run cost full (money-cost k) (shares.set i (k+1)) last left) :
    Run cost full money shares last left

namespace Run
variable {money left : ℕ} {shares last : List ℕ}

lemma le (h : Run cost full money shares last left) : List.Forall₂ (· ≤ ·) shares last := by
  induction h with
  | stop _ => exact List.forall₂_same.mpr fun _ _ => le_rfl
  | buy best _ _ ih => exact forall₂_le_trans (forall₂_set best.held (Nat.le_succ _)) ih

lemma le_full (h : Run cost full money shares last left) (hshares : ∀ k ∈ shares, k ≤ full) :
    ∀ k ∈ last, k ≤ full := by
  induction h with
  | stop _ => exact hshares
  | buy best _ _ ih =>
    refine ih fun other hother => ?_
    rcases List.mem_or_eq_of_mem_set hother with hother | rfl
    · exact hshares other hother
    · exact best.room

/-- At the end no next unit can be paid. -/
lemma maximal (h : Run cost full money shares last left) :
    ∀ k ∈ last, k<full → left<cost k := by
  induction h with
  | stop unpaid => exact unpaid
  | buy _ _ _ ih => exact ih

/-- The money goes into the shares. -/
lemma spent {price : ℕ → ℕ} (hprice : ∀ k, k<full → price (k+1) = price k+cost k)
    (h : Run cost full money shares last left) :
    left+(last.map price).sum = money+(shares.map price).sum := by
  induction h with
  | stop _ => rfl
  | @buy money i k left shares last best paid _ ih =>
    have hset := sum_map_set price best.held (v := k+1)
    rw [hprice k best.room] at hset
    omega

/-- More money buys at least as much for every holder. -/
theorem mono {more left' : ℕ} {last' : List ℕ} (h : Run cost full money shares last left)
    (h' : Run cost full more shares last' left') (hmore : money ≤ more) :
    List.Forall₂ (· ≤ ·) last last' := by
  induction h generalizing more with
  | stop _ => exact h'.le
  | @buy money i k left shares last best paid _ ih =>
    cases h' with
    | stop unpaid =>
      have := unpaid k (List.mem_of_getElem? best.held) best.room
      omega
    | buy best' _ tail' =>
      obtain ⟨rfl,rfl⟩ := best.unique best'
      exact ih tail' (Nat.sub_le_sub_right hmore _)

end Run

/-- There is a run from every state. -/
theorem exists_run (cost : ℕ → ℕ) (full money : ℕ) (shares : List ℕ) :
    ∃ last left, Run cost full money shares last left := by
  generalize hroom : (shares.map fun k => full-k).sum = room
  induction room using Nat.strong_induction_on generalizing money shares with
  | _ room ih =>
    by_cases hpaid : ∃ k ∈ shares, k<full ∧ cost k ≤ money
    · obtain ⟨k,hk,hfull,hcost⟩ := hpaid
      obtain ⟨i,best,hbest⟩ := @exists_cheapest cost full shares ⟨k,hk,hfull⟩
      obtain ⟨j,hj⟩ := List.mem_iff_getElem?.mp hk
      have hleast := hbest.least j k hj hfull
      have hset := sum_map_set (fun k => full-k) hbest.held (v := best+1)
      have hbestRoom := hbest.room
      obtain ⟨last,left,hrun⟩ := ih _ (by omega) (money-cost best) (shares.set i (best+1)) rfl
      exact ⟨last,left,.buy hbest (by omega) hrun⟩
    · refine ⟨shares,money,.stop fun k hk hfull => ?_⟩
      by_contra hcost
      exact hpaid ⟨k,hk,hfull,Nat.not_lt.mp hcost⟩

section Full
variable {price : ℕ → ℕ} {money left : ℕ} {shares last : List ℕ}

lemma price_mono (hprice : ∀ k, k<full → price (k+1) = price k+cost k) {few many : ℕ}
    (hle : few ≤ many) (hmany : many ≤ full) : price few ≤ price many := by
  induction many, hle using Nat.le_induction with
  | base => exact le_rfl
  | succ many hle ih =>
    rw [hprice many hmany]
    exact (ih (Nat.le_of_succ_le hmany)).trans (Nat.le_add_right _ _)

/-- When the next units of the first holder are never dearer than those of the others, the run
buys for it alone until it is full. -/
theorem Run.head_full_iff (hprice : ∀ k, k<full → price (k+1) = price k+cost k) {first : ℕ}
    {others : List ℕ} (hrun : Run cost full money (first::others) last left) (hfirst : first ≤ full)
    (hothers : ∀ k ∈ others, k<full)
    (hcheap : ∀ k ∈ others, ∀ n, first ≤ n → n<full → cost n ≤ cost k) :
    (∃ k ∈ last, full ≤ k) ↔ price full-price first ≤ money := by
  generalize hshares : first::others = shares at hrun
  induction hrun generalizing first with
  | @stop money shares unpaid =>
    subst hshares
    rcases hfirst.lt_or_eq with hlt | rfl
    · have hunpaid := unpaid first List.mem_cons_self hlt
      have hnext := price_mono hprice (Nat.succ_le_of_lt hlt) le_rfl
      rw [hprice first hlt] at hnext
      refine iff_of_false ?_ (by omega)
      rintro ⟨k,hk,hfull⟩
      rcases List.mem_cons.mp hk with rfl | hk
      · omega
      · exact absurd (hothers k hk) (Nat.not_lt.mpr hfull)
    · exact iff_of_true ⟨_,List.mem_cons_self,le_rfl⟩ (by omega)
  | @buy money i k left shares last best paid tail ih =>
    subst hshares
    rcases hfirst.lt_or_eq with hlt | rfl
    · have hbest : Cheapest cost full (first::others) 0 first := by
        refine ⟨rfl,hlt,fun j other hother _ => ?_⟩
        cases j with
        | zero =>
          cases hother
          exact .inr ⟨rfl,le_rfl⟩
        | succ j =>
          have := hcheap other (List.mem_of_getElem? hother) first le_rfl hlt
          omega
      obtain ⟨rfl,rfl⟩ := best.unique hbest
      have hnext := price_mono hprice (Nat.succ_le_of_lt hlt) le_rfl
      rw [ih (Nat.succ_le_of_lt hlt) (fun k hk n hn => hcheap k hk n (Nat.le_of_succ_le hn)) rfl]
      rw [hprice k hlt] at hnext ⊢
      omega
    · have hle := (Run.buy best paid tail).le
      cases hle with
      | cons hfull _ => exact iff_of_true ⟨_,List.mem_cons_self,hfull⟩ (by omega)

/-- When every holder has a cheaper unit first, the run buys these before it fills a holder. -/
theorem Run.row_full_iff (hprice : ∀ k, k<full → price (k+1) = price k+cost k) {base done waiting : ℕ}
    (hrun : Run cost full money (List.replicate done (base+1)++List.replicate waiting base) last left)
    (hsome : 0<done+waiting) (hroom : base+1<full) (hcheaper : cost base<cost (base+1))
    (hdear : ∀ n, base<n → n<full → cost n ≤ cost (base+1)) :
    (∃ k ∈ last, full ≤ k) ↔ waiting*cost base+(price full-price (base+1)) ≤ money := by
  induction waiting generalizing done money with
  | zero =>
    obtain ⟨done,rfl⟩ := Nat.exists_eq_succ_of_ne_zero (Nat.ne_of_gt hsome)
    rw [List.replicate_zero, List.append_nil, List.replicate_succ] at hrun
    rw [hrun.head_full_iff hprice hroom.le (fun k hk => by rwa [List.eq_of_mem_replicate hk])
      fun k hk n hn hfull => by
        rw [List.eq_of_mem_replicate hk]
        exact hdear n hn hfull]
    omega
  | succ waiting ih =>
    have hbase : base<full := Nat.lt_of_succ_lt hroom
    have hplace : (List.replicate done (base+1)++List.replicate (waiting+1) base)[done]? =
        some base := by
      rw [List.getElem?_append_right (by simp)]
      simp
    cases hrun with
    | stop unpaid =>
      have hunpaid := unpaid base (List.mem_of_getElem? hplace) hbase
      rw [Nat.succ_mul]
      refine iff_of_false ?_ (by omega)
      rintro ⟨k,hk,hfull⟩
      rcases List.mem_append.mp hk with hk | hk
      · rw [List.eq_of_mem_replicate hk] at hfull
        omega
      · rw [List.eq_of_mem_replicate hk] at hfull
        omega
    | buy best paid tail =>
      have hbest : Cheapest cost full (List.replicate done (base+1)++List.replicate (waiting+1) base)
          done base := by
        refine ⟨hplace,hbase,fun j other hother _ => ?_⟩
        rw [List.getElem?_append, List.length_replicate] at hother
        split_ifs at hother with hj
        · rw [List.eq_of_mem_replicate (List.mem_of_getElem? hother)]
          exact .inl hcheaper
        · rw [List.eq_of_mem_replicate (List.mem_of_getElem? hother)]
          exact .inr ⟨rfl,Nat.not_lt.mp hj⟩
      obtain ⟨rfl,rfl⟩ := best.unique hbest
      rename_i i k
      have hset : (List.replicate i (k+1)++List.replicate (waiting+1) k).set i (k+1) =
          List.replicate (i+1) (k+1)++List.replicate waiting k := by
        rw [List.set_append_right _ _ (by simp), List.length_replicate, Nat.sub_self,
          List.replicate_succ, List.set_cons_zero, List.replicate_succ', List.append_assoc]
        rfl
      rw [hset] at tail
      rw [ih tail (by omega), Nat.succ_mul]
      omega

end Full

end MicroExpertRouter.Greedy
