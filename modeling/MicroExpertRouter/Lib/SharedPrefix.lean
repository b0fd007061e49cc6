import Mathlib.Order.Bounds.Basic
import Mathlib.Tactic

/-! The longest common prefix of two lists. -/
namespace SharedPrefix
variable {α : Type} [DecidableEq α]

/-- The number of first entries that two lists share. -/
def shared : List α → List α → ℕ
  | a::l, b::m => if a = b then shared l m+1 else 0
  | _, _ => 0

@[simp] lemma shared_nil (m : List α) : shared [] m = 0 := rfl

lemma shared_cons_self (a : α) (l m : List α) : shared (a::l) (a::m) = shared l m+1 := if_pos rfl

lemma shared_cons_ne {a b : α} (h : a ≠ b) (l m : List α) : shared (a::l) (b::m) = 0 := if_neg h

lemma take_shared (l m : List α) :
    l.take (shared l m) <+: m ∧ (l.take (shared l m)).length = shared l m := by
  induction l generalizing m with
  | nil => exact ⟨List.nil_prefix,rfl⟩
  | cons a l ih =>
    cases m with
    | nil => exact ⟨List.nil_prefix,rfl⟩
    | cons b m =>
      by_cases heq : a = b
      · subst heq
        obtain ⟨hbegins,hlength⟩ := ih m
        rw [shared_cons_self, List.take_succ_cons, List.length_cons, hlength]
        exact ⟨List.cons_prefix_cons.mpr ⟨rfl,hbegins⟩,rfl⟩
      · rw [shared_cons_ne heq]
        exact ⟨List.nil_prefix,rfl⟩

lemma length_le_shared {front l m : List α} (hl : front <+: l) (hm : front <+: m) :
    front.length ≤ shared l m := by
  induction front generalizing l m with
  | nil => exact Nat.zero_le _
  | cons c front ih =>
    obtain ⟨rest,rfl⟩ := hl
    obtain ⟨rest',rfl⟩ := hm
    rw [List.cons_append, List.cons_append, shared_cons_self, List.length_cons]
    exact Nat.succ_le_succ (ih (List.prefix_append front rest) (List.prefix_append front rest'))

/-- The shared entries are the longest common prefix. -/
theorem isGreatest_shared (l m : List α) :
    IsGreatest {n | ∃ front, front <+: l ∧ front <+: m ∧ front.length = n} (shared l m) := by
  obtain ⟨hbegins,hlength⟩ := take_shared l m
  refine ⟨⟨l.take (shared l m),List.take_prefix _ _,hbegins,hlength⟩,?_⟩
  rintro n ⟨front,hl,hm,rfl⟩
  exact length_le_shared hl hm

end SharedPrefix
