import Mathlib.Data.Fintype.Order
import Mathlib.Logic.Relation
import Mathlib.Order.WellFounded
import Mathlib.Tactic

/-! References that are followed one after the other: within finitely many elements every chain of
references ends exactly when none of them comes back to where it began. -/
namespace MicroExpertRouter.References
open Relation (ReflTransGen TransGen)

variable {α : Type*} {r : α → α → Prop} {a b c : α}

/-- Nothing follows. -/
def Final (r : α → α → Prop) (a : α) : Prop := ∀ b, ¬ r a b

/-- A chain that begins on a cycle stays on it. -/
lemma cycle_of_reaches (hunique : Relator.RightUnique r) (hcycle : TransGen r a a)
    (h : ReflTransGen r a b) : TransGen r b b := by
  induction h with
  | refl => exact hcycle
  | @tail b c _ hbc ih =>
    obtain ⟨d,hbd,hback⟩ := TransGen.head'_iff.mp ih
    obtain rfl := hunique hbc hbd
    exact TransGen.tail' hback hbc

lemma not_cycle_of_final (hunique : Relator.RightUnique r) (h : ReflTransGen r a b)
    (hfinal : Final r b) : ¬ TransGen r a a := by
  intro hcycle
  obtain ⟨c,hbc,_⟩ := TransGen.head'_iff.mp (cycle_of_reaches hunique hcycle h)
  exact hfinal c hbc

/-- Without cycles a chain within finitely many elements ends. -/
lemma ends_of_acyclic {s : Set α} (hfinite : s.Finite) (hclosed : ∀ a ∈ s, ∀ b, r a b → b ∈ s)
    (hacyclic : ∀ a ∈ s, ¬ TransGen r a a) (ha : a ∈ s) :
    ∃ b ∈ s, ReflTransGen r a b ∧ Final r b := by
  have : Finite s := hfinite
  let above : s → s → Prop := fun y x => TransGen r x y
  have hirrefl : Std.Irrefl above := ⟨fun x => hacyclic x x.2⟩
  have htrans : IsTrans s above := ⟨fun _ _ _ hxy hyz => hyz.trans hxy⟩
  have hwf : WellFounded above := Finite.wellFounded_of_trans_of_irrefl above
  have hall : ∀ x : s, ∃ b ∈ s, ReflTransGen r x b ∧ Final r b := by
    intro x
    induction x using hwf.induction with
    | _ x ih =>
      by_cases hfinal : Final r x
      · exact ⟨x,x.2,.refl,hfinal⟩
      · unfold Final at hfinal
        push Not at hfinal
        obtain ⟨y,hxy⟩ := hfinal
        obtain ⟨b,hb,hreach,hend⟩ := ih ⟨y,hclosed x x.2 y hxy⟩ (.single hxy)
        exact ⟨b,hb,.head hxy hreach,hend⟩
  exact hall ⟨a,ha⟩

/-- Every chain ends exactly when there is no cycle. -/
theorem ends_iff_acyclic {s : Set α} (hunique : Relator.RightUnique r) (hfinite : s.Finite)
    (hclosed : ∀ a ∈ s, ∀ b, r a b → b ∈ s) :
    (∀ a ∈ s, ∃ b ∈ s, ReflTransGen r a b ∧ Final r b) ↔ ∀ a ∈ s, ¬ TransGen r a a := by
  constructor
  · intro h a ha
    obtain ⟨b,-,hreach,hfinal⟩ := h a ha
    exact not_cycle_of_final hunique hreach hfinal
  · exact fun h a ha => ends_of_acyclic hfinite hclosed h ha

end MicroExpertRouter.References
