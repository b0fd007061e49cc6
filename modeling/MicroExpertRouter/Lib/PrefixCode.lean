import Mathlib.Tactic

/-! Codes whose words can be told apart in a row: a word and what follows it determine the message
and what follows. -/
namespace MicroExpertRouter.PrefixCode
variable {α β σ : Type} {dom : α → Prop} {code : α → List σ}

/-- The code of the messages of a domain can be read off the front of a text. -/
def Splits (dom : α → Prop) (code : α → List σ) : Prop :=
  ∀ a b, dom a → dom b → ∀ s t, code a++s = code b++t → a = b ∧ s = t

/-- No word is the front of another one. -/
theorem Splits.eq_of_begins (h : Splits dom code) {a b : α} (ha : dom a) (hb : dom b)
    (hbegins : code a <+: code b) : a = b := by
  obtain ⟨rest,hrest⟩ := hbegins
  exact (h a b ha hb rest [] (by rw [hrest, List.append_nil])).1

/-- Words of one length only have to differ. -/
lemma Splits.of_length {n : ℕ} (hlength : ∀ a, (code a).length = n)
    (hinj : ∀ a b, dom a → dom b → code a = code b → a = b) : Splits dom code := by
  intro a b ha hb s t heq
  obtain ⟨hcode,hrest⟩ := List.append_inj heq ((hlength a).trans (hlength b).symm)
  exact ⟨hinj a b ha hb hcode,hrest⟩

/-- A message in two parts, the second read by a code that the first decides. -/
lemma Splits.bind {dom' : α → β → Prop} {code' : α → β → List σ} (h : Splits dom code)
    (h' : ∀ a, dom a → Splits (dom' a) (code' a)) :
    Splits (fun p : α × β => dom p.1 ∧ dom' p.1 p.2) fun p => code p.1++code' p.1 p.2 := by
  rintro ⟨a,x⟩ ⟨b,y⟩ ⟨ha,hx⟩ ⟨hb,hy⟩ s t heq
  simp only [List.append_assoc] at heq
  obtain ⟨rfl,hsecond⟩ := h a b ha hb _ _ heq
  obtain ⟨rfl,hrest⟩ := h' a ha x y hx hy s t hsecond
  exact ⟨rfl,hrest⟩

/-- A message is read when it is a function of one that is. -/
lemma Splits.comap {dom' : β → Prop} {code' : β → List σ} (h : Splits dom code) (f : β → α)
    (hf : Function.Injective f) (hdom : ∀ b, dom' b → dom (f b)) (hcode : ∀ b, code' b = code (f b)) :
    Splits dom' code' := by
  intro a b ha hb s t heq
  rw [hcode, hcode] at heq
  obtain ⟨hmessage,hrest⟩ := h _ _ (hdom a ha) (hdom b hb) s t heq
  exact ⟨hf hmessage,hrest⟩

/-- Words in a row, when their number is known. -/
lemma Splits.flatMap (h : Splits dom code) (n : ℕ) :
    Splits (fun xs : List α => xs.length = n ∧ ∀ x ∈ xs, dom x) (List.flatMap code) := by
  induction n with
  | zero =>
    rintro xs ys ⟨hxs,-⟩ ⟨hys,-⟩ s t heq
    rw [List.length_eq_zero_iff] at hxs hys
    subst hxs hys
    exact ⟨rfl,heq⟩
  | succ n ih =>
    rintro (_ | ⟨x,xs⟩) (_ | ⟨y,ys⟩) ⟨hxs,hx⟩ ⟨hys,hy⟩ s t heq
    · cases hxs
    · cases hxs
    · cases hys
    · obtain ⟨hfirst,hrest⟩ := List.forall_mem_cons.mp hx
      obtain ⟨hfirst',hrest'⟩ := List.forall_mem_cons.mp hy
      rw [List.flatMap_cons, List.flatMap_cons, List.append_assoc, List.append_assoc] at heq
      obtain ⟨rfl,htail⟩ := h x y hfirst hfirst' _ _ heq
      obtain ⟨rfl,htext⟩ := ih xs ys ⟨Nat.succ.inj hxs,hrest⟩ ⟨Nat.succ.inj hys,hrest'⟩ s t htail
      exact ⟨rfl,htext⟩

/-- Words in a row after their number. -/
theorem Splits.counted {domCount : ℕ → Prop} {count : ℕ → List σ} (hcount : Splits domCount count)
    (h : Splits dom code) :
    Splits (fun xs : List α => domCount xs.length ∧ ∀ x ∈ xs, dom x)
      fun xs => count xs.length++xs.flatMap code := by
  refine (hcount.bind fun n _ => h.flatMap n).comap (fun xs => (xs.length,xs)) ?_ ?_ fun xs => rfl
  · exact fun xs ys heq => congrArg Prod.snd heq
  · exact fun xs hxs => ⟨hxs.1,rfl,hxs.2⟩

end MicroExpertRouter.PrefixCode
