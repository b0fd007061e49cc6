import MicroExpertRouter.Lib.Parser

/-! Parsers that list what they ask of the machine. Run on a machine that stops at the first
demand it does not admit, a metered parser gives its result exactly when every demand of it is
admitted. -/
namespace MicroExpertRouter

/-- The demands of a parser, and its result on a machine that admits them all. -/
def Metered (δ β ε α : Type) : Type := List β → ℕ → List δ × Except ε (α × ℕ)

namespace Metered
variable {δ β ε α γ σ : Type}

protected def pure (a : α) : Metered δ β ε α := fun _ pos => ([],.ok (a,pos))

protected def bind (m : Metered δ β ε α) (f : α → Metered δ β ε γ) : Metered δ β ε γ :=
  fun buf pos => match m buf pos with
  | (asked,.error e) => (asked,.error e)
  | (asked,.ok (a,next)) => (asked++(f a buf next).1,(f a buf next).2)

instance : Monad (Metered δ β ε) where
  pure := Metered.pure
  bind := Metered.bind

/-- A parser that asks for nothing. -/
def lift (p : Parser β ε α) : Metered δ β ε α := fun buf pos => ([],p buf pos)

def ask (d : δ) : Metered δ β ε Unit := fun _ pos => ([d],.ok ((),pos))

def loop (body : σ → Metered δ β ε σ) : ℕ → σ → Metered δ β ε σ
  | 0, s => Metered.pure s
  | n+1, s => (body s).bind (loop body n)

lemma bind_ok {m : Metered δ β ε α} {f : α → Metered δ β ε γ} {buf : List β} {pos next : ℕ}
    {asked : List δ} {a : α} (h : m buf pos = (asked,.ok (a,next))) :
    (m >>= f) buf pos = (asked++(f a buf next).1,(f a buf next).2) := by
  change m.bind f buf pos = _
  rw [Metered.bind, h]

lemma bind_error {m : Metered δ β ε α} {f : α → Metered δ β ε γ} {buf : List β} {pos : ℕ}
    {asked : List δ} {e : ε} (h : m buf pos = (asked,.error e)) :
    (m >>= f) buf pos = (asked,.error e) := by
  change m.bind f buf pos = _
  rw [Metered.bind, h]

/-- On a machine that admits some demands and stops at the others. -/
def run (admits : δ → Bool) (stop : ε) (m : Metered δ β ε α) : Parser β ε α := fun buf pos =>
  if ∀ d ∈ (m buf pos).1, admits d = true then (m buf pos).2 else .error stop

section Run
variable (admits : δ → Bool) (stop : ε)

@[simp] lemma run_pure (a : α) : run admits stop (pure a : Metered δ β ε α) = pure a := by
  funext buf pos
  exact if_pos (List.forall_mem_nil _)

@[simp] lemma run_lift (p : Parser β ε α) : run admits stop (lift p : Metered δ β ε α) = p := by
  funext buf pos
  exact if_pos (List.forall_mem_nil _)

@[simp] lemma run_ask (d : δ) : run admits stop (ask d : Metered δ β ε Unit) =
    if admits d then pure () else Parser.fail stop := by
  funext buf pos
  have hasked : (∀ d' ∈ [d], admits d' = true) ↔ admits d = true := List.forall_mem_singleton
  by_cases h : admits d = true
  · rw [if_pos h]
    exact if_pos (hasked.mpr h)
  · rw [if_neg h]
    exact if_neg fun hall => h (hasked.mp hall)

@[simp] lemma run_bind (m : Metered δ β ε α) (f : α → Metered δ β ε γ) :
    run admits stop (m >>= f) = run admits stop m >>= fun a => run admits stop (f a) := by
  funext buf pos
  change run admits stop (m.bind f) buf pos =
    (run admits stop m).bind (fun a => run admits stop (f a)) buf pos
  unfold run Parser.bind Metered.bind
  rcases hfirst : m buf pos with ⟨asked,result⟩
  by_cases hasked : ∀ d ∈ asked, admits d = true
  · cases result with
    | error e => simp only [hfirst, if_pos hasked]
    | ok found =>
      obtain ⟨a,next⟩ := found
      simp only [hfirst, if_pos hasked]
      by_cases hrest : ∀ d ∈ (f a buf next).1, admits d = true
      · simp only [if_pos (List.forall_mem_append.mpr ⟨hasked,hrest⟩), if_pos hrest]
      · have hnot : ¬ ∀ d ∈ asked++(f a buf next).1, admits d = true :=
          fun h => hrest (List.forall_mem_append.mp h).2
        simp only [if_neg hnot, if_neg hrest]
  · cases result with
    | error e => simp only [hfirst, if_neg hasked]
    | ok found =>
      obtain ⟨a,next⟩ := found
      have hnot : ¬ ∀ d ∈ asked++(f a buf next).1, admits d = true :=
        fun h => hasked (List.forall_mem_append.mp h).1
      simp only [hfirst, if_neg hasked, if_neg hnot]

@[simp] lemma run_loop (body : σ → Metered δ β ε σ) (n : ℕ) : ∀ s, run admits stop (loop body n s) =
    Parser.loop (fun s => run admits stop (body s)) n s := by
  induction n with
  | zero => exact run_pure admits stop
  | succ n ih =>
    intro s
    change run admits stop (body s >>= loop body n) =
      (run admits stop (body s)).bind (Parser.loop (fun s => run admits stop (body s)) n)
    rw [run_bind]
    change (run admits stop (body s)).bind _ = _
    congr 1
    funext s'
    exact ih s'

end Run

/-- A parser that never gives this error by itself. -/
def Never (stop : ε) (p : Parser β ε α) : Prop := ∀ buf pos, p buf pos ≠ .error stop

/-- An error that is only given after a demand that is not admitted. -/
def Blames (admits : δ → Bool) (stop : ε) (m : Metered δ β ε α) : Prop := ∀ buf pos,
  (∀ d ∈ (m buf pos).1, admits d = true) → (m buf pos).2 ≠ .error stop

section Blames
variable {admits : δ → Bool} {stop : ε}

lemma Blames.pure (a : α) : Blames admits stop (pure a : Metered δ β ε α) := by
  intro buf pos _ h
  cases h

lemma Blames.lift {p : Parser β ε α} (h : Never stop p) :
    Blames admits stop (Metered.lift p : Metered δ β ε α) :=
  fun buf pos _ => h buf pos

lemma Blames.ask (d : δ) : Blames admits stop (Metered.ask d : Metered δ β ε Unit) := by
  intro buf pos _ h
  cases h

lemma Blames.bind {m : Metered δ β ε α} {f : α → Metered δ β ε γ} (hm : Blames admits stop m)
    (hf : ∀ a, Blames admits stop (f a)) : Blames admits stop (m >>= f) := by
  intro buf pos
  change (∀ d ∈ (m.bind f buf pos).1, admits d = true) → (m.bind f buf pos).2 ≠ .error stop
  unfold Metered.bind
  have hfirst := hm buf pos
  cases hm' : m buf pos with
  | mk asked result =>
    rw [hm'] at hfirst
    cases result with
    | error e =>
      dsimp only at hfirst ⊢
      exact fun hall heq => hfirst hall (congrArg Except.error (Except.error.inj heq))
    | ok found =>
      obtain ⟨a,next⟩ := found
      dsimp only
      exact fun hall => hf a buf next (List.forall_mem_append.mp hall).2

/-- A demand that no machine admits may be followed by anything. -/
lemma Blames.refused {d : δ} (hd : admits d = false) (f : Unit → Metered δ β ε γ) :
    Blames admits stop (Metered.ask d >>= f) := by
  intro buf pos hall
  have hd' := hall d List.mem_cons_self
  rw [hd] at hd'
  cases hd'

lemma Blames.loop {body : σ → Metered δ β ε σ} (h : ∀ s, Blames admits stop (body s)) (n : ℕ) :
    ∀ s, Blames admits stop (Metered.loop body n s) := by
  induction n with
  | zero => exact Blames.pure
  | succ n ih => exact fun s => Blames.bind (h s) ih

/-- The machine stops the parser exactly when it does not admit a demand. -/
lemma run_eq_stop {m : Metered δ β ε α} (h : Blames admits stop m) (buf : List β) (pos : ℕ) :
    run admits stop m buf pos = .error stop ↔ ¬ ∀ d ∈ (m buf pos).1, admits d = true := by
  unfold run
  by_cases hall : ∀ d ∈ (m buf pos).1, admits d = true
  · rw [if_pos hall]
    exact iff_of_false (h buf pos hall) (not_not.mpr hall)
  · rw [if_neg hall]
    exact iff_of_true rfl hall

end Blames

section Never
variable {stop : ε}

lemma Never.pure (a : α) : Never stop (pure a : Parser β ε α) := by
  intro buf pos h
  cases h

lemma Never.fail {e : ε} (h : e ≠ stop) : Never stop (Parser.fail e : Parser β ε α) :=
  fun _ _ heq => h (Except.error.inj heq)

lemma Never.read {e : ε} (h : e ≠ stop) (top n : ℕ) :
    Never stop (Parser.read e top n : Parser β ε (List β)) := by
  intro buf pos
  rw [Parser.read_eq]
  split_ifs
  · intro heq
    cases heq
  · exact fun heq => h (Except.error.inj heq)

lemma Never.bind {p : Parser β ε α} {f : α → Parser β ε γ} (hp : Never stop p)
    (hf : ∀ a, Never stop (f a)) : Never stop (p >>= f) := by
  intro buf pos h
  change p.bind f buf pos = _ at h
  unfold Parser.bind at h
  cases hfirst : p buf pos with
  | error e =>
    rw [hfirst] at h
    cases h
    exact hp buf pos hfirst
  | ok found =>
    rw [hfirst] at h
    exact hf _ buf _ h

lemma Never.loop {body : σ → Parser β ε σ} (h : ∀ s, Never stop (body s)) (n : ℕ) :
    ∀ s, Never stop (Parser.loop body n s) := by
  induction n with
  | zero => exact Never.pure
  | succ n ih => exact fun s => Never.bind (h s) ih

end Never

end Metered

end MicroExpertRouter
