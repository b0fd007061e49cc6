import MicroExpertRouter.Lib.Machine

/-! Parsers over a buffer and a position, and what becomes of a result when the buffer grows. A
parser is stable when a success depends only on what it consumed, and a failure that is not for
want of input is final. -/
namespace MicroExpertRouter

/-- From a buffer and a position to a result and the next position. -/
def Parser (β ε α : Type) : Type := List β → ℕ → Except ε (α × ℕ)

namespace Parser
variable {β ε α γ σ : Type}

protected def pure (a : α) : Parser β ε α := fun _ pos => .ok (a,pos)

protected def bind (p : Parser β ε α) (f : α → Parser β ε γ) : Parser β ε γ := fun buf pos =>
  match p buf pos with
  | .error e => .error e
  | .ok (a,next) => f a buf next

instance : Monad (Parser β ε) where
  pure := Parser.pure
  bind := Parser.bind

def fail (e : ε) : Parser β ε α := fun _ _ => .error e

/-- Step over `n` items; the position has a width with largest value `top`. -/
def advance (short : ε) (top n : ℕ) : Parser β ε Unit := fun buf pos =>
  match checkedAdd top pos n with
  | none => .error short
  | some next => if buf.length<next then .error short else .ok ((),next)

/-- The items between two positions. -/
def slice (start n : ℕ) : Parser β ε (List β) := fun buf pos =>
  .ok ((buf.drop start).take n,pos)

def position : Parser β ε ℕ := fun _ pos => .ok (pos,pos)

/-- `n` items, stepped over. -/
def read (short : ε) (top n : ℕ) : Parser β ε (List β) := do
  let start ← position
  advance short top n
  slice start n

/-- A loop of `n` turns. -/
def loop (body : σ → Parser β ε σ) : ℕ → σ → Parser β ε σ
  | 0, s => Parser.pure s
  | n+1, s => (body s).bind (loop body n)

lemma bind_eq_ok {p : Parser β ε α} {f : α → Parser β ε γ} {buf : List β} {pos next : ℕ} {c : γ} :
    (p >>= f) buf pos = .ok (c,next) ↔
      ∃ a middle, p buf pos = .ok (a,middle) ∧ f a buf middle = .ok (c,next) := by
  change p.bind f buf pos = _ ↔ _
  unfold Parser.bind
  cases p buf pos with
  | error e => simp
  | ok found =>
    obtain ⟨a,middle⟩ := found
    simp

lemma read_eq (short : ε) (top n : ℕ) (buf : List β) (pos : ℕ) : read short top n buf pos =
    if pos+n ≤ top ∧ pos+n ≤ buf.length then .ok ((buf.drop pos).take n,pos+n)
    else .error short := by
  change Parser.bind (advance short top n) (fun _ => slice pos n) buf pos = _
  unfold Parser.bind advance checkedAdd
  by_cases htop : pos+n ≤ top
  · rw [if_pos htop]
    dsimp only
    by_cases hlength : pos+n ≤ buf.length
    · rw [if_neg (Nat.not_lt.mpr hlength), if_pos ⟨htop,hlength⟩]
      rfl
    · rw [if_pos (Nat.not_le.mp hlength), if_neg fun h => hlength h.2]
  · rw [if_neg htop, if_neg fun h => htop h.1]

lemma read_eq_ok {short : ε} {top n : ℕ} {buf items : List β} {pos next : ℕ} :
    read short top n buf pos = .ok (items,next) ↔
      pos+n ≤ top ∧ pos+n ≤ buf.length ∧ items = (buf.drop pos).take n ∧ next = pos+n := by
  rw [read_eq]
  split_ifs with h
  · simp only [Except.ok.injEq, Prod.mk.injEq, h, true_and]
    exact and_congr eq_comm eq_comm
  · simp only [false_iff]
    exact fun hcontra => h ⟨hcontra.1,hcontra.2.1⟩

/-- What a parser says about a longer buffer. -/
structure Stable (short : ε → Prop) (p : Parser β ε α) : Prop where
  ok : ∀ {buf : List β} {pos : ℕ} {a : α} {next : ℕ}, pos ≤ buf.length → p buf pos = .ok (a,next) →
    pos ≤ next ∧ next ≤ buf.length ∧
      ∀ {other : List β}, buf.take next <+: other → p other pos = .ok (a,next)
  error : ∀ {buf : List β} {pos : ℕ} {e : ε}, pos ≤ buf.length → p buf pos = .error e → ¬ short e →
    ∀ {other : List β}, buf <+: other → p other pos = .error e

namespace Stable
variable {short : ε → Prop}

lemma pure (a : α) : Stable short (Pure.pure a : Parser β ε α) where
  ok hpos h := by
    cases h
    exact ⟨le_rfl,hpos,fun _ => rfl⟩
  error _ h := by cases h

lemma fail (e : ε) : Stable short (Parser.fail e : Parser β ε α) where
  ok _ h := by cases h
  error _ h _ _ _ := by
    cases h
    rfl

lemma bind {p : Parser β ε α} {f : α → Parser β ε γ} (hp : Stable short p)
    (hf : ∀ a, Stable short (f a)) : Stable short (p >>= f) where
  ok {buf pos c next} hpos h := by
    change p.bind f buf pos = _ at h
    unfold Parser.bind at h
    cases hfirst : p buf pos with
    | error e =>
      rw [hfirst] at h
      cases h
    | ok found =>
      obtain ⟨a,middle⟩ := found
      rw [hfirst] at h
      obtain ⟨hle,hmiddle,hagain⟩ := hp.ok hpos hfirst
      obtain ⟨hle',hnext,hagain'⟩ := (hf a).ok hmiddle h
      refine ⟨hle.trans hle',hnext,fun {other} hother => ?_⟩
      change p.bind f other pos = _
      unfold Parser.bind
      rw [hagain ((List.take_prefix_take_left hle').trans hother)]
      exact hagain' hother
  error {buf pos e} hpos h hshort other hother := by
    change p.bind f buf pos = _ at h
    change p.bind f other pos = _
    unfold Parser.bind at h ⊢
    cases hfirst : p buf pos with
    | error e' =>
      rw [hfirst] at h
      cases h
      rw [hp.error hpos hfirst hshort hother]
    | ok found =>
      obtain ⟨a,middle⟩ := found
      rw [hfirst] at h
      obtain ⟨-,hmiddle,hagain⟩ := hp.ok hpos hfirst
      rw [hagain ((List.take_prefix middle buf).trans hother)]
      exact (hf a).error hmiddle h hshort hother

lemma loop {body : σ → Parser β ε σ} (hbody : ∀ s, Stable short (body s)) (n : ℕ) :
    ∀ s, Stable short (Parser.loop body n s) := by
  induction n with
  | zero => exact pure
  | succ n ih => exact fun s => bind (hbody s) ih

/-- Reading a stretch of the buffer. -/
lemma read {e : ε} (he : short e) (top n : ℕ) :
    Stable short (Parser.read e top n : Parser β ε (List β)) := by
  refine ⟨fun {buf pos a next} hpos h => ?_,fun {buf pos e'} hpos h hshort => ?_⟩
  · obtain ⟨htop,hroom,rfl,rfl⟩ := read_eq_ok.mp h
    refine ⟨Nat.le_add_right pos n,hroom,fun {other} hother => ?_⟩
    have hstretch : ∀ xs : List β, (xs.drop pos).take n = (xs.take (pos+n)).drop pos := by
      intro xs
      rw [List.drop_take, Nat.add_sub_cancel_left]
    have hlength : (buf.take (pos+n)).length = pos+n := List.length_take_of_le hroom
    have hsame : other.take (pos+n) = buf.take (pos+n) := by
      obtain ⟨tail,rfl⟩ := hother
      rw [List.take_append_of_le_length hlength.ge, List.take_of_length_le hlength.le]
    have hlong := hother.length_le
    rw [hlength] at hlong
    rw [read_eq, if_pos ⟨htop,hlong⟩, hstretch other, hsame, ← hstretch buf]
  · rw [read_eq] at h
    split_ifs at h
    cases h
    exact absurd he hshort

end Stable

/-- A success consumes something. -/
structure Advances (p : Parser β ε α) : Prop where
  lt : ∀ {buf : List β} {pos : ℕ} {a : α} {next : ℕ}, pos ≤ buf.length →
    p buf pos = .ok (a,next) → pos<next ∧ next ≤ buf.length

namespace Advances
variable {short : ε → Prop}

lemma read {e : ε} {top n : ℕ} (hn : 0<n) :
    Advances (Parser.read e top n : Parser β ε (List β)) where
  lt _ h := by
    obtain ⟨-,hlength,-,rfl⟩ := read_eq_ok.mp h
    exact ⟨Nat.lt_add_of_pos_right hn,hlength⟩

lemma bind {p : Parser β ε α} {f : α → Parser β ε γ} (hp : Advances p)
    (hf : ∀ a, Stable short (f a)) : Advances (p >>= f) where
  lt hpos h := by
    obtain ⟨a,middle,hfirst,hrest⟩ := bind_eq_ok.mp h
    obtain ⟨hlt,hmiddle⟩ := hp.lt hpos hfirst
    obtain ⟨hle,hnext,-⟩ := (hf a).ok hmiddle hrest
    exact ⟨hlt.trans_le hle,hnext⟩

lemma loop {body : σ → Parser β ε σ} (hbody : ∀ s, Advances (body s))
    (hstable : ∀ s, Stable short (body s)) (n : ℕ) (s : σ) : Advances (Parser.loop body (n+1) s) :=
  bind (hbody s) (Stable.loop hstable n)

end Advances

/-- Both at once, with what follows written once. -/
lemma Stable.bind_of_advances {short : ε → Prop} {p : Parser β ε α} {f : α → Parser β ε γ}
    (hp : Stable short p ∧ Advances p) (hf : ∀ a, Stable short (f a)) :
    Stable short (p >>= f) ∧ Advances (p >>= f) :=
  ⟨hp.1.bind hf,hp.2.bind hf⟩

/-- What a success returns. -/
def Ensures (p : Parser β ε α) (Q : α → Prop) : Prop :=
  ∀ buf pos a next, p buf pos = .ok (a,next) → Q a

lemma Ensures.pure {a : α} {Q : α → Prop} (h : Q a) : Ensures (Pure.pure a : Parser β ε α) Q := by
  intro buf pos b next hok
  cases hok
  exact h

lemma Ensures.bind {p : Parser β ε α} {f : α → Parser β ε γ} {P : α → Prop} {Q : γ → Prop}
    (hp : Ensures p P) (hf : ∀ a, P a → Ensures (f a) Q) : Ensures (p >>= f) Q := by
  intro buf pos c next h
  obtain ⟨a,middle,hfirst,hrest⟩ := bind_eq_ok.mp h
  exact hf a (hp buf pos a middle hfirst) buf middle c next hrest

/-- Whatever comes before. -/
lemma Ensures.after (p : Parser β ε α) {f : α → Parser β ε γ} {Q : γ → Prop}
    (hf : ∀ a, Ensures (f a) Q) : Ensures (p >>= f) Q := by
  intro buf pos c next h
  obtain ⟨a,middle,-,hrest⟩ := bind_eq_ok.mp h
  exact hf a buf middle c next hrest

lemma Ensures.loop {body : σ → Parser β ε σ} {Q : σ → Prop}
    (hbody : ∀ s, Q s → Ensures (body s) Q) (n : ℕ) : ∀ s, Q s → Ensures (Parser.loop body n s) Q := by
  induction n with
  | zero => exact fun s hs => Ensures.pure hs
  | succ n ih => exact fun s hs => Ensures.bind (hbody s hs) ih

end Parser

end MicroExpertRouter
