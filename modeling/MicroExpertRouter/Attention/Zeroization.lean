import MicroExpertRouter.Attention.KvCache

/-! What a cache leaves behind: the blocks that its calls give back to the allocator, and what they
hold at that moment. -/
namespace MicroExpertRouter.Attention
variable {α : Type}

/-- A block of zeros. -/
def Cleared [Zero α] (block : List α) : Prop := ∀ x ∈ block, x = 0

/-- The blocks of a half that an eviction cannot keep in the free list. -/
def Half.overflow (n : ℕ) (half : Half α) : List (List α) :=
  (half.blocks.take n).drop (freeBlocksCap-half.free.length)

/-- The eviction keeps every block, or the blocks that it cannot keep hold no data. -/
def KvCache.Contained [Zero α] (cache : KvCache α) : Call α → Prop
  | .evictBefore pos =>
    ∀ b ∈ cache.keys.overflow (cache.blocksToDrop pos)++
      cache.values.overflow (cache.blocksToDrop pos), Cleared b
  | _ => True

/-- Every eviction of a run is contained. -/
def KvCache.AllContained [Zero α] : KvCache α → List (Call α) → Prop
  | _, [] => True
  | cache, call::calls => cache.Contained call ∧
    ∀ next effect, cache.step call = some (next,effect) → next.AllContained calls

/-- The calls that a session makes before it is destroyed. -/
def Call.Ordinary : Call α → Prop
  | .append _ _ => True
  | .evictBefore _ => True
  | .reset => False
  | .zeroize => False

section Halves
variable {half : Half α}

/-- An eviction releases what the free list has no room for, the oldest of it first. -/
lemma Half.evict_released (n : ℕ) : ∀ half : Half α, (half.evict n).2 = half.overflow n := by
  induction n with
  | zero =>
    intro half
    simp [Half.evict, Half.overflow]
  | succ n ih =>
    intro half
    obtain ⟨blocks,free⟩ := half
    unfold Half.evict Half.overflow
    cases blocks with
    | nil => exact (ih _).trans (by simp [Half.overflow])
    | cons b rest =>
      dsimp only
      split_ifs with hroom
      · have hcap : freeBlocksCap-free.length = (freeBlocksCap-(free.length+1))+1 := by omega
        rw [ih, Half.overflow, List.length_cons, List.take_succ_cons, hcap, List.drop_succ_cons]
      · have hcap : freeBlocksCap-free.length = 0 := by omega
        rw [ih, Half.overflow, hcap, List.drop_zero, List.drop_zero, List.take_succ_cons]

/-- No block is lost by an eviction. -/
lemma Half.evict_length (n : ℕ) : ∀ half : Half α,
    (half.evict n).1.all.length+(half.evict n).2.length = half.all.length := by
  induction n with
  | zero => exact fun half => Nat.add_zero _
  | succ n ih =>
    intro half
    obtain ⟨blocks,free⟩ := half
    unfold Half.evict
    cases blocks with
    | nil => exact ih _
    | cons b rest =>
      have hkeep := ih ⟨rest,b::free⟩
      have hrelease := ih ⟨rest,free⟩
      simp only [Half.all, List.length_append, List.length_cons] at hkeep hrelease ⊢
      split_ifs
      · omega
      · dsimp only
        rw [List.length_cons]
        omega

lemma Half.grow_length [Zero α] (dim : ℕ) (half : Half α) :
    (half.grow dim).1.all.length = half.all.length+(half.grow dim).2 := by
  obtain ⟨blocks,free⟩ := half
  unfold Half.grow
  cases free with
  | nil => simp [Half.all]
  | cons b rest =>
    simp only [Half.all, List.length_append, List.length_cons, List.length_nil]
    omega

lemma Half.writeRow_length {dim inBlock : ℕ} {row : List α} {next : Half α}
    (h : half.writeRow dim inBlock row = some next) : next.all.length = half.all.length := by
  obtain ⟨b,hlast,h⟩ := Option.bind_eq_some_iff.mp h
  split_ifs at h
  cases h
  have hlength : half.blocks.length ≠ 0 := by
    intro hzero
    rw [List.length_eq_zero_iff.mp hzero] at hlast
    cases hlast
  simp only [Half.all, List.length_append, List.length_dropLast, List.length_singleton]
  omega

lemma Half.zeroized_length [Zero α] (half : Half α) : half.zeroized.all.length = half.all.length := by
  simp [Half.all, Half.zeroized, Half.zeroizeBlocks]

lemma Half.zeroized_cleared [Zero α] (half : Half α) : ∀ b ∈ half.zeroized.all, Cleared b := by
  have hcleared : ∀ blocks : List (List α), ∀ b ∈ Half.zeroizeBlocks blocks, Cleared b := by
    intro blocks b hmem x hx
    obtain ⟨b,-,rfl⟩ := List.mem_map.mp hmem
    obtain ⟨_,-,rfl⟩ := List.mem_map.mp hx
    rfl
  exact List.forall_mem_append.mpr ⟨hcleared half.blocks,hcleared half.free⟩

end Halves

namespace KvCache
variable {cache next : KvCache α} {effect : Effect α}

/-- The blocks of a cache. -/
def held (cache : KvCache α) : ℕ := cache.keys.all.length+cache.values.all.length

lemma append_length [Zero α] {k v : List α} (h : cache.append k v = some (next,effect)) :
    effect.released = [] ∧ next.held = cache.held+effect.allocated := by
  unfold append at h
  split_ifs at h
  obtain ⟨⟨opened,allocated⟩,hopen,h⟩ := Option.bind_eq_some_iff.mp h
  obtain ⟨keys,hkeys,h⟩ := Option.bind_eq_some_iff.mp h
  obtain ⟨values,hvalues,h⟩ := Option.bind_eq_some_iff.mp h
  cases h
  refine ⟨rfl,?_⟩
  have hopened : opened.held = cache.held+allocated := by
    unfold openBlock at hopen
    dsimp only at hopen
    split_ifs at hopen with hboundary hassert
    · cases hopen
      unfold held
      rw [Half.grow_length, Half.grow_length]
      omega
    · cases hopen
      rfl
  unfold held at *
  rw [Half.writeRow_length hkeys, Half.writeRow_length hvalues]
  exact hopened

lemma evictBefore_length (cache : KvCache α) (pos : ℕ) :
    (cache.evictBefore pos).1.held+(cache.evictBefore pos).2.released.length = cache.held ∧
      (cache.evictBefore pos).2.allocated = 0 := by
  unfold evictBefore
  dsimp only
  split_ifs
  · exact ⟨rfl,rfl⟩
  · exact ⟨rfl,rfl⟩
  · have hkeys := cache.keys.evict_length (cache.blocksToDrop pos)
    have hvalues := cache.values.evict_length (cache.blocksToDrop pos)
    refine ⟨?_,rfl⟩
    simp only [held, List.length_append] at *
    omega

/-- What an eviction releases is what it cannot keep. -/
lemma evictBefore_released (cache : KvCache α) (pos : ℕ) : (cache.evictBefore pos).2.released =
    cache.keys.overflow (cache.blocksToDrop pos)++cache.values.overflow (cache.blocksToDrop pos) := by
  have hnothing : ∀ half : Half α, half.overflow 0 = [] := fun half => by simp [Half.overflow]
  unfold evictBefore
  dsimp only
  split_ifs with htarget hdrop
  · have hzero : cache.blocksToDrop pos = 0 := by
      unfold blocksToDrop
      rw [Nat.sub_eq_zero_of_le htarget, Nat.zero_min]
    rw [hzero, hnothing, hnothing]
    rfl
  · rw [hdrop, hnothing, hnothing]
    rfl
  · rw [Half.evict_released, Half.evict_released]

variable [Zero α]

/-- No call loses a block, and an ordinary call releases data exactly when it is not contained. -/
lemma step_released {call : Call α} (hordinary : call.Ordinary)
    (h : cache.step call = some (next,effect)) :
    next.held+effect.released.length = cache.held+effect.allocated ∧
      ((∀ b ∈ effect.released, Cleared b) ↔ cache.Contained call) := by
  cases call with
  | append k v =>
    obtain ⟨hreleased,hheld⟩ := append_length h
    rw [hreleased, hheld]
    exact ⟨rfl,iff_of_true (List.forall_mem_nil _) trivial⟩
  | evictBefore pos =>
    have heq : cache.evictBefore pos = (next,effect) := Option.some.inj h
    obtain rfl : (cache.evictBefore pos).1 = next := congrArg Prod.fst heq
    obtain rfl : (cache.evictBefore pos).2 = effect := congrArg Prod.snd heq
    obtain ⟨hheld,hallocated⟩ := cache.evictBefore_length pos
    rw [hallocated, evictBefore_released]
    refine ⟨?_,Iff.rfl⟩
    rw [← evictBefore_released, hheld]
    rfl
  | reset => exact hordinary.elim
  | zeroize => exact hordinary.elim

/-- The same over a whole run. -/
lemma run_released (calls : List (Call α)) : ∀ {cache last : KvCache α} {effect : Effect α},
    (∀ call ∈ calls, call.Ordinary) → cache.run calls = some (last,effect) →
    last.held+effect.released.length = cache.held+effect.allocated ∧
      ((∀ b ∈ effect.released, Cleared b) ↔ cache.AllContained calls) := by
  induction calls with
  | nil =>
    intro cache last effect _ h
    cases h
    exact ⟨rfl,iff_of_true (List.forall_mem_nil _) trivial⟩
  | cons call calls ih =>
    intro cache last effect hordinary h
    obtain ⟨hcall,hordinary⟩ := List.forall_mem_cons.mp hordinary
    obtain ⟨⟨next,first⟩,hstep,h⟩ := Option.bind_eq_some_iff.mp h
    obtain ⟨⟨last',rest⟩,hrun,h⟩ := Option.bind_eq_some_iff.mp h
    cases h
    obtain ⟨hheld,hcleared⟩ := step_released hcall hstep
    obtain ⟨hheld',hcleared'⟩ := ih hordinary hrun
    refine ⟨?_,?_⟩
    · simp only [Effect.andThen, List.length_append]
      omega
    · have hnext : cache.AllContained (call::calls) ↔
          cache.Contained call ∧ next.AllContained calls := by
        refine and_congr_right fun _ => ⟨fun hall => hall next first hstep,fun hall n e heq => ?_⟩
        rw [hstep] at heq
        cases heq
        exact hall
      rw [hnext, ← hcleared, ← hcleared']
      exact List.forall_mem_append

lemma run_concat (calls : List (Call α)) (call : Call α) :
    ∀ {cache last : KvCache α} {effect : Effect α}, cache.run (calls++[call]) = some (last,effect) →
      ∃ before first second, cache.run calls = some (before,first) ∧
        before.step call = some (last,second) ∧ effect = first.andThen second := by
  induction calls with
  | nil =>
    intro cache last effect h
    obtain ⟨⟨next,second⟩,hstep,h⟩ := Option.bind_eq_some_iff.mp h
    cases h
    refine ⟨cache,⟨0,[]⟩,second,rfl,hstep,?_⟩
    simp [Effect.andThen]
  | cons first calls ih =>
    intro cache last effect h
    obtain ⟨⟨next,one⟩,hstep,h⟩ := Option.bind_eq_some_iff.mp h
    obtain ⟨⟨last',rest⟩,hrun,h⟩ := Option.bind_eq_some_iff.mp h
    cases h
    obtain ⟨before,firsts,second,hbefore,hlast,rfl⟩ := ih hrun
    refine ⟨before,one.andThen firsts,second,?_,hlast,?_⟩
    · rw [KvCache.run, hstep, Option.bind_eq_bind, Option.bind_some]
      dsimp only
      rw [hbefore]
      rfl
    · simp [Effect.andThen, Nat.add_assoc]

end KvCache

/-- A session that is destroyed gives back every block it allocated, and all of them cleared exactly
when each of its evictions kept every block that held data. -/
theorem released_cleared_iff [Zero α] (kDim vDim : ℕ) (calls : List (Call α))
    (hordinary : ∀ call ∈ calls, call.Ordinary) (last : KvCache α) (effect : Effect α)
    (hrun : (KvCache.newKv kDim vDim).run (calls++[.zeroize]) = some (last,effect)) :
    effect.released.length = effect.allocated ∧ ((∀ b ∈ effect.released, Cleared b) ↔
      (KvCache.newKv kDim vDim : KvCache α).AllContained calls) := by
  obtain ⟨before,first,second,hcalls,hzeroize,rfl⟩ := KvCache.run_concat calls .zeroize hrun
  cases hzeroize
  obtain ⟨hheld,hcleared⟩ := KvCache.run_released calls hordinary hcalls
  have hnew : (KvCache.newKv kDim vDim : KvCache α).held = 0 := rfl
  refine ⟨?_,?_⟩
  · have hkeys := before.keys.zeroized_length
    have hvalues := before.values.zeroized_length
    simp only [KvCache.held, Effect.andThen, List.length_append] at *
    omega
  · rw [← hcleared]
    refine ⟨fun hall b hmem => hall b (List.mem_append_left _ hmem),fun hall => ?_⟩
    exact List.forall_mem_append.mpr ⟨hall,List.forall_mem_append.mpr
      ⟨before.keys.zeroized_cleared,before.values.zeroized_cleared⟩⟩

/-- A row that stays resident until the session is destroyed. -/
theorem released_cleared_small : ∃ last effect,
    (KvCache.newKv 1 1).run ([.append [7] [7],.evictBefore 1]++[.zeroize]) = some (last,effect) ∧
      effect.released.length = 2 ∧ ∀ b ∈ effect.released, Cleared b := by
  have hordinary : ∀ call ∈ ([.append [7] [7],.evictBefore 1] : List (Call ℕ)), call.Ordinary := by
    simp only [List.forall_mem_cons]
    exact ⟨trivial,trivial,List.forall_mem_nil _⟩
  have hallocated : ((KvCache.newKv 1 1).run ([.append [7] [7],.evictBefore 1]++[.zeroize])).map
      (fun done => done.2.allocated) = some 2 := by decide +kernel
  obtain ⟨⟨last,effect⟩,hrun,htwo⟩ := Option.map_eq_some_iff.mp hallocated
  obtain ⟨hlength,hcleared⟩ := released_cleared_iff 1 1 _ hordinary last effect hrun
  refine ⟨last,effect,hrun,hlength.trans htwo,hcleared.mpr ⟨trivial,fun next first hstep =>
    ⟨?_,fun _ _ _ => trivial⟩⟩⟩
  have hone : (KvCache.append (KvCache.newKv 1 1) [7] [7]).map
      (fun done => (done.1.keys.overflow (done.1.blocksToDrop 1),
        done.1.values.overflow (done.1.blocksToDrop 1))) = some ([],[]) := by decide +kernel
  have hsame : KvCache.append (KvCache.newKv 1 1) [7] [7] = some (next,first) := hstep
  rw [hsame] at hone
  obtain ⟨hkeys,hvalues⟩ := Prod.mk.inj (Option.some.inj hone)
  simp only [KvCache.Contained, hkeys, hvalues]
  exact List.forall_mem_nil _

/-- Nine full blocks, all of which one call evicts. -/
def nineBlocks : List (Call ℕ) := List.replicate 144 (.append [1] [1])++[.evictBefore 144]

/-- The ninth block goes back to the allocator with its rows in it. -/
theorem nine_blocks_leak : ∃ last effect,
    (KvCache.newKv 1 1).run (nineBlocks++[.zeroize]) = some (last,effect) ∧
      ¬ ∀ b ∈ effect.released, Cleared b := by
  have hleak : ((KvCache.newKv 1 1).run (nineBlocks++[.zeroize])).map
      (fun done => done.2.released.any fun b => b.any fun x => x ≠ 0) = some true := by decide +kernel
  obtain ⟨⟨last,effect⟩,hrun,hany⟩ := Option.map_eq_some_iff.mp hleak
  refine ⟨last,effect,hrun,fun hall => ?_⟩
  obtain ⟨b,hmem,hb⟩ := List.any_eq_true.mp hany
  obtain ⟨x,hx,hne⟩ := List.any_eq_true.mp hb
  exact of_decide_eq_true hne (hall b hmem x hx)

end MicroExpertRouter.Attention
