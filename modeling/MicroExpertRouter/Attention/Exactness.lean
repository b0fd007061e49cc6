import MicroExpertRouter.Attention.KvCache
import MicroExpertRouter.Lib.Machine

/-! The paged cache against the list of all rows appended to it: what is resident is where it
belongs, whatever is evicted and recycled. -/
namespace MicroExpertRouter.Attention

/-- The blocks that this many rows fill. -/
def blocksOf (n : ℕ) : ℕ := (n+15)/16

namespace Half
variable {α : Type}

/-- A half that holds these rows, up to the evicted blocks. -/
structure Holds (dim evicted : ℕ) (rows : List (List α)) (half : Half α) : Prop where
  evicted_le : evicted*16 ≤ rows.length
  resident : half.blocks.length+evicted = blocksOf rows.length
  width : ∀ b ∈ half.blocks, b.length = 16*dim
  freeWidth : ∀ b ∈ half.free, b.length = 16*dim
  free_le : half.free.length ≤ freeBlocksCap
  held : ∀ i (hi : i<rows.length), evicted ≤ i/16 →
    ∃ b, half.blocks[i/16-evicted]? = some b ∧ Slab.read b (i % 16*dim) dim = rows[i]

/-- A half with room for one more row in its last block. -/
structure Ready (dim evicted : ℕ) (rows : List (List α)) (half : Half α) : Prop where
  evicted_le : evicted*16 ≤ rows.length
  resident : half.blocks.length+evicted = rows.length/16+1
  width : ∀ b ∈ half.blocks, b.length = 16*dim
  freeWidth : ∀ b ∈ half.free, b.length = 16*dim
  free_le : half.free.length ≤ freeBlocksCap
  held : ∀ i (hi : i<rows.length), evicted ≤ i/16 →
    ∃ b, half.blocks[i/16-evicted]? = some b ∧ Slab.read b (i % 16*dim) dim = rows[i]

variable {dim evicted : ℕ} {rows : List (List α)} {half : Half α}

lemma Holds.empty : (empty : Half α).Holds dim 0 [] where
  evicted_le := Nat.zero_le _
  resident := by simp [Half.empty, blocksOf]
  width b h := by cases h
  freeWidth b h := by cases h
  free_le := Nat.zero_le _
  held i hi := by cases hi

/-- A row of a block that is resident. -/
lemma Holds.row (h : half.Holds dim evicted rows) {i : ℕ} (hi : i<rows.length)
    (hresident : evicted ≤ i/16) : half.row dim evicted i = some rows[i] := by
  obtain ⟨b,hb,hread⟩ := h.held i hi hresident
  have hwidth := h.width b (List.mem_of_getElem? hb)
  have hroom : i % 16*dim+dim ≤ b.length := by
    have hmod : i % 16+1 ≤ 16 := Nat.mod_lt i (by decide)
    rw [hwidth, ← Nat.succ_mul]
    exact Nat.mul_le_mul_right dim hmod
  unfold Half.row pagedBlockTokens
  dsimp only
  rw [if_neg (Nat.not_lt.mpr hresident), hb, Option.bind_eq_bind, Option.bind_some, if_pos hroom,
    hread]
  rfl

/-- A block that is opened at a boundary, fresh or recycled. -/
lemma Holds.grow [Zero α] (h : half.Holds dim evicted rows) (hboundary : rows.length % 16 = 0) :
    (half.grow dim).1.Ready dim evicted rows := by
  have hfull : blocksOf rows.length = rows.length/16 := by
    unfold blocksOf
    omega
  have hgrown : ∃ block rest, (half.grow dim).1 = ⟨half.blocks++[block],rest⟩ ∧
      block.length = 16*dim ∧ (∀ b ∈ rest, b.length = 16*dim) ∧ rest.length ≤ freeBlocksCap := by
    obtain ⟨blocks,free⟩ := half
    cases free with
    | nil => exact ⟨_,_,rfl,List.length_replicate,List.forall_mem_nil _,Nat.zero_le _⟩
    | cons b rest =>
      obtain ⟨hb,hrest⟩ := List.forall_mem_cons.mp h.freeWidth
      refine ⟨_,_,rfl,?_,hrest,Nat.le_of_succ_le h.free_le⟩
      rw [List.length_map, hb]
  obtain ⟨block,rest,hgrow,hblock,hrest,hfree⟩ := hgrown
  have hresident := h.resident
  rw [hgrow]
  refine ⟨h.evicted_le,?_,?_,hrest,hfree,fun i hi hold => ?_⟩
  · rw [List.length_append, List.length_singleton]
    omega
  · simp only [List.forall_mem_append, List.forall_mem_singleton]
    exact ⟨h.width,hblock⟩
  · obtain ⟨b,hb,hread⟩ := h.held i hi hold
    exact ⟨b,by rw [List.getElem?_append_left (List.getElem?_eq_some_iff.mp hb).1, hb],hread⟩

/-- Away from a boundary the last block has room. -/
lemma Holds.ready (h : half.Holds dim evicted rows) (hinside : rows.length % 16 ≠ 0) :
    half.Ready dim evicted rows where
  evicted_le := h.evicted_le
  resident := by
    rw [h.resident]
    unfold blocksOf
    omega
  width := h.width
  freeWidth := h.freeWidth
  free_le := h.free_le
  held := h.held

/-- The row that is written joins the rows that are held. -/
lemma Ready.writeRow (h : half.Ready dim evicted rows) {row : List α} (hrow : row.length = dim) :
    ∃ next, half.writeRow dim (rows.length % 16) row = some next ∧
      next.Holds dim evicted (rows++[row]) := by
  have hevicted := h.evicted_le
  have hresident := h.resident
  have hnonempty : half.blocks ≠ [] := by
    rintro hnil
    rw [hnil, List.length_nil] at hresident
    omega
  obtain ⟨init,last,hblocks⟩ : ∃ init last, half.blocks = init++[last] :=
    ⟨_,_,(List.dropLast_append_getLast hnonempty).symm⟩
  rw [hblocks, List.length_append, List.length_singleton] at hresident
  have hlastWidth : last.length = 16*dim := by
    apply h.width
    rw [hblocks]
    exact List.mem_append_right _ List.mem_cons_self
  have hroom : rows.length % 16*dim+dim ≤ last.length := by
    have hmod : rows.length % 16+1 ≤ 16 := Nat.mod_lt _ (by decide)
    rw [hlastWidth, ← Nat.succ_mul]
    exact Nat.mul_le_mul_right dim hmod
  have hwrite : rows.length % 16*dim+row.length ≤ last.length := by
    rw [hrow]
    exact hroom
  refine ⟨⟨init++[Slab.write last (rows.length % 16*dim) row],half.free⟩,?_,?_⟩
  · unfold Half.writeRow
    rw [hblocks, List.getLast?_concat, List.dropLast_concat, Option.bind_eq_bind, Option.bind_some,
      if_pos ⟨hroom,hrow⟩]
    rfl
  · refine ⟨?_,?_,?_,h.freeWidth,h.free_le,fun i hi hold => ?_⟩
    · rw [List.length_append]
      omega
    · rw [List.length_append, List.length_append, List.length_singleton, List.length_singleton]
      unfold blocksOf
      omega
    · intro b hb
      obtain hinit | hlast := List.mem_append.mp hb
      · apply h.width
        rw [hblocks]
        exact List.mem_append_left _ hinit
      · rw [List.mem_singleton.mp hlast, Slab.length_write hwrite, hlastWidth]
    · rw [List.length_append, List.length_singleton] at hi
      obtain hearlier | rfl := Nat.lt_or_eq_of_le (Nat.lt_succ_iff.mp hi)
      · obtain ⟨b,hb,hread⟩ := h.held i hearlier hold
        rw [List.getElem_append_left hearlier]
        rw [hblocks] at hb
        obtain hbefore | hlast := Nat.lt_or_ge (i/16-evicted) init.length
        · rw [List.getElem?_append_left hbefore] at hb
          exact ⟨b,by rw [List.getElem?_append_left hbefore, hb],hread⟩
        · -- The block that is written holds earlier rows before the new one.
          have hsame : i/16-evicted = init.length := by omega
          rw [hsame, List.getElem?_concat_length] at hb
          cases hb
          refine ⟨_,by rw [hsame, List.getElem?_concat_length],?_⟩
          rw [Slab.read_write_disjoint hwrite (.inl ?_), hread]
          have hmod : i % 16+1 ≤ rows.length % 16 := by omega
          rw [← Nat.succ_mul]
          exact Nat.mul_le_mul_right dim hmod
      · have hsame : rows.length/16-evicted = init.length := by omega
        refine ⟨_,by rw [hsame, List.getElem?_concat_length],?_⟩
        rw [List.getElem_concat_length rfl]
        have hread := Slab.read_write hwrite
        rwa [hrow] at hread

/-- One block that is evicted. -/
lemma Holds.evictOne {b : List α} {rest free free' : List (List α)}
    (h : (⟨b::rest,free⟩ : Half α).Holds dim evicted rows) (hbelow : (evicted+1)*16 ≤ rows.length)
    (hfree : free' = free ∨ free' = b::free ∧ free.length<freeBlocksCap) :
    (⟨rest,free'⟩ : Half α).Holds dim (evicted+1) rows := by
  obtain ⟨hb,hrest⟩ := List.forall_mem_cons.mp h.width
  have hfreeWidth : (∀ b ∈ free', b.length = 16*dim) ∧ free'.length ≤ freeBlocksCap := by
    obtain rfl | ⟨rfl,hroom⟩ := hfree
    · exact ⟨h.freeWidth,h.free_le⟩
    · exact ⟨List.forall_mem_cons.mpr ⟨hb,h.freeWidth⟩,hroom⟩
  refine ⟨hbelow,?_,hrest,hfreeWidth.1,hfreeWidth.2,fun i hi hold => ?_⟩
  · have hresident : rest.length+1+evicted = blocksOf rows.length := h.resident
    change rest.length+(evicted+1) = _
    omega
  · obtain ⟨b',hb',hread⟩ := h.held i hi (Nat.le_of_succ_le hold)
    refine ⟨b',?_,hread⟩
    have hnext : i/16-evicted = (i/16-(evicted+1))+1 := by omega
    rwa [hnext, List.getElem?_cons_succ] at hb'

/-- Any number of blocks below the rows that are left. -/
lemma Holds.evict (n : ℕ) : ∀ {evicted : ℕ} {half : Half α}, half.Holds dim evicted rows →
    n ≤ half.blocks.length → (evicted+n)*16 ≤ rows.length →
    (half.evict n).1.Holds dim (evicted+n) rows := by
  induction n with
  | zero => exact fun h _ _ => h
  | succ n ih =>
    intro evicted half h hn hbelow
    obtain ⟨blocks,free⟩ := half
    cases blocks with
    | nil => cases hn
    | cons b rest =>
      have hnext : evicted+(n+1) = evicted+1+n := by omega
      rw [hnext] at hbelow ⊢
      have hstep : (evicted+1)*16 ≤ rows.length :=
        (Nat.mul_le_mul_right 16 (Nat.le_add_right _ n)).trans hbelow
      unfold Half.evict
      dsimp only
      split_ifs with hroom
      · exact ih (h.evictOne hstep (.inr ⟨rfl,hroom⟩)) (Nat.le_of_succ_le_succ hn) hbelow
      · exact ih (h.evictOne hstep (.inl rfl)) (Nat.le_of_succ_le_succ hn) hbelow

end Half

namespace KvCache
variable {α : Type} {kvDim vDim : ℕ} {rows : List (List α × List α)} {cache : KvCache α}

/-- A cache that holds these pairs of rows. -/
structure Holds (kvDim vDim : ℕ) (rows : List (List α × List α)) (cache : KvCache α) : Prop where
  keyWidth : cache.kvDim = kvDim
  valueWidth : cache.vDim = vDim
  seqLen : cache.seqLen = rows.length
  keys : cache.keys.Holds kvDim cache.evictedBlocks (rows.map Prod.fst)
  values : cache.values.Holds vDim cache.evictedBlocks (rows.map Prod.snd)

lemma holds_newKv (kvDim vDim : ℕ) : (newKv kvDim vDim : KvCache α).Holds kvDim vDim [] :=
  ⟨rfl,rfl,rfl,.empty,.empty⟩

lemma Holds.reset (h : cache.Holds kvDim vDim rows) : cache.reset.1.Holds kvDim vDim [] :=
  ⟨h.keyWidth,h.valueWidth,rfl,.empty,.empty⟩

lemma Holds.zeroize [Zero α] (h : cache.Holds kvDim vDim rows) :
    cache.zeroize.1.Holds kvDim vDim [] :=
  ⟨h.keyWidth,h.valueWidth,rfl,.empty,.empty⟩

/-- The halves have the same number of blocks. -/
lemma Holds.resident (h : cache.Holds kvDim vDim rows) :
    cache.keys.blocks.length+cache.evictedBlocks = blocksOf rows.length ∧
      cache.values.blocks.length+cache.evictedBlocks = blocksOf rows.length := by
  have hkeys := h.keys.resident
  have hvalues := h.values.resident
  rw [List.length_map] at hkeys hvalues
  exact ⟨hkeys,hvalues⟩

lemma Holds.evicted_le (h : cache.Holds kvDim vDim rows) :
    cache.evictedBlocks*16 ≤ rows.length := by
  have hkeys := h.keys.evicted_le
  rwa [List.length_map] at hkeys

/-- An append in a cache that holds its rows never panics. -/
lemma Holds.append [Zero α] (h : cache.Holds kvDim vDim rows) {k v : List α}
    (hk : k.length = kvDim) (hv : v.length = vDim) : ∃ next effect,
      cache.append k v = some (next,effect) ∧ next.Holds kvDim vDim (rows++[(k,v)]) ∧
        next.evictedBlocks = cache.evictedBlocks ∧ effect.released = [] := by
  have hopen : ∃ opened allocated, cache.openBlock = some (opened,allocated) ∧
      opened.keys.Ready kvDim cache.evictedBlocks (rows.map Prod.fst) ∧
      opened.values.Ready vDim cache.evictedBlocks (rows.map Prod.snd) := by
    unfold openBlock pagedBlockTokens
    rw [h.seqLen, h.keyWidth, h.valueWidth]
    by_cases hboundary : rows.length % 16 = 0
    · have hresident := h.resident.1
      have hevicted := h.evicted_le
      have hassert : cache.evictedBlocks ≤ rows.length/16 ∧
          cache.keys.blocks.length = rows.length/16-cache.evictedBlocks := by
        unfold blocksOf at hresident
        omega
      rw [if_pos hboundary, if_pos hassert]
      exact ⟨_,_,rfl,h.keys.grow (by rwa [List.length_map]),h.values.grow (by rwa [List.length_map])⟩
    · rw [if_neg hboundary]
      exact ⟨_,_,rfl,h.keys.ready (by rwa [List.length_map]),h.values.ready (by rwa [List.length_map])⟩
  obtain ⟨opened,allocated,hopened,hkeys,hvalues⟩ := hopen
  obtain ⟨keys,hwriteKeys,hkeys⟩ := hkeys.writeRow hk
  obtain ⟨values,hwriteValues,hvalues⟩ := hvalues.writeRow hv
  rw [List.length_map] at hwriteKeys hwriteValues
  refine ⟨{ cache with keys := keys, values := values, seqLen := cache.seqLen+1 },⟨allocated,[]⟩,?_,
    ⟨h.keyWidth,h.valueWidth,?_,?_,?_⟩,rfl,rfl⟩
  · unfold KvCache.append pagedBlockTokens
    rw [h.keyWidth, h.valueWidth, if_pos ⟨hk,hv⟩, hopened, Option.bind_eq_bind, Option.bind_some, h.seqLen]
    dsimp only
    rw [hwriteKeys, Option.bind_eq_bind, Option.bind_some, hwriteValues]
    rfl
  · rw [List.length_append, List.length_singleton, h.seqLen]
  · rw [List.map_append]
    exact hkeys
  · rw [List.map_append]
    exact hvalues

/-- An eviction keeps the rows and moves the first block that is held. -/
lemma Holds.evictBefore (h : cache.Holds kvDim vDim rows) (pos : ℕ) :
    (cache.evictBefore pos).1.Holds kvDim vDim rows ∧ (cache.evictBefore pos).1.evictedBlocks =
      max cache.evictedBlocks (min pos rows.length/16) := by
  have hresident := h.resident
  unfold KvCache.evictBefore blocksToDrop pagedBlockTokens
  dsimp only
  rw [h.seqLen]
  by_cases htarget : min pos rows.length/16 ≤ cache.evictedBlocks
  · rw [if_pos htarget]
    exact ⟨h,(max_eq_left htarget).symm⟩
  · rw [if_neg htarget]
    have hdrop : min (min pos rows.length/16-cache.evictedBlocks) cache.keys.blocks.length =
        min pos rows.length/16-cache.evictedBlocks := by
      unfold blocksOf at hresident
      omega
    rw [hdrop, if_neg (by omega)]
    have hbelow : (cache.evictedBlocks+(min pos rows.length/16-cache.evictedBlocks))*16 ≤
        rows.length := by omega
    refine ⟨⟨h.keyWidth,h.valueWidth,rfl,?_,?_⟩,?_⟩
    · refine h.keys.evict _ ?_ (by rwa [List.length_map])
      unfold blocksOf at hresident
      omega
    · refine h.values.evict _ ?_ (by rwa [List.length_map])
      unfold blocksOf at hresident
      omega
    · change cache.evictedBlocks+(min pos rows.length/16-cache.evictedBlocks) = _
      omega

lemma Holds.key (h : cache.Holds kvDim vDim rows) {i : ℕ} (hi : i<rows.length)
    (hold : cache.evictedBlocks ≤ i/16) : cache.key i = some rows[i].1 := by
  have hrow := h.keys.row (by rwa [List.length_map]) hold
  rw [List.getElem_map] at hrow
  rw [KvCache.key, h.keyWidth, hrow]

lemma Holds.value (h : cache.Holds kvDim vDim rows) {i : ℕ} (hi : i<rows.length)
    (hold : cache.evictedBlocks ≤ i/16) : cache.value i = some rows[i].2 := by
  have hrow := h.values.row (by rwa [List.length_map]) hold
  rw [List.getElem_map] at hrow
  rw [KvCache.value, h.valueWidth, hrow]

end KvCache

section Calls
variable {α : Type} {kvDim vDim : ℕ} {rows : List (List α × List α)} {cache : KvCache α}

/-- Rows of the declared widths. -/
def Call.Fits (kvDim vDim : ℕ) : Call α → Prop
  | .append k v => k.length = kvDim ∧ v.length = vDim
  | .evictBefore _ => True
  | .reset => True
  | .zeroize => True

/-- Every call keeps what is held. -/
lemma KvCache.Holds.run [Zero α] (calls : List (Call α)) : ∀ {rows : List (List α × List α)}
    {cache : KvCache α}, (∀ call ∈ calls, call.Fits kvDim vDim) → cache.Holds kvDim vDim rows →
    ∃ next effect, cache.run calls = some (next,effect) ∧
      next.Holds kvDim vDim (appended rows calls) := by
  induction calls with
  | nil => exact fun _ h => ⟨_,_,rfl,h⟩
  | cons call calls ih =>
    intro rows cache hfits h
    obtain ⟨hfit,hfits⟩ := List.forall_mem_cons.mp hfits
    have hstep : ∃ next effect, cache.step call = some (next,effect) ∧
        ∃ rows', next.Holds kvDim vDim rows' ∧ appended rows (call::calls) = appended rows' calls := by
      cases call with
      | append k v =>
        obtain ⟨next,effect,happend,hnext,-,-⟩ := h.append hfit.1 hfit.2
        exact ⟨next,effect,happend,_,hnext,rfl⟩
      | evictBefore pos => exact ⟨_,_,rfl,_,(h.evictBefore pos).1,rfl⟩
      | reset => exact ⟨_,_,rfl,_,h.reset,rfl⟩
      | zeroize => exact ⟨_,_,rfl,_,h.zeroize,rfl⟩
    obtain ⟨next,effect,hstep,rows',hnext,happended⟩ := hstep
    obtain ⟨last,effects,hrun,hlast⟩ := ih hfits hnext
    refine ⟨last,effect.andThen effects,?_,happended ▸ hlast⟩
    unfold KvCache.run
    rw [hstep, Option.bind_eq_bind, Option.bind_some]
    dsimp only
    rw [hrun]
    rfl

end Calls

end MicroExpertRouter.Attention
