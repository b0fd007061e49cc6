import MicroExpertRouter.Attention.Exactness
import Mathlib.Data.List.DropRight

/-! The decode loop of a sliding-window layer: it attends the last rows of its window, which the
evictions of the earlier tokens have left in the cache. -/
namespace MicroExpertRouter.Attention
variable {α : Type} {kvDim vDim window : ℕ} {rows : List (List α × List α)} {cache : KvCache α}

/-- Reading the positions from one on gives the rows from there on. -/
lemma mapM_range'_eq_drop {β : Type} {f : ℕ → Option β} {items : List β} (n : ℕ) : ∀ {start : ℕ},
    items.length-start = n → (∀ t (ht : t < items.length), start ≤ t → f t = some items[t]) →
    (List.range' start n).mapM f = some (items.drop start) := by
  induction n with
  | zero =>
    intro start hn hf
    rw [List.range'_zero, List.mapM_nil, List.drop_eq_nil_of_le (Nat.le_of_sub_eq_zero hn)]
    rfl
  | succ n ih =>
    intro start hn hf
    have hstart : start < items.length := by omega
    rw [List.range'_succ, List.mapM_cons, hf start hstart le_rfl,
      ih (by omega) fun t ht hle => hf t ht (Nat.le_of_succ_le hle), List.drop_eq_getElem_cons hstart]
    rfl

/-- The attention of a window reads its last rows. -/
lemma KvCache.Holds.attended (h : cache.Holds kvDim vDim rows)
    (hold : cache.evictedBlocks ≤ (rows.length-window)/16) :
    cache.attended (.slidingWindow window) = some (rows.rtake window) := by
  unfold KvCache.attended AttentionMode.start List.rtake
  dsimp only
  rw [h.seqLen]
  refine mapM_range'_eq_drop _ rfl fun t ht hle => ?_
  have hresident : cache.evictedBlocks ≤ t/16 := hold.trans (Nat.div_le_div_right hle)
  rw [h.key ht hresident, h.value ht hresident]
  rfl

/-- A cache between two tokens of the loop. -/
structure KvCache.Scheduled (evicting : Bool) (kvDim vDim window : ℕ)
    (rows : List (List α × List α)) (cache : KvCache α) : Prop where
  holds : cache.Holds kvDim vDim rows
  evicted : cache.evictedBlocks = if evicting then (rows.length-1-window)/16 else 0

/-- One token: it attends the last rows of the window, and the cache stays within its bound. -/
lemma KvCache.Scheduled.decodeToken [Zero α] {evicting : Bool}
    (h : cache.Scheduled evicting kvDim vDim window rows) {row : List α × List α}
    (hk : row.1.length = kvDim) (hv : row.2.length = vDim) : ∃ next attended,
      cache.decodeToken evicting window rows.length row = some (next,attended) ∧
      next.Scheduled evicting kvDim vDim window (rows++[row]) ∧
      attended.rows = (rows++[row]).rtake window ∧
      (evicting = true → attended.resident ≤ window/16+2 ∧ attended.kept ≤ window/16+2) := by
  obtain ⟨appended,effect,happend,hholds,hsame,-⟩ := h.holds.append hk hv
  have hlength : (rows++[row]).length = rows.length+1 := by
    rw [List.length_append, List.length_singleton]
  have hold : appended.evictedBlocks ≤ ((rows++[row]).length-window)/16 := by
    rw [hsame, h.evicted, hlength]
    split_ifs <;> omega
  have hattended := hholds.attended hold
  obtain ⟨hevict,hevicted⟩ := hholds.evictBefore (rows.length-window)
  rw [hsame, h.evicted, hlength] at hevicted
  unfold KvCache.decodeToken
  rw [happend, Option.bind_eq_bind, Option.bind_some]
  dsimp only
  rw [hattended]
  refine ⟨_,_,rfl,?_,rfl,?_⟩
  · cases evicting with
    | false =>
      refine ⟨hholds,?_⟩
      change appended.evictedBlocks = 0
      rw [hsame, h.evicted]
      rfl
    | true =>
      refine ⟨hevict,?_⟩
      rw [if_pos rfl] at hevicted
      rw [if_pos rfl, if_pos rfl, hevicted, hlength]
      omega
  · rintro rfl
    have hresident := hholds.resident.1
    have hkept := hevict.resident.1
    rw [if_pos rfl] at hevicted
    rw [hsame, h.evicted, if_pos rfl, hlength] at hresident
    rw [hevicted, hlength] at hkept
    unfold blocksOf at hresident hkept
    unfold numBlocks
    rw [if_pos rfl]
    dsimp only
    constructor <;> omega

/-- The whole loop. -/
lemma KvCache.Scheduled.decode [Zero α] {evicting : Bool} (tokens : List (List α × List α)) :
    ∀ {rows : List (List α × List α)} {cache : KvCache α},
      (∀ row ∈ tokens, row.1.length = kvDim ∧ row.2.length = vDim) →
      cache.Scheduled evicting kvDim vDim window rows → ∃ next attended,
        cache.decode evicting window rows.length tokens = some (next,attended) ∧
        attended.map Attended.rows =
          (List.range tokens.length).map (fun n => (rows++tokens.take (n+1)).rtake window) ∧
        (evicting = true → ∀ a ∈ attended, a.resident ≤ window/16+2 ∧ a.kept ≤ window/16+2) := by
  induction tokens with
  | nil => exact fun _ _ => ⟨_,[],rfl,rfl,fun _ _ hmem => by cases hmem⟩
  | cons row tokens ih =>
    intro rows cache hfits h
    obtain ⟨⟨hk,hv⟩,hfits⟩ := List.forall_mem_cons.mp hfits
    obtain ⟨next,attended,htoken,hnext,hrows,hbound⟩ := h.decodeToken hk hv
    obtain ⟨last,rest,hdecode,hrest,hbounds⟩ := ih hfits hnext
    rw [List.length_append, List.length_singleton] at hdecode
    refine ⟨last,attended::rest,?_,?_,fun hevicting => List.forall_mem_cons.mpr
      ⟨hbound hevicting,hbounds hevicting⟩⟩
    · unfold KvCache.decode
      rw [htoken, Option.bind_eq_bind, Option.bind_some]
      dsimp only
      rw [hdecode]
      rfl
    · rw [List.map_cons, hrows, hrest, List.length_cons, List.range_succ_eq_map, List.map_cons,
        List.map_map]
      congr 1
      apply List.map_congr_left
      intro n _
      rw [Function.comp_apply, List.take_succ_cons, List.append_assoc]
      rfl

/-- What a cache is to the rows appended to it. -/
structure KvCache.Exact (rows : List (List α × List α)) (cache : KvCache α) : Prop where
  seqLen : cache.seqLen = rows.length
  evicted_le : cache.evictedBlocks ≤ blocksOf cache.seqLen
  keyBlocks : cache.keys.blocks.length = blocksOf cache.seqLen-cache.evictedBlocks
  valueBlocks : cache.values.blocks.length = blocksOf cache.seqLen-cache.evictedBlocks
  freeKeys : cache.keys.free.length ≤ 8
  freeValues : cache.values.free.length ≤ 8
  held : ∀ i (hi : i<rows.length), cache.evictedBlocks ≤ i/16 →
    cache.key i = some rows[i].1 ∧ cache.value i = some rows[i].2

lemma KvCache.Holds.exact (h : cache.Holds kvDim vDim rows) : cache.Exact rows where
  seqLen := h.seqLen
  evicted_le := by
    have hresident := h.resident.1
    rw [h.seqLen]
    omega
  keyBlocks := by
    have hresident := h.resident.1
    rw [h.seqLen]
    omega
  valueBlocks := by
    have hresident := h.resident.2
    rw [h.seqLen]
    omega
  freeKeys := h.keys.free_le
  freeValues := h.values.free_le
  held _ hi hold := ⟨h.key hi hold,h.value hi hold⟩

/-- The paged cache is exact after any calls, and the decode loop with its evictions attends the
rows that it attends without them, in a bounded number of blocks. -/
theorem kv_cache_exact [Zero α] (kvDim vDim : ℕ) :
    (∀ calls : List (Call α), (∀ call ∈ calls, call.Fits kvDim vDim) → ∃ cache effect,
      (KvCache.newKv kvDim vDim).run calls = some (cache,effect) ∧
      cache.Exact (appended [] calls)) ∧
    ∀ (window : ℕ) (tokens : List (List α × List α)),
      (∀ row ∈ tokens, row.1.length = kvDim ∧ row.2.length = vDim) → ∃ cache attended whole kept,
        (KvCache.newKv kvDim vDim).decode true window 0 tokens = some (cache,attended) ∧
        (KvCache.newKv kvDim vDim).decode false window 0 tokens = some (whole,kept) ∧
        attended.map Attended.rows = kept.map Attended.rows ∧
        attended.map Attended.rows =
          (List.range tokens.length).map (fun n => (tokens.take (n+1)).rtake window) ∧
        ∀ a ∈ attended, a.resident ≤ window/16+2 ∧ a.kept ≤ window/16+2 := by
  refine ⟨fun calls hfits => ?_,fun window tokens hfits => ?_⟩
  · obtain ⟨cache,effect,hrun,hholds⟩ :=
      KvCache.Holds.run calls hfits (KvCache.holds_newKv kvDim vDim)
    exact ⟨cache,effect,hrun,hholds.exact⟩
  · have hnew : ∀ evicting,
        (KvCache.newKv kvDim vDim : KvCache α).Scheduled evicting kvDim vDim window [] := by
      intro evicting
      refine ⟨KvCache.holds_newKv kvDim vDim,?_⟩
      split_ifs
      · simp [KvCache.newKv]
      · rfl
    obtain ⟨cache,attended,hdecode,hrows,hbound⟩ := KvCache.Scheduled.decode tokens hfits (hnew true)
    obtain ⟨whole,kept,hkeep,hkeptRows,-⟩ := KvCache.Scheduled.decode tokens hfits (hnew false)
    exact ⟨cache,attended,whole,kept,hdecode,hkeep,hrows.trans hkeptRows.symm,hrows,hbound rfl⟩

/-- Twenty rows of the numbers from 1, keys of width one and values of width two. -/
def twentyRows : List (List ℕ × List ℕ) := (List.range 20).map fun i => ([i+1],[i+1,2*i+1])

def twentyAppends : List (Call ℕ) := twentyRows.map fun row => .append row.1 row.2

/-- Rows that are appended, evicted as far as blocks allow, and appended again. -/
theorem kv_cache_exact_twenty : ∃ cache effect,
    (KvCache.newKv 1 2).run (twentyAppends++[.evictBefore 19]++twentyAppends) = some (cache,effect) ∧
      cache.key 17 = some [18] ∧ cache.value 39 = some [20,39] := by
  have happends : ∀ call ∈ twentyAppends, call.Fits 1 2 := by
    intro call hmem
    obtain ⟨row,hrow,rfl⟩ := List.mem_map.mp hmem
    obtain ⟨i,-,rfl⟩ := List.mem_map.mp hrow
    exact ⟨rfl,rfl⟩
  have hfits : ∀ call ∈ twentyAppends++[.evictBefore 19]++twentyAppends, call.Fits 1 2 := by
    simp only [List.forall_mem_append, List.forall_mem_singleton]
    exact ⟨⟨happends,trivial⟩,happends⟩
  obtain ⟨cache,effect,hrun,hexact⟩ := (kv_cache_exact 1 2).1 _ hfits
  have hevicted : ((KvCache.newKv 1 2).run (twentyAppends++[.evictBefore 19]++twentyAppends)).map
      (fun done => done.1.evictedBlocks) = some 1 := by decide +kernel
  rw [hrun] at hevicted
  have hone : cache.evictedBlocks = 1 := Option.some.inj hevicted
  refine ⟨cache,effect,hrun,(hexact.held 17 (by decide +kernel) ?_).1,
    (hexact.held 39 (by decide +kernel) ?_).2⟩
  · rw [hone]
  · rw [hone]
    decide

end MicroExpertRouter.Attention
