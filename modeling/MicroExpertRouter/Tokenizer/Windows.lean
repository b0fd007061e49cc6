import MicroExpertRouter.Tokenizer.StreamDecoder

/-! What a stream delivers: the text of its bytes, decoded anew behind each full window. -/
namespace MicroExpertRouter.Tokenizer
open Utf8 (replacement)

/-- A window between two tokens: its text is emitted but for some replacement characters that are
held back, and some bytes are pending. -/
structure Tracks (decoder : StreamDecoder) (w : ℕ) (pending : List UInt8) (held : List Char) :
    Prop where
  window : decoder.ids.length = w
  fed : Utf8.feedAll [] (decoder.ids.map byteOf) = (decoder.emitted++held,pending)
  emitted : decoder.emitted = settled (decoder.emitted++held)

section Push
variable {self : StreamDecoder} {w : ℕ} {pending : List UInt8} {held : List Char} {id : UInt32}

lemma tracks_new : Tracks .new 0 [] [] := ⟨rfl,rfl,rfl⟩

lemma decode_eq (ids : List UInt32) : decode ids = (Utf8.feedAll [] (ids.map byteOf)).1++
    Utf8.flush (Utf8.feedAll [] (ids.map byteOf)).2 := rfl

/-- The window with one more token. -/
lemma Tracks.fed_concat (h : Tracks self w pending held) (id : UInt32) :
    Utf8.feedAll [] ((self.ids++[id]).map byteOf) =
      (self.emitted++(held++(Utf8.feed pending (byteOf id)).1),(Utf8.feed pending (byteOf id)).2) := by
  rw [List.map_append, Utf8.feedAll_append, h.fed]
  simp [Utf8.feedAll_cons]

/-- Text that was emitted stays a part of the settled text of the window. -/
lemma Tracks.settled_concat (h : Tracks self w pending held) (id : UInt32) :
    ∃ delta, settled (decode (self.ids++[id])) = self.emitted++delta := by
  rw [decode_eq, h.fed_concat id, settled_flush, ← List.append_assoc]
  obtain ⟨delta,hdelta⟩ := settled_prefix (self.emitted++held) (Utf8.feed pending (byteOf id)).1
  rw [← h.emitted] at hdelta
  exact ⟨delta,hdelta.symm⟩

lemma ascii_ne_replacement {n : ℕ} (h : n<0x80) : Char.ofNat n ≠ replacement := by
  have hall : ∀ i : Fin 0x80, Char.ofNat i.val ≠ replacement := by decide
  exact hall ⟨n,h⟩

/-- The tokens that decode cleanly on their own. -/
lemma replacement_notMem_decode : replacement ∉ decode [id] ↔ (byteOf id).toNat<0x80 := by
  have hdecode : decode [id] = Utf8.lossy [byteOf id] := rfl
  rw [hdecode]
  constructor
  · intro h
    by_contra hlarge
    rw [Utf8.lossy_singleton (by omega)] at h
    exact h (List.mem_singleton_self _)
  · intro h
    rw [Utf8.lossy_ascii h, List.mem_singleton]
    exact (ascii_ne_replacement h).symm

/-- A full window is emitted as a whole. -/
lemma Tracks.push_full (h : Tracks self w pending held)
    (hfull : StreamDecoder.maxLookbehindTokens ≤ w+1) :
    self.push id = (held++((Utf8.feed pending (byteOf id)).1++
      Utf8.flush (Utf8.feed pending (byteOf id)).2),.new) := by
  have hforce : StreamDecoder.maxLookbehindTokens ≤ (self.ids++[id]).length := by
    rw [List.length_append, h.window]
    exact hfull
  have hdecode := decode_eq (self.ids++[id])
  rw [h.fed_concat id] at hdecode
  unfold StreamDecoder.push
  dsimp only
  rw [decide_eq_true hforce, if_pos rfl, if_pos rfl, Nat.sub_zero,
    advance_of_append le_rfl (by rw [List.take_length, hdecode, List.append_assoc])]
  simp only [List.append_assoc]
  rfl

/-- Behind a token that does not fill it the window goes on, or begins anew at the token. -/
lemma Tracks.push_next (h : Tracks self w pending held) (id : UInt32)
    (hroom : w+1<StreamDecoder.maxLookbehindTokens) :
    ∃ held', Tracks (self.push id).2 (windowAfter w (byteOf id)) (Utf8.feed pending (byteOf id)).2
        held' ∧
      (self.push id).1++held' = held++(Utf8.feed pending (byteOf id)).1 := by
  have hlength : (self.ids++[id]).length = w+1 := by rw [List.length_append, h.window]; rfl
  obtain ⟨delta,hsettled⟩ := h.settled_concat id
  have hfed := h.fed_concat id
  have hdecode := decode_eq (self.ids++[id])
  rw [hfed] at hdecode
  obtain ⟨held',hheld⟩ : ∃ held', self.emitted++(held++(Utf8.feed pending (byteOf id)).1) =
      (self.emitted++delta)++held' := by
    rw [← hsettled, hdecode, settled_flush]
    obtain ⟨held',hheld⟩ := List.rdropWhile_prefix (fun c => decide (c = replacement))
      (self.emitted++(held++(Utf8.feed pending (byteOf id)).1))
    exact ⟨held',hheld.symm⟩
  have hdelta : delta++held' = held++(Utf8.feed pending (byteOf id)).1 := by
    rw [List.append_assoc] at hheld
    exact (List.append_cancel_left hheld).symm
  have hpush := advance_of_append (Nat.sub_le _ (trailingReplacementLen (decode (self.ids++[id]))))
    ((take_safeEnd _).trans hsettled)
  unfold StreamDecoder.push
  dsimp only
  rw [hlength, decide_eq_false (by omega), if_neg Bool.false_ne_true, if_neg Bool.false_ne_true,
    hpush]
  simp only [replacement_notMem_decode]
  split_ifs with htrim
  · -- Everything is emitted, and the token is a character of its own.
    obtain ⟨hhold,-,hascii⟩ := htrim
    have hchar := Utf8.feed_ascii hascii pending
    have hall : held' = [] := by
      have hwhole := take_safeEnd (decode (self.ids++[id]))
      rw [hhold, Nat.sub_zero, List.take_length, hsettled, hdecode, hchar, Utf8.flush_nil,
        List.append_nil, ← congrArg Prod.fst hchar, hheld] at hwhole
      simpa using hwhole
    have hsingle : decode [id] = [Char.ofNat (byteOf id).toNat] := Utf8.lossy_ascii hascii
    refine ⟨[],⟨?_,?_,?_⟩,?_⟩
    · rw [windowAfter, if_neg (by omega), if_pos hascii]
      rfl
    · rw [hsingle, hchar]
      simp [Utf8.feedAll_cons, Utf8.feed_ascii hascii]
    · dsimp only
      rw [hsingle]
      exact (List.rdropWhile_concat_neg _ [] _ (by simpa using ascii_ne_replacement hascii)).symm
    · rw [← hdelta, hall]
  · refine ⟨held',⟨?_,?_,?_⟩,hdelta⟩
    · dsimp only
      rw [hlength, windowAfter, if_neg (by omega)]
      split_ifs with hascii
      · -- An ASCII token that is not the first one would have been kept alone.
        have hhold : trailingReplacementLen (decode (self.ids++[id])) = 0 := by
          rw [hdecode, Utf8.feed_ascii hascii]
          dsimp only [trailingReplacementLen]
          rw [Utf8.flush_nil, List.append_nil, ← List.append_assoc, ← List.append_assoc,
            List.rtakeWhile_concat_neg _ _ _ (by simpa using ascii_ne_replacement hascii)]
          rfl
        have hfirst : ¬ 1 < w+1 := fun hlater => htrim ⟨hhold,hlater,hascii⟩
        omega
      · rfl
    · rw [hfed, hheld]
    · dsimp only
      rw [← hheld, ← hsettled, hdecode, settled_flush]

/-- The held text comes with the last delta. -/
lemma Tracks.finish (h : Tracks self w pending held) :
    self.finish.1 = held++Utf8.flush pending := by
  have hfed := h.fed
  unfold StreamDecoder.finish
  split_ifs with hempty
  · rw [hempty] at hfed
    obtain ⟨htext,rfl⟩ := Prod.mk.inj hfed
    rw [(List.append_eq_nil_iff.mp htext.symm).2]
    rfl
  · have hdecode := decode_eq self.ids
    rw [hfed] at hdecode
    dsimp only
    rw [advance_of_append le_rfl (by rw [List.take_length, hdecode, List.append_assoc])]

end Push

section Streams
variable {self : StreamDecoder} {w : ℕ} {pending : List UInt8} {held : List Char}

lemma pushAll_cons (self : StreamDecoder) (id : UInt32) (ids : List UInt32) :
    self.pushAll (id::ids) = ((self.push id).1::((self.push id).2.pushAll ids).1,
      ((self.push id).2.pushAll ids).2) := rfl

lemma windowAfter_full (hfull : StreamDecoder.maxLookbehindTokens ≤ w+1) (b : UInt8) :
    windowAfter w b = 0 := if_pos hfull

/-- The window of a stream, by its bytes alone. -/
lemma Tracks.pushAll (ids : List UInt32) : ∀ {self w pending held},
    Tracks self w pending held → ∃ pending' held',
      Tracks (self.pushAll ids).2 ((ids.map byteOf).foldl windowAfter w) pending' held' := by
  induction ids with
  | nil => exact fun h => ⟨_,_,h⟩
  | cons id ids ih =>
    intro self w pending held h
    rw [pushAll_cons, List.map_cons, List.foldl_cons]
    by_cases hfull : StreamDecoder.maxLookbehindTokens ≤ w+1
    · rw [h.push_full hfull, windowAfter_full hfull]
      exact ih tracks_new
    · obtain ⟨held',hnext,-⟩ := h.push_next id (by omega)
      exact ih hnext

/-- By induction on the tokens, from any window. -/
lemma Tracks.delivered (ids : List UInt32) : ∀ {self w pending held},
    Tracks self w pending held →
      (self.pushAll ids).1.flatten++(self.pushAll ids).2.finish.1 =
        held++cutFrom w pending (ids.map byteOf) := by
  induction ids with
  | nil => exact fun h => h.finish
  | cons id ids ih =>
    intro self w pending held h
    rw [pushAll_cons, List.map_cons, cutFrom]
    dsimp only
    rw [List.flatten_cons, List.append_assoc]
    split_ifs with hfull
    · rw [h.push_full hfull]
      dsimp only
      rw [ih tracks_new]
      simp
    · obtain ⟨held',hnext,hdelta⟩ := h.push_next id (by omega)
      rw [ih hnext, ← List.append_assoc, hdelta, List.append_assoc]

/-- The concatenation of all deltas. -/
theorem flatten_stream (ids : List UInt32) :
    (StreamDecoder.stream ids).flatten = cutFrom 0 [] (ids.map byteOf) := by
  unfold StreamDecoder.stream
  rw [List.flatten_append, List.flatten_singleton, tracks_new.delivered]
  rfl

lemma lookbehindLen_eq (ids : List UInt32) : (StreamDecoder.new.pushAll ids).2.lookbehindLen =
    (ids.map byteOf).foldl windowAfter 0 := by
  obtain ⟨pending,held,h⟩ := tracks_new.pushAll ids
  exact h.window

end Streams

end MicroExpertRouter.Tokenizer
