import MicroExpertRouter.Tokenizer.Windows

/-! Streamed text against the text of all tokens at once. Both are the same exactly when no window is
cut inside a sequence of bytes. -/
namespace MicroExpertRouter.Tokenizer
open Utf8 (replacement)

/-- No window that is full ends inside a sequence. -/
def WholeFrom (w : ℕ) (pending bytes : List UInt8) : Prop :=
  ∀ front b back, bytes = front++b::back → front ≠ [] → front.foldl windowAfter w = 0 →
    Utf8.continues (Utf8.feedAll pending front).2 b = false

section Cuts
variable {w : ℕ} {pending : List UInt8} {b : UInt8} {bytes : List UInt8}

lemma wholeFrom_nil : WholeFrom w pending [] := by
  intro front b back h
  simp at h

/-- The first byte, and then the others. -/
lemma wholeFrom_cons : WholeFrom w pending (b::bytes) ↔
    (windowAfter w b = 0 → ∀ c ∈ bytes.head?, Utf8.continues (Utf8.feed pending b).2 c = false) ∧
      WholeFrom (windowAfter w b) (Utf8.feed pending b).2 bytes := by
  constructor
  · intro h
    constructor
    · intro hfull c hc
      obtain ⟨back,rfl⟩ := List.head?_eq_some_iff.mp hc
      exact h [b] c back rfl (List.cons_ne_nil _ _) hfull
    · intro front c back hsplit _ hfull
      exact h (b::front) c back (by rw [hsplit]; rfl) (List.cons_ne_nil _ _) hfull
  · rintro ⟨hfirst,hrest⟩ front c back hsplit hne hfull
    obtain ⟨x,front,rfl⟩ := List.exists_cons_of_ne_nil hne
    obtain ⟨rfl,hbytes⟩ := List.cons.inj hsplit
    by_cases hfront : front = []
    · subst hfront
      exact hfirst hfull c (by rw [hbytes]; rfl)
    · exact hrest front c back hbytes hfront hfull

/-- Pending bytes that are not continued make no difference. -/
lemma wholeFrom_restart (h : ∀ b ∈ bytes.head?, Utf8.continues pending b = false) :
    WholeFrom w pending bytes ↔ WholeFrom w [] bytes := by
  cases bytes with
  | nil => exact iff_of_true wholeFrom_nil wholeFrom_nil
  | cons b bytes =>
    rw [wholeFrom_cons, wholeFrom_cons, Utf8.feed_of_not_continues (h b rfl), Utf8.feed_nil]

lemma windowAfter_ne_zero (hroom : w+1<StreamDecoder.maxLookbehindTokens) (b : UInt8) :
    windowAfter w b ≠ 0 := by
  rw [windowAfter, if_neg (by omega)]
  split_ifs <;> omega

lemma cutFrom_full (hfull : StreamDecoder.maxLookbehindTokens ≤ w+1) :
    cutFrom w pending (b::bytes) = (Utf8.feed pending b).1++
      (Utf8.flush (Utf8.feed pending b).2++cutFrom 0 [] bytes) := if_pos hfull

lemma cutFrom_next (hroom : w+1<StreamDecoder.maxLookbehindTokens) :
    cutFrom w pending (b::bytes) = (Utf8.feed pending b).1++
      cutFrom (windowAfter w b) (Utf8.feed pending b).2 bytes := if_neg (by omega)

/-- Cut text is never shorter. -/
lemma length_lossyFrom_le_cutFrom (bytes : List UInt8) : ∀ w pending,
    (Utf8.lossyFrom pending bytes).length ≤ (cutFrom w pending bytes).length := by
  induction bytes with
  | nil => exact fun w pending => le_rfl
  | cons b bytes ih =>
    intro w pending
    rw [Utf8.lossyFrom_cons]
    by_cases hfull : StreamDecoder.maxLookbehindTokens ≤ w+1
    · have hcut := Utf8.length_lossyFrom_le bytes (Utf8.feed pending b).2
      have hrest := ih 0 []
      rw [cutFrom_full hfull]
      simp only [List.length_append] at hcut ⊢
      omega
    · have hrest := ih (windowAfter w b) (Utf8.feed pending b).2
      rw [cutFrom_next (by omega)]
      simp only [List.length_append]
      omega

/-- By induction on the bytes; a sequence that is torn makes the cut text longer. -/
theorem cutFrom_eq_iff (bytes : List UInt8) : ∀ w pending,
    cutFrom w pending bytes = Utf8.lossyFrom pending bytes ↔ WholeFrom w pending bytes := by
  induction bytes with
  | nil => exact fun w pending => iff_of_true rfl wholeFrom_nil
  | cons b bytes ih =>
    intro w pending
    rw [Utf8.lossyFrom_cons, wholeFrom_cons]
    by_cases hfull : StreamDecoder.maxLookbehindTokens ≤ w+1
    · rw [cutFrom_full hfull, List.append_cancel_left_eq, windowAfter_full hfull]
      by_cases hover : ∀ c ∈ bytes.head?, Utf8.continues (Utf8.feed pending b).2 c = false
      · rw [Utf8.lossyFrom_of_not_continues hover, List.append_cancel_left_eq, ih,
          wholeFrom_restart hover]
        exact (and_iff_right fun _ => hover).symm
      · refine iff_of_false (fun heq => hover ?_) fun h => hover (h.1 rfl)
        intro c hc
        by_contra hcontinues
        obtain ⟨back,rfl⟩ := List.head?_eq_some_iff.mp hc
        have hlt := Utf8.length_lossyFrom_cons_lt (Bool.of_not_eq_false hcontinues)
          (Utf8.length_lossyFrom_le back)
        have hle := length_lossyFrom_le_cutFrom (c::back) 0 []
        have hlength := congrArg List.length heq
        simp only [List.length_append] at hlt hlength
        omega
    · rw [cutFrom_next (by omega), List.append_cancel_left_eq, ih]
      exact (and_iff_right fun hzero => absurd hzero (windowAfter_ne_zero (by omega) b)).symm

end Cuts

section Texts

/-- Every full window of a text ends between two of its characters. -/
def FlushesBetweenCharacters (text : List Char) : Prop :=
  ∀ before c after k, text = before++c::after → 0<k → k<(String.utf8EncodeChar c).length →
    (Utf8.encode before++(String.utf8EncodeChar c).take k).foldl windowAfter 0 ≠ 0

lemma wholeFrom_encode {text : List Char} :
    WholeFrom 0 [] (Utf8.encode text) ↔ FlushesBetweenCharacters text := by
  have hpart : ∀ (before : List Char) (c : Char) (k : ℕ), 0<k →
      k<(String.utf8EncodeChar c).length → ∃ b rest,
      String.utf8EncodeChar c = (String.utf8EncodeChar c).take k++b::rest ∧
      Utf8.continues (Utf8.feedAll [] (Utf8.encode before++(String.utf8EncodeChar c).take k)).2 b =
        true := by
    intro before c k hpos hk
    obtain ⟨b,rest,hrest⟩ := List.exists_cons_of_ne_nil
      (List.ne_nil_of_length_pos (List.length_drop ▸ Nat.sub_pos_of_lt hk))
    have hsplit : String.utf8EncodeChar c = (String.utf8EncodeChar c).take k++b::rest := by
      rw [← hrest, List.take_append_drop]
    obtain ⟨hfed,hcontinues⟩ := (Utf8.encodes_utf8EncodeChar c).part _ b rest hsplit (by
      intro hnil
      have hlength := congrArg List.length hnil
      rw [List.length_take, List.length_nil] at hlength
      omega)
    refine ⟨b,rest,hsplit,?_⟩
    rw [Utf8.feedAll_append, Utf8.feedAll_encode, hfed]
    exact hcontinues
  constructor
  · rintro h before c after k rfl hpos hk hzero
    obtain ⟨b,rest,hsplit,hcontinues⟩ := hpart before c k hpos hk
    have hfalse := h _ b (rest++Utf8.encode after) (by
      simp only [Utf8.encode, List.flatMap_append, List.flatMap_cons]
      rw [List.append_assoc, ← List.cons_append, ← List.append_assoc (List.take k _), ← hsplit]) (by
      intro hnil
      have hlength := congrArg List.length hnil
      rw [List.length_append, List.length_take, List.length_nil] at hlength
      omega) hzero
    rw [hcontinues] at hfalse
    cases hfalse
  · intro h front b back hsplit _ hzero
    obtain ⟨before,c,after,k,rfl,hk,rfl⟩ := Utf8.encode_split text hsplit
    obtain rfl | hpos := Nat.eq_zero_or_pos k
    · simp [Utf8.feedAll_encode, Utf8.continues]
    · exact absurd hzero (h before c after k rfl hpos hk)

/-- What the stream of a text, one byte a token, is to deliver: the text, no replacement character of
its own, from a window within its bound. -/
structure Faithful (text : List Char) : Prop where
  whole : (StreamDecoder.stream (encode text)).flatten = text
  clean : ∀ delta ∈ StreamDecoder.stream (encode text), replacement ∈ delta → replacement ∈ text
  bounded : ∀ ids, ids <+: encode text →
    (StreamDecoder.new.pushAll ids).2.lookbehindLen ≤ StreamDecoder.maxLookbehindTokens

lemma foldl_windowAfter_lt (bytes : List UInt8) : ∀ w, w<StreamDecoder.maxLookbehindTokens →
    bytes.foldl windowAfter w<StreamDecoder.maxLookbehindTokens := by
  induction bytes with
  | nil => exact fun w hw => hw
  | cons b bytes ih =>
    intro w hw
    refine ih _ ?_
    have hpos : 1<StreamDecoder.maxLookbehindTokens := by decide
    unfold windowAfter
    split_ifs <;> omega

lemma windowAfter_le (w : ℕ) (b : UInt8) : windowAfter w b ≤ w+1 := by
  unfold windowAfter
  split_ifs <;> omega

lemma foldl_windowAfter_le (bytes : List UInt8) : ∀ w,
    bytes.foldl windowAfter w ≤ w+bytes.length := by
  induction bytes with
  | nil => exact fun w => le_rfl
  | cons b bytes ih =>
    intro w
    have hrest := ih (windowAfter w b)
    have hfirst := windowAfter_le w b
    rw [List.foldl_cons, List.length_cons]
    omega

/-- A text of few bytes never fills a window. -/
lemma flushesBetweenCharacters_of_short {text : List Char}
    (h : (Utf8.encode text).length<StreamDecoder.maxLookbehindTokens) :
    FlushesBetweenCharacters text := by
  rintro before c after k rfl hpos hk
  -- The window before the last byte is not full, so it is not empty behind it.
  obtain ⟨front,b,hfront⟩ : ∃ front b,
      Utf8.encode before++(String.utf8EncodeChar c).take k = front++[b] := by
    obtain hnil | ⟨front,b,hconcat⟩ := List.eq_nil_or_concat
      (Utf8.encode before++(String.utf8EncodeChar c).take k)
    · have hlength := congrArg List.length hnil
      rw [List.length_append, List.length_take, List.length_nil] at hlength
      omega
    · exact ⟨front,b,by rw [hconcat, List.concat_eq_append]⟩
  have hlength := congrArg List.length hfront
  have hle := foldl_windowAfter_le front 0
  simp only [Utf8.encode, List.flatMap_append, List.flatMap_cons, List.length_append,
    List.length_take, List.length_cons, List.length_nil] at h hlength
  rw [hfront, List.foldl_append]
  exact windowAfter_ne_zero (by omega) b

lemma flatten_stream_encode (text : List Char) :
    (StreamDecoder.stream (encode text)).flatten = text ↔ FlushesBetweenCharacters text := by
  have htext : Utf8.lossyFrom [] (Utf8.encode text) = text := Utf8.lossy_encode text
  rw [flatten_stream, map_byteOf_encode, ← wholeFrom_encode, ← cutFrom_eq_iff, htext]

/-- A text streams as it is exactly when no full window ends inside one of its characters. Any
tokens whose window never fills stream as they decode all at once. -/
theorem streamed_text_iff (text : List Char) (ids : List UInt32) :
    (Faithful text ↔ FlushesBetweenCharacters text) ∧
    ((∀ front id back, ids = front++id::back →
      (StreamDecoder.new.pushAll front).2.lookbehindLen+1<StreamDecoder.maxLookbehindTokens) →
        (StreamDecoder.stream ids).flatten = decode ids) := by
  refine ⟨⟨fun h => (flatten_stream_encode text).mp h.whole,fun h => ?_⟩,fun hroom => ?_⟩
  · have hwhole := (flatten_stream_encode text).mpr h
    refine ⟨hwhole,fun delta hdelta hmem => ?_,fun ids _ => ?_⟩
    · rw [← hwhole]
      exact List.mem_flatten_of_mem hdelta hmem
    · rw [lookbehindLen_eq]
      exact (foldl_windowAfter_lt _ 0 (by decide)).le
  · rw [flatten_stream]
    refine (cutFrom_eq_iff _ 0 []).mpr ?_
    intro front b back hsplit hne hzero
    obtain ⟨ids',rest,rfl,hfront,-⟩ := List.map_eq_append_iff.mp hsplit
    -- A window that is empty behind a token was full.
    obtain ⟨before,id,rfl⟩ := (List.eq_nil_or_concat ids').resolve_left (by
      rintro rfl
      exact hne hfront.symm)
    have hlt := hroom before id rest (by simp)
    rw [lookbehindLen_eq] at hlt
    rw [← hfront, List.concat_eq_append, List.map_append, List.foldl_append] at hzero
    exact absurd hzero (windowAfter_ne_zero hlt _)

/-- A text of two characters, and the same bytes as tokens. -/
theorem streamed_text_short : Faithful ['h','é'] ∧
    (StreamDecoder.stream [104,195,169]).flatten = decode [104,195,169] := by
  obtain ⟨htext,hids⟩ := streamed_text_iff ['h','é'] [104,195,169]
  refine ⟨htext.mpr (flushesBetweenCharacters_of_short (by decide)),hids ?_⟩
  intro front id back hsplit
  have hlength := congrArg List.length hsplit
  have hle := foldl_windowAfter_le (front.map byteOf) 0
  have hcap : StreamDecoder.maxLookbehindTokens = 64 := rfl
  simp only [List.length_append, List.length_cons, List.length_nil, List.length_map] at hlength hle
  rw [lookbehindLen_eq]
  omega

/-- Sixty-six bytes of three-byte characters fill the window inside the last but one. -/
theorem euro_signs_torn : ¬ Faithful (List.replicate 22 '€') := by
  intro h
  have hwhole := h.whole
  rw [flatten_stream, map_byteOf_encode] at hwhole
  have hlength := congrArg List.length hwhole
  revert hlength
  decide +kernel

end Texts

end MicroExpertRouter.Tokenizer
