import Mathlib.Data.List.DropRight
import MicroExpertRouter.Lib.Utf8

/-! The streaming decoder of `tokenizer.rs` over the byte tokenizer. Texts are lists of characters:
the byte offsets of the source all lie on character boundaries, and are numbers of characters. -/
namespace MicroExpertRouter.Tokenizer
open Utf8 (replacement)

def encode (input : List Char) : List UInt32 := (Utf8.encode input).map UInt8.toUInt32

def byteOf (id : UInt32) : UInt8 := (id &&& 0xFF).toUInt8

def decode (ids : List UInt32) : List Char := Utf8.lossy (ids.map byteOf)

@[simp] lemma byteOf_toUInt32 (b : UInt8) : byteOf b.toUInt32 = b := by
  unfold byteOf
  apply UInt8.toNat_inj.mp
  have hb := b.toNat_lt
  simp [Nat.and_two_pow_sub_one_eq_mod _ 8]

lemma map_byteOf_encode (input : List Char) : (encode input).map byteOf = Utf8.encode input := by
  simp [encode, Function.comp_def]

/-- Length of the trailing run of replacement characters. -/
def trailingReplacementLen (s : List Char) : ℕ :=
  (s.rtakeWhile fun c => c = replacement).length

def commonPrefixBoundary (a b : List Char) : ℕ :=
  ((a.zip b).takeWhile fun pair => pair.1 = pair.2).length

/-- The look-behind window, and what was emitted of its text. -/
structure StreamDecoder where
  ids : List UInt32
  emitted : List Char

/-- The new text of a window that is stable up to `safeEnd`, and all that is emitted of it then. -/
def advance (s emitted : List Char) (safeEnd : ℕ) : List Char × List Char :=
  if emitted.length ≤ safeEnd ∧ emitted <+: s then
    ((s.take safeEnd).drop emitted.length,s.take safeEnd)
  else if s.take safeEnd <+: emitted then ([],emitted)
  else
    -- Text that was delivered is never retracted.
    let lcp := min (commonPrefixBoundary s emitted) safeEnd
    ((s.take safeEnd).drop lcp,s.take safeEnd)

namespace StreamDecoder

def maxLookbehindTokens : ℕ := 64

def new : StreamDecoder := ⟨[],[]⟩

def lookbehindLen (self : StreamDecoder) : ℕ := self.ids.length

def push (self : StreamDecoder) (id : UInt32) : List Char × StreamDecoder :=
  let ids := self.ids++[id]
  let s := decode ids
  let force := decide (maxLookbehindTokens ≤ ids.length)
  let hold := if force then 0 else trailingReplacementLen s
  let advanced := advance s self.emitted (s.length-hold)
  if force then (advanced.1,⟨[],[]⟩)
  else if hold = 0 ∧ 1 < ids.length ∧ replacement ∉ decode [id] then
    -- A token that decodes cleanly on its own is the context of the next ones.
    (advanced.1,⟨[id],decode [id]⟩)
  else (advanced.1,⟨ids,advanced.2⟩)

def finish (self : StreamDecoder) : List Char × StreamDecoder :=
  if self.ids = [] then ([],⟨[],[]⟩)
  else
    let s := decode self.ids
    ((advance s self.emitted s.length).1,⟨[],[]⟩)

/-- The deltas of a list of tokens. -/
def pushAll (self : StreamDecoder) : List UInt32 → List (List Char) × StreamDecoder
  | [] => ([],self)
  | id::ids =>
    let (delta,next) := self.push id
    let (deltas,left) := next.pushAll ids
    (delta::deltas,left)

/-- The deltas of a stream, the last one from `finish`. -/
def stream (ids : List UInt32) : List (List Char) :=
  (new.pushAll ids).1++[(new.pushAll ids).2.finish.1]

end StreamDecoder

section Windows

/-- The length of the window behind one more byte. -/
def windowAfter (w : ℕ) (b : UInt8) : ℕ :=
  if StreamDecoder.maxLookbehindTokens ≤ w+1 then 0 else if b.toNat<0x80 then 1 else w+1

/-- The text of a stream, decoded anew behind each full window. -/
def cutFrom (w : ℕ) (pending : List UInt8) : List UInt8 → List Char
  | [] => Utf8.flush pending
  | b::bytes =>
    let (chars,pending') := Utf8.feed pending b
    if StreamDecoder.maxLookbehindTokens ≤ w+1 then
      chars++(Utf8.flush pending'++cutFrom 0 [] bytes)
    else chars++cutFrom (windowAfter w b) pending' bytes

end Windows

section Deltas

/-- Text without its trailing replacement characters. -/
def settled (s : List Char) : List Char := s.rdropWhile fun c => c = replacement

lemma take_safeEnd (s : List Char) : s.take (s.length-trailingReplacementLen s) = settled s := by
  have hsplit := congrArg List.length
    (@List.takeWhile_append_dropWhile _ (fun c => decide (c = replacement)) s.reverse)
  have hlength : s.length-trailingReplacementLen s = (settled s).length := by
    unfold settled List.rdropWhile trailingReplacementLen List.rtakeWhile
    simp only [List.length_append, List.length_reverse] at hsplit ⊢
    omega
  rw [hlength]
  exact (List.prefix_iff_eq_take.mp (List.rdropWhile_prefix _ _)).symm

lemma settled_prefix (a b : List Char) : settled a <+: settled (a++b) := by
  induction b using List.reverseRecOn with
  | nil => simp
  | append_singleton b c ih =>
    rw [← List.append_assoc]
    unfold settled at ih ⊢
    by_cases hc : c = replacement
    · rw [List.rdropWhile_concat_pos _ _ _ (by simpa using hc)]
      exact ih
    · rw [List.rdropWhile_concat_neg _ _ _ (by simpa using hc)]
      exact (List.rdropWhile_prefix _ _).trans (by simp)

@[simp] lemma settled_flush (s : List Char) (pending : List UInt8) :
    settled (s++Utf8.flush pending) = settled s := by
  unfold Utf8.flush
  split_ifs
  · simp
  · exact List.rdropWhile_concat_pos _ _ _ (by simp)

lemma advance_of_append {s emitted delta : List Char} {safeEnd : ℕ} (hle : safeEnd ≤ s.length)
    (h : s.take safeEnd = emitted++delta) : advance s emitted safeEnd = (delta,emitted++delta) := by
  have hlength := congrArg List.length h
  rw [List.length_take, min_eq_left hle, List.length_append] at hlength
  have hemitted : emitted <+: s := (List.prefix_append _ delta).trans (h ▸ List.take_prefix _ _)
  rw [advance, if_pos ⟨by omega,hemitted⟩, h, List.drop_left]

end Deltas

end MicroExpertRouter.Tokenizer
