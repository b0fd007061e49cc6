import MicroExpertRouter.Breakers.Reads
import MicroExpertRouter.Lib.Machine
import MicroExpertRouter.Packed.Coalesce

/-! The check of a packed blob against its manifest. The end of a slot is computed in wrapping `u64`
arithmetic, and nothing compares the slots of two experts. -/
namespace MicroExpertRouter.Packed
open Breakers (IoError)

/-- The last end of a slot. -/
def PackedManifest.blobLen (self : PackedManifest) : ℕ :=
  (self.entries.map fun entry => entry.2.finish.toNat).max?.getD 0

/-- `PackedBlob::validate`, with the length `metadata` gives. -/
def validateBlob (manifest : PackedManifest) (blobPath : String)
    (metadata : Except IoError UInt64) : Except IoError Unit := do
  match manifest.validate with
  | .error message => throw (.custom (.remaining "InvalidData") message)
  | .ok () =>
    let actualLen ← metadata
    let expectedLen := manifest.blobLen
    if actualLen.toNat<expectedLen then
      throw (.custom (.remaining "InvalidData")
        (s!"packed blob {blobPath} is truncated: length {actualLen} bytes but manifest requires "++
          s!"{expectedLen} bytes"))

/-- No slot is beyond a length, and two experts have slots apart. -/
structure SlotsApart (manifest : PackedManifest) (actualLen : ℕ) : Prop where
  inside : ∀ entry ∈ manifest.entries, entry.2.offset.toNat+entry.2.len.toNat ≤ actualLen
  apart : ∀ a ∈ manifest.entries, ∀ b ∈ manifest.entries, a.1 ≠ b.1 →
    a.2.offset.toNat+a.2.len.toNat ≤ b.2.offset.toNat ∨
      b.2.offset.toNat+b.2.len.toNat ≤ a.2.offset.toNat

/-- What the check leaves out: an end that wraps, and two experts at one offset. -/
structure DistinctSlots (manifest : PackedManifest) : Prop where
  fits : ∀ entry ∈ manifest.entries, entry.2.Fits
  offsets : ∀ a ∈ manifest.entries, ∀ b ∈ manifest.entries, a.1 ≠ b.1 → a.2.offset ≠ b.2.offset

section Accepted
variable {manifest : PackedManifest} {blobPath : String} {metadata : Except IoError UInt64}
  {entry : ℕ × PackedEntry}

lemma finish_le_blobLen (h : entry ∈ manifest.entries) :
    entry.2.finish.toNat ≤ manifest.blobLen :=
  List.le_max?_getD_of_mem (List.mem_map_of_mem h)

/-- What an accepted manifest says of a slot. -/
lemma of_validate (hvalid : manifest.validate = .ok ()) (h : entry ∈ manifest.entries) :
    entry.2.len = manifest.expertSize ∧ 0 < manifest.expertSize.toNat ∧
      manifest.expertSize.toNat ∣ entry.2.offset.toNat := by
  unfold PackedManifest.validate at hvalid
  split_ifs at hvalid with hempty hzero
  · rw [List.isEmpty_iff.mp hempty] at h
    cases h
  have hentry := forM_eq_ok.mp hvalid _ h
  unfold validateEntry at hentry
  dsimp only at hentry
  split_ifs at hentry with hlen hoffset
  refine ⟨not_not.mp hlen,Nat.pos_of_ne_zero fun heq => hzero (UInt64.toNat_inj.mp heq),?_⟩
  have hmod := congrArg UInt64.toNat (not_not.mp hoffset)
  rw [UInt64.toNat_mod] at hmod
  exact Nat.dvd_of_mod_eq_zero hmod

/-- An accepted blob is as long as its manifest asks for. -/
lemma of_validateBlob (h : validateBlob manifest blobPath metadata = .ok ()) :
    manifest.validate = .ok () ∧
      ∃ actualLen, metadata = .ok actualLen ∧ manifest.blobLen ≤ actualLen.toNat := by
  unfold validateBlob at h
  cases hvalid : manifest.validate with
  | error message =>
    rw [hvalid] at h
    cases h
  | ok =>
    rw [hvalid] at h
    obtain ⟨actualLen,hmetadata,h⟩ := bind_eq_ok.mp h
    dsimp only at h
    split_ifs at h with hlen
    exact ⟨rfl,actualLen,hmetadata,Nat.not_lt.mp hlen⟩

/-- Of two slots of one size at multiples of it, one ends before the other begins. -/
lemma apart_of_ne {a b size : ℕ} (ha : size ∣ a) (hb : size ∣ b) (hne : a ≠ b) :
    a+size ≤ b ∨ b+size ≤ a := by
  obtain ⟨i,rfl⟩ := ha
  obtain ⟨j,rfl⟩ := hb
  rcases Nat.lt_trichotomy i j with hlt | heq | hlt
  · left
    exact Nat.mul_le_mul_left size hlt
  · exact absurd (congrArg _ heq) hne
  · right
    exact Nat.mul_le_mul_left size hlt

/-- An accepted blob has its slots inside and apart exactly when no end of a slot wraps and no two
experts are at one offset. -/
theorem accepted_apart_iff (manifest : PackedManifest) (blobPath : String) (actualLen : UInt64)
    (h : validateBlob manifest blobPath (.ok actualLen) = .ok ()) :
    SlotsApart manifest actualLen.toNat ↔ DistinctSlots manifest := by
  obtain ⟨hvalid,actual,hactual,hlen⟩ := of_validateBlob h
  obtain rfl := Except.ok.inj hactual
  constructor
  · intro hapart
    refine ⟨fun entry hentry => ?_,fun a ha b hb hne heq => ?_⟩
    · exact Nat.lt_of_le_of_lt (hapart.inside entry hentry) actualLen.toNat_lt
    · obtain ⟨hlen',hpos,_⟩ := of_validate hvalid ha
      obtain ⟨hlenb,_,_⟩ := of_validate hvalid hb
      have hor := hapart.apart a ha b hb hne
      rw [hlen', hlenb, heq] at hor
      omega
  · intro hdistinct
    refine ⟨fun entry hentry => ?_,fun a ha b hb hne => ?_⟩
    · rw [← PackedEntry.toNat_finish (hdistinct.fits entry hentry)]
      exact (finish_le_blobLen hentry).trans hlen
    · obtain ⟨hlena,_,hdvda⟩ := of_validate hvalid ha
      obtain ⟨hlenb,_,hdvdb⟩ := of_validate hvalid hb
      rw [hlena, hlenb]
      refine apart_of_ne hdvda hdvdb fun heq => hdistinct.offsets a ha b hb hne ?_
      exact UInt64.toNat_inj.mp heq

lemma nodup_twoIds : ([0,1] : List ℕ).Nodup := by decide

/-- Two slots of a blob of two bytes. -/
def twoSlots : PackedManifest := ⟨1,1,[(0,⟨0,1⟩),(1,⟨1,1⟩)],[0,1],nodup_twoIds⟩

theorem accepted_apart_two : SlotsApart twoSlots 2 ↔ DistinctSlots twoSlots :=
  accepted_apart_iff twoSlots "experts.blob" 2 rfl

/-- Two experts in one slot. -/
def doubledSlot : PackedManifest := ⟨1,1,[(0,⟨0,1⟩),(1,⟨0,1⟩)],[0,1],nodup_twoIds⟩

/-- `2^63`. -/
def topBit : UInt64 := 9223372036854775808

lemma one_expert_distinct : ([0] : List ℕ).Nodup := List.nodup_singleton 0

/-- One expert, whose slot ends at `2^64`. -/
def wrappingSlot : PackedManifest := ⟨1,topBit,[(0,⟨topBit,topBit⟩)],[0],one_expert_distinct⟩

/-- The slot of two experts is accepted, and so is an empty blob for the slot that wraps. -/
theorem doubled_slot_accepted :
    (validateBlob doubledSlot "experts.blob" (.ok 1) = .ok () ∧ ¬ SlotsApart doubledSlot 1) ∧
    validateBlob wrappingSlot "experts.blob" (.ok 0) = .ok () ∧ ¬ SlotsApart wrappingSlot 0 := by
  refine ⟨⟨rfl,fun h => ?_⟩,rfl,fun h => ?_⟩
  · have hor := h.apart (0,⟨0,1⟩) List.mem_cons_self (1,⟨0,1⟩)
      (List.mem_cons_of_mem _ List.mem_cons_self) Nat.zero_ne_one
    revert hor
    decide
  · have hle := h.inside (0,⟨topBit,topBit⟩) List.mem_cons_self
    revert hle
    decide

end Accepted

end MicroExpertRouter.Packed
