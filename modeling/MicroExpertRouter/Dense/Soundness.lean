import MicroExpertRouter.Dense.Integrity
import MicroExpertRouter.Lib.References

/-! What an accepted dense manifest says: names are apart, and files, byte lengths and tied entries
are sound where the check does not normalise, wrap or follow a cycle. -/
namespace MicroExpertRouter.Dense
open Relation (ReflTransGen TransGen)

namespace DenseTensorManifestEntry

/-- The number of elements over unbounded numbers. -/
def product (self : DenseTensorManifestEntry) : ℕ := (self.dims.map UInt64.toNat).prod

/-- The byte length that the elements take. -/
def Sized (self : DenseTensorManifestEntry) : Prop :=
  if self.dtype = .f32 then self.byteLen.toNat = 4*self.product
  else 32*self.byteLen.toNat = 34*self.product

/-- The byte length fits its type. -/
def Fits (self : DenseTensorManifestEntry) : Prop :=
  if self.dtype = .f32 then 4*self.product<2^64 else 34*self.product<32*2^64

end DenseTensorManifestEntry

/-- The entry that a tied entry refers to. -/
def DenseTensorManifest.Refers (self : DenseTensorManifest) (a b : DenseTensorManifestEntry) : Prop :=
  ∃ target, a.tiedTo = some target ∧ self.findAlias target = some b

/-- The entries that have a file. -/
def DenseTensorManifest.Stored (self : DenseTensorManifest) (entry : DenseTensorManifestEntry) :
    Prop := entry ∈ self.tensors ∧ entry.tiedTo = none

/-- Lookups are unambiguous, files stay apart in the directory, byte lengths are those of the
elements and every tied entry leads to a stored one. -/
structure Sound (manifest : DenseTensorManifest) : Prop where
  names : manifest.tensors.Pairwise fun a b => ∀ name ∈ a.names, name ∉ b.names
  plain : ∀ entry, manifest.Stored entry → '/' ∉ entry.file.toList ∧ '\\' ∉ entry.file.toList
  files : ∀ a b, manifest.Stored a → manifest.Stored b → a.file ≠ b.file →
    UnixPath.components a.file.toList ≠ UnixPath.components b.file.toList
  sizes : ∀ entry, manifest.Stored entry → entry.Sized
  tied : ∀ entry ∈ manifest.tensors, entry.tiedTo ≠ none →
    ∃ last, manifest.Stored last ∧ ReflTransGen manifest.Refers entry last

/-- What the check leaves out. -/
structure WellPosed (manifest : DenseTensorManifest) : Prop where
  trailing : ∀ entry, manifest.Stored entry →
    ¬ ['/'] <:+ entry.file.toList ∧ ¬ ['/','.'] <:+ entry.file.toList
  fits : ∀ entry, manifest.Stored entry → entry.Fits
  acyclic : ∀ entry ∈ manifest.tensors, ¬ TransGen manifest.Refers entry entry

section Passed
variable {manifest : DenseTensorManifest} {entry : DenseTensorManifestEntry}

lemma toNat_foldl_mul (dims : List UInt64) : ∀ a : UInt64,
    (dims.foldl (·*·) a).toNat = a.toNat*(dims.map UInt64.toNat).prod%2^64 := by
  induction dims with
  | nil =>
    intro a
    simp [Nat.mod_eq_of_lt a.toNat_lt]
  | cons d dims ih =>
    intro a
    rw [List.foldl_cons, ih, UInt64.toNat_mul, List.map_cons, List.prod_cons, Nat.mod_mul_mod,
      Nat.mul_assoc]

lemma toNat_elems (entry : DenseTensorManifestEntry) : entry.elems.toNat = entry.product%2^64 := by
  simp [DenseTensorManifestEntry.elems, DenseTensorManifestEntry.product, toNat_foldl_mul]

/-- The check of the byte length is exact when the byte length fits. -/
lemma sized_iff (hstored : manifest.Stored entry) (h : manifest.Passed) :
    entry.Sized ↔ entry.Fits := by
  obtain ⟨-,hbytes⟩ := h.accepted entry hstored.1 hstored.2
  have hlt := entry.byteLen.toNat_lt
  have helems := toNat_elems entry
  unfold DenseTensorManifestEntry.Sized DenseTensorManifestEntry.Fits
  cases hdtype : entry.dtype with
  | f32 =>
    rw [hdtype, if_pos rfl] at hbytes
    rw [if_pos rfl, if_pos rfl]
    constructor
    · intro hsized
      omega
    · intro hfits
      rw [Nat.mod_eq_of_lt (by omega)] at helems
      have hle : entry.elems.toNat*4 ≤ usizeMax := by
        unfold usizeMax
        omega
      rw [hbytes, Walk.saturatingMul4, if_pos hle, UInt64.toNat_mul, helems]
      change entry.product*4%2^64 = _
      omega
  | q8_0 =>
    rw [hdtype, if_neg (by decide)] at hbytes
    rw [if_neg (by decide), if_neg (by decide)]
    constructor
    · intro hsized
      omega
    · intro hfits
      rw [Nat.mod_eq_of_lt (by omega)] at helems
      have hblocks := congrArg UInt64.toNat hbytes.1
      rw [UInt64.toNat_mod, helems] at hblocks
      rw [hbytes.2, UInt64.toNat_mul, UInt64.toNat_div, helems]
      change 32*(entry.product/32*34%2^64) = _
      change entry.product%32 = 0 at hblocks
      omega

lemma of_safe {file : String} (h : unsafeManifestFileName file = none) :
    '\\' ∉ file.toList ∧ ∃ name, UnixPath.components file.toList = [.normal name] := by
  unfold unsafeManifestFileName at h
  split_ifs at h with _ _ hbackslash
  refine ⟨hbackslash,?_⟩
  split at h
  · exact ⟨_,by assumption⟩
  · cases h

/-- A safe file that does not end in a silent piece is the one name of its path. -/
lemma components_of_safe {file : String} (h : unsafeManifestFileName file = none)
    (hslash : ¬ ['/'] <:+ file.toList) (hdot : ¬ ['/','.'] <:+ file.toList) :
    '/' ∉ file.toList ∧ UnixPath.components file.toList = [.normal file.toList] := by
  obtain ⟨-,name,hname⟩ := of_safe h
  obtain ⟨rfl,hplain⟩ := UnixPath.eq_of_components hname hslash hdot
  exact ⟨hplain.slash,hname⟩

lemma mem_of_findAlias {name : String} (h : manifest.findAlias name = some entry) :
    entry ∈ manifest.tensors := List.mem_of_find?_eq_some h

lemma refers_unique (manifest : DenseTensorManifest) : Relator.RightUnique manifest.Refers := by
  rintro a b c ⟨target,htied,hfind⟩ ⟨target',htied',hfind'⟩
  rw [htied] at htied'
  obtain rfl := Option.some.inj htied'
  rw [hfind] at hfind'
  exact Option.some.inj hfind'

/-- Nothing is behind the stored entries, and behind no other. -/
lemma final_iff (h : manifest.Passed) (hmem : entry ∈ manifest.tensors) :
    References.Final manifest.Refers entry ↔ entry.tiedTo = none := by
  constructor
  · intro hfinal
    by_contra htied
    obtain ⟨target,htarget⟩ := Option.ne_none_iff_exists'.mp htied
    obtain ⟨other,hother,hname⟩ := List.mem_flatMap.mp (h.known entry hmem target htarget)
    cases hfind : manifest.findAlias target with
    | none =>
      have hnot := List.find?_eq_none.mp hfind other hother
      exact hnot (decide_eq_true hname)
    | some next => exact hfinal next ⟨target,htarget,hfind⟩
  · rintro hnone next ⟨target,htarget,-⟩
    rw [hnone] at htarget
    cases htarget

lemma tied_iff_acyclic (h : manifest.Passed) :
    (∀ entry ∈ manifest.tensors, entry.tiedTo ≠ none →
      ∃ last, manifest.Stored last ∧ ReflTransGen manifest.Refers entry last) ↔
        ∀ entry ∈ manifest.tensors, ¬ TransGen manifest.Refers entry entry := by
  have hclosed : ∀ a ∈ {entry | entry ∈ manifest.tensors}, ∀ b, manifest.Refers a b →
      b ∈ {entry | entry ∈ manifest.tensors} := by
    rintro a - b ⟨target,-,hfind⟩
    exact mem_of_findAlias hfind
  refine Iff.trans ?_ (References.ends_iff_acyclic (refers_unique manifest)
    (List.finite_toSet manifest.tensors) hclosed)
  constructor
  · intro htied entry hmem
    by_cases hnone : entry.tiedTo = none
    · exact ⟨entry,hmem,.refl,(final_iff h hmem).mpr hnone⟩
    · obtain ⟨last,hlast,hreach⟩ := htied entry hmem hnone
      exact ⟨last,hlast.1,hreach,(final_iff h hlast.1).mpr hlast.2⟩
  · intro hends entry hmem _
    obtain ⟨last,hlast,hreach,hfinal⟩ := hends entry hmem
    exact ⟨last,⟨hlast,(final_iff h hlast).mp hfinal⟩,hreach⟩

end Passed

/-- An accepted manifest is sound exactly when no stored file ends in a separator or in a dot behind
one, the byte lengths fit and no tied entry leads back to itself. -/
theorem validateIntegrity_sound_iff (debug : String → String) (manifest : DenseTensorManifest)
    (requireChecksums : Bool) (h : manifest.validateIntegrity debug requireChecksums = []) :
    Sound manifest ↔ WellPosed manifest := by
  have hpassed := DenseTensorManifest.passed_of_validateIntegrity h
  constructor
  · intro hsound
    refine ⟨fun entry hstored => ⟨?_,?_⟩,fun entry hstored => ?_,
      (tied_iff_acyclic hpassed).mp hsound.tied⟩
    · exact fun hsuffix => (hsound.plain entry hstored).1 (hsuffix.subset (by simp))
    · exact fun hsuffix => (hsound.plain entry hstored).1 (hsuffix.subset (by simp))
    · exact (sized_iff hstored hpassed).mp (hsound.sizes entry hstored)
  · intro hposed
    have hfile : ∀ entry, manifest.Stored entry → '/' ∉ entry.file.toList ∧
        UnixPath.components entry.file.toList = [.normal entry.file.toList] := by
      intro entry hstored
      obtain ⟨hslash,hdot⟩ := hposed.trailing entry hstored
      exact components_of_safe (hpassed.accepted entry hstored.1 hstored.2).1 hslash hdot
    refine ⟨?_,fun entry hstored => ?_,fun a b ha hb hne heq => ?_,fun entry hstored => ?_,
      (tied_iff_acyclic hpassed).mpr hposed.acyclic⟩
    · exact (List.nodup_flatMap.mp hpassed.nodup).2
    · have hsafe := (hpassed.accepted entry hstored.1 hstored.2).1
      exact ⟨(hfile entry hstored).1,(of_safe hsafe).1⟩
    · rw [(hfile a ha).2, (hfile b hb).2] at heq
      apply hne
      apply String.toList_injective
      simpa using heq
    · exact (sized_iff hstored hpassed).mpr (hposed.fits entry hstored)

/-- An embedding and a head that is tied to it. -/
def tiedHead : DenseTensorManifest := ⟨1,[
  ⟨"embed","dense_embed.f32.bin",["tok_embeddings.weight"],.f32,[4,8],128,none,none⟩,
  ⟨"lm_head","",[],.f32,[4,8],0,none,some "embed"⟩]⟩

theorem tied_head_sound_iff : tiedHead.validateIntegrity id false = [] ∧
    (Sound tiedHead ↔ WellPosed tiedHead) :=
  have h : tiedHead.validateIntegrity id false = [] := by decide +kernel
  ⟨h,validateIntegrity_sound_iff id tiedHead false h⟩

/-- A file with a separator at its end, beside the file without it. -/
def trailingSeparator : DenseTensorManifest := ⟨1,[⟨"a","w.bin",[],.f32,[1],4,none,none⟩,
  ⟨"b","w.bin/",[],.f32,[1],4,none,none⟩]⟩

/-- No bytes for `2^64` elements. -/
def wrappingDims : DenseTensorManifest :=
  ⟨1,[⟨"a","w.bin",[],.f32,[4294967296,4294967296],0,none,none⟩]⟩

/-- Two entries that are tied to each other. -/
def tiedLoop : DenseTensorManifest := ⟨1,[⟨"a","",[],.f32,[1],0,none,some "b"⟩,
  ⟨"b","",[],.f32,[1],0,none,some "a"⟩]⟩

/-- Each of the three is accepted, and none is sound. -/
theorem unsound_accepted :
    (trailingSeparator.validateIntegrity id false = [] ∧ ¬ Sound trailingSeparator) ∧
    (wrappingDims.validateIntegrity id false = [] ∧ ¬ Sound wrappingDims) ∧
    tiedLoop.validateIntegrity id false = [] ∧ ¬ Sound tiedLoop := by
  refine ⟨⟨by decide +kernel,fun h => ?_⟩,⟨by decide +kernel,fun h => ?_⟩,by decide +kernel,
    fun h => ?_⟩
  · have hplain := h.plain ⟨"b","w.bin/",[],.f32,[1],4,none,none⟩ ⟨by decide,rfl⟩
    exact hplain.1 (by decide +kernel)
  · have hsized := h.sizes ⟨"a","w.bin",[],.f32,[4294967296,4294967296],0,none,none⟩
      ⟨List.mem_cons_self,rfl⟩
    have hne : ¬ (0 : ℕ) = 4*(4294967296*(4294967296*1)) := by decide
    exact hne hsized
  · obtain ⟨last,⟨hmem,hstored⟩,-⟩ := h.tied _ List.mem_cons_self (by simp)
    revert hstored
    have hall : ∀ entry ∈ tiedLoop.tensors, entry.tiedTo ≠ none := by decide
    exact hall last hmem

end MicroExpertRouter.Dense
