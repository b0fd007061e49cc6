import MicroExpertRouter.ColdStart.Manifest
import MicroExpertRouter.Storage.HeaderRoundTrips

/-! Where the manifest and a resident expert see the start of the weights. The manifest takes the next
block after a header of the first format; a resident strips a header of either format with the padding
its flags declare. -/
namespace MicroExpertRouter.ColdStart
open Converter (ExpertResident)
open Storage (TensorHeader MixedExpertHeader uthBytes uth2Bytes uthMagic uth2Magic
  uthFlagPageAlignedPayload)
open Fields (readLe)

section Probe

lemma read_take {bytes : List UInt8} {n off k : ℕ} (h : off+k ≤ n) :
    Slab.read (bytes.take n) off k = Slab.read bytes off k := by
  rw [Slab.read, Slab.read, List.drop_take, List.take_take, Nat.min_eq_left (by omega)]

lemma readLe_take {bytes : List UInt8} {n off k : ℕ} (h : off+k ≤ n) :
    readLe (bytes.take n) off k = readLe bytes off k := by
  rw [readLe, readLe, read_take h]

/-- A probe reads the header only. -/
lemma probe_take {bytes : List UInt8} {n : ℕ} (hn : uthBytes ≤ n) :
    TensorHeader.probe (bytes.take n) = TensorHeader.probe bytes := by
  have hnumber {off k : ℕ} (h : off+k ≤ uthBytes) : readLe (bytes.take n) off k = readLe bytes off k :=
    readLe_take (h.trans hn)
  have hlength : (bytes.take n).length<uthBytes ↔ bytes.length<uthBytes := by
    rw [List.length_take]
    omega
  have hshape : (Vector.ofFn fun i : Fin 4 => UInt32.ofNat (readLe (bytes.take n) (8+i*4) 4))
      = Vector.ofFn fun i : Fin 4 => UInt32.ofNat (readLe bytes (8+i*4) 4) := by
    refine congrArg Vector.ofFn (funext fun i => ?_)
    rw [hnumber (by have hi := i.isLt; unfold uthBytes; omega)]
  unfold TensorHeader.probe
  simp only [hlength, read_take ((by decide : 0+4 ≤ uthBytes).trans hn), hshape,
    hnumber (by decide : 4+2 ≤ uthBytes), hnumber (by decide : 6+1 ≤ uthBytes),
    hnumber (by decide : 7+1 ≤ uthBytes), hnumber (by decide : 24+4 ≤ uthBytes),
    hnumber (by decide : 28+4 ≤ uthBytes), hnumber (by decide : 32+4 ≤ uthBytes),
    hnumber (by decide : 36+4 ≤ uthBytes), hnumber (by decide : 40+4 ≤ uthBytes),
    hnumber (by decide : 44+4 ≤ uthBytes)]

lemma probe_of_short {bytes : List UInt8} (h : bytes.length<uthBytes) :
    TensorHeader.probe bytes = none := if_pos h

/-- The two formats differ in their magic. -/
lemma probe_of_mixed {bytes : List UInt8} {header : MixedExpertHeader}
    (h : MixedExpertHeader.probe bytes = some header) : TensorHeader.probe bytes = none := by
  have hmagic := (Option.ite_none_left_eq_some.mp h).1
  rw [not_or, not_not] at hmagic
  unfold TensorHeader.probe
  split_ifs with hlength hother
  · rfl
  · rfl
  · rw [not_not, hmagic.2] at hother
    exact absurd hother (by decide)

end Probe

section Blocks

/-- The header and its padding fill a block of at least its size. -/
lemma padded_of_le {blockAlign : ℕ} (hle : uthBytes ≤ blockAlign) :
    uthBytes+(blockAlign-uthBytes % blockAlign) % blockAlign = blockAlign := by
  rcases hle.lt_or_eq with hlt | heq
  · rw [Nat.mod_eq_of_lt hlt, Nat.mod_eq_of_lt (by unfold uthBytes at *; omega)]
    omega
  · rw [← heq]
    decide

lemma padded_of_lt {blockAlign : ℕ} (hpow : blockAlign.isPowerOfTwo) (hlt : blockAlign<uthBytes) :
    uthBytes+(blockAlign-uthBytes % blockAlign) % blockAlign = uthBytes := by
  obtain ⟨k,rfl⟩ := hpow
  have hk : k<6 := (Nat.pow_lt_pow_iff_right (by decide)).mp (hlt : 2^k<2^6)
  have hdvd : 2^k ∣ uthBytes := pow_dvd_pow 2 hk.le
  rw [Nat.mod_eq_zero_of_dvd hdvd, Nat.sub_zero, Nat.mod_self, Nat.add_zero]

/-- The payload offset that a header declares. -/
lemma headerBytes_eq_iff {header : TensorHeader} {blockAlign : ℕ} (hpow : blockAlign.isPowerOfTwo)
    (hle : uthBytes ≤ blockAlign) : header.headerBytes blockAlign = blockAlign
      ↔ header.flags &&& uthFlagPageAlignedPayload ≠ 0 ∨ blockAlign = uthBytes := by
  unfold TensorHeader.headerBytes
  split_ifs with hflag
  · exact iff_of_true (padded_of_le hle) (.inl hflag.1)
  · have hno : ¬header.flags &&& uthFlagPageAlignedPayload ≠ 0 := fun h =>
      hflag ⟨h,Nat.pos_of_isPowerOfTwo hpow⟩
    rw [or_iff_right hno, eq_comm]

lemma headerBytes_of_lt {header : TensorHeader} {blockAlign : ℕ} (hpow : blockAlign.isPowerOfTwo)
    (hlt : blockAlign<uthBytes) : header.headerBytes blockAlign = uthBytes := by
  unfold TensorHeader.headerBytes
  split_ifs
  · exact padded_of_lt hpow hlt
  · rfl

end Blocks

section Resident
variable {content : List UInt8} {blockAlign : ℕ}

/-- Behind a header of the second format nothing of the first is seen. -/
lemma resident_of_mixed {header : MixedExpertHeader} {payload : List UInt8}
    (h : MixedExpertHeader.strip content blockAlign = some (header,payload)) :
    (ExpertResident.newWithBlockAlign content blockAlign).payloadOffset ≠ 0
      ∧ TensorHeader.probe content = none := by
  have hresident : (ExpertResident.newWithBlockAlign content blockAlign).payloadOffset
      = content.length-payload.length := by
    unfold ExpertResident.newWithBlockAlign
    rw [h]
  obtain ⟨header',hprobe,hstrip⟩ := Option.bind_eq_some_iff.mp h
  obtain ⟨hroom,hstrip⟩ := Option.ite_none_left_eq_some.mp hstrip
  have hpayload : payload.length = content.length-header'.headerBytes blockAlign := by
    dsimp only at hstrip
    split at hstrip
    · cases hstrip
    · cases hstrip
      exact List.length_drop
  have hheader : uth2Bytes ≤ header'.headerBytes blockAlign := by
    unfold MixedExpertHeader.headerBytes
    split_ifs
    · exact Nat.le_add_right _ _
    · exact le_rfl
  refine ⟨?_,probe_of_mixed hprobe⟩
  rw [hresident, hpayload]
  unfold uth2Bytes at hheader
  omega

lemma resident_of_uniform (h : MixedExpertHeader.strip content blockAlign = none) :
    (ExpertResident.newWithBlockAlign content blockAlign).payloadOffset
      = (TensorHeader.probe content).elim 0 fun header =>
        if content.length<header.headerBytes blockAlign then 0 else header.headerBytes blockAlign := by
  unfold ExpertResident.newWithBlockAlign TensorHeader.strip
  rw [h]
  cases TensorHeader.probe content with
  | none => exact Nat.sub_self _
  | some header =>
    dsimp only [Option.elim_some]
    split_ifs with hshort
    · exact Nat.sub_self _
    · rw [List.length_drop]
      omega

end Resident

section Agreement

/-- No header of the second format, and one of the first fills a whole block of the file. -/
def HeaderFillsBlock (content : List UInt8) (blockAlign : ℕ) : Prop :=
  MixedExpertHeader.strip content blockAlign = none
    ∧ ∀ header, TensorHeader.probe content = some header →
      uthBytes ≤ blockAlign ∧ blockAlign ≤ content.length
        ∧ (header.flags &&& uthFlagPageAlignedPayload ≠ 0 ∨ blockAlign = uthBytes)

/-- The first block shows the header unless it is smaller than one. -/
lemma probeHead_eq (content : List UInt8) (blockAlign : ℕ) : probeHead true content blockAlign
    = if uthBytes ≤ blockAlign then TensorHeader.probe content else none := by
  unfold probeHead
  rw [if_pos rfl]
  dsimp only
  rw [List.length_take]
  by_cases hle : uthBytes ≤ blockAlign
  · rw [if_pos hle, probe_take hle]
    by_cases hlength : uthBytes ≤ content.length
    · rw [if_pos (le_min hle hlength)]
    · rw [probe_of_short (not_le.mp hlength)]
      exact ite_self _
  · rw [if_neg hle, if_neg fun h => hle (h.trans (Nat.min_le_left _ _))]

lemma payloadOffset_scanFile (path : String) (content : List UInt8) (blockAlign : ℕ) :
    (scanFile true path content blockAlign).payloadOffset
      = if uthBytes ≤ blockAlign ∧ (TensorHeader.probe content).isSome then blockAlign else 0 := by
  unfold scanFile
  dsimp only
  rw [probeHead_eq]
  by_cases hle : uthBytes ≤ blockAlign
  · rw [if_pos hle]
    exact if_congr (and_iff_right hle).symm rfl rfl
  · rw [if_neg hle, if_neg (by simp), if_neg fun h => hle h.1]

/-- A payload that starts inside of the file ends in it. -/
lemma offset_add_size_le_iff {readable : Bool} {path : String} {content : List UInt8}
    {blockAlign : ℕ} : (scanFile readable path content blockAlign).payloadOffset
        +(scanFile readable path content blockAlign).payloadSize ≤ content.length
      ↔ (scanFile readable path content blockAlign).payloadOffset ≤ content.length := by
  refine ⟨(Nat.le_add_right _ _).trans,fun h => ?_⟩
  have hsize : (scanFile readable path content blockAlign).payloadSize
      ≤ content.length-(scanFile readable path content blockAlign).payloadOffset :=
    Nat.div_mul_le_self _ _
  omega

/-- One file: the two offsets agree, and the payload stays inside, exactly when a header fills a
block. -/
lemma scanFile_agrees_iff {path : String} {content : List UInt8} {blockAlign : ℕ}
    (hpow : blockAlign.isPowerOfTwo) :
    ((scanFile true path content blockAlign).payloadOffset
        = (ExpertResident.newWithBlockAlign content blockAlign).payloadOffset
      ∧ (scanFile true path content blockAlign).payloadOffset
        +(scanFile true path content blockAlign).payloadSize ≤ content.length)
      ↔ HeaderFillsBlock content blockAlign := by
  have hpos : 0<blockAlign := Nat.pos_of_isPowerOfTwo hpow
  rw [offset_add_size_le_iff, payloadOffset_scanFile]
  unfold HeaderFillsBlock
  cases hmixed : MixedExpertHeader.strip content blockAlign with
  | some stripped =>
    obtain ⟨hoffset,hprobe⟩ := resident_of_mixed hmixed
    rw [hprobe, if_neg (by simp)]
    exact iff_of_false (fun h => hoffset h.1.symm) (by simp)
  | none =>
    rw [resident_of_uniform hmixed]
    cases hprobe : TensorHeader.probe content with
    | none => simp
    | some header =>
      simp only [Option.isSome_some, and_true, Option.elim_some, true_and, Option.some.injEq,
        forall_eq']
      by_cases hle : uthBytes ≤ blockAlign
      · rw [if_pos hle, and_iff_right hle, ← headerBytes_eq_iff hpow hle]
        split_ifs with hshort <;> omega
      · have hlength : uthBytes ≤ content.length := by
          by_contra hshort
          rw [probe_of_short (not_le.mp hshort)] at hprobe
          cases hprobe
        rw [if_neg hle, headerBytes_of_lt hpow (not_le.mp hle), if_neg (not_lt.mpr hlength)]
        exact iff_of_false (fun h => absurd h.1 (by decide)) (fun h => hle h.1)

/-- The manifest and the resident agree where the weights of a scanned expert start, and its payload
ends inside of the file, exactly when its header fills a block. -/
theorem payload_offset_agrees_iff (disk : Disk) (dirs : List String) (ids : List ℕ) (blockAlign : ℕ)
    (numExpertsPerLayer : Option ℕ) (manifest : Manifest)
    (hscan : Manifest.scan disk dirs ids blockAlign numExpertsPerLayer = .ok manifest) (id : ℕ)
    (entry : ManifestEntry) (hentry : manifest.get id = some entry) (content : List UInt8)
    (hcontent : disk.content entry.path = some content) (hreadable : disk.readable entry.path = true) :
    (entry.payloadOffset = (ExpertResident.newWithBlockAlign content blockAlign).payloadOffset
      ∧ entry.payloadOffset+entry.payloadSize ≤ entry.fileSize)
      ↔ HeaderFillsBlock content blockAlign := by
  have hpow : blockAlign.isPowerOfTwo := by
    unfold Manifest.scan at hscan
    split_ifs at hscan with hpow
    exact hpow
  rw [Manifest.get_scan hscan] at hentry
  obtain ⟨-,hentry⟩ := Option.ite_none_right_eq_some.mp hentry
  obtain ⟨content',hfile,rfl⟩ := Option.map_eq_some_iff.mp hentry
  have hsame : content' = content := Option.some.inj (hfile.symm.trans hcontent)
  have hread : disk.readable (expertPath disk dirs numExpertsPerLayer id) = true := hreadable
  rw [hsame, hread]
  exact scanFile_agrees_iff hpow

end Agreement

section Files

/-- An expert of the first format, in one block of 64 bytes. -/
def uniformExpert : List UInt8 := Storage.int8Header.writePadded 64 []++List.replicate 64 7

/-- An expert of the second format. -/
def mixedExpert : List UInt8 := Storage.mixedHeader.writePadded 4096 []++[1,2,3,4,5,6,7,8,9,10]

def smallDisk : Disk where
  content path :=
    if path = "data/expert_0.bin" then some mixedExpert
    else if path = "data/expert_1.bin" then some uniformExpert
    else none
  readable _ := true

lemma scanExpert_of_path {disk : Disk} {dirs : List String} {blockAlign id : ℕ} {path : String}
    {content : List UInt8} (hpath : expertPath disk dirs none id = path)
    (hcontent : disk.content path = some content) : scanExpert disk dirs blockAlign none id
      = some (scanFile (disk.readable path) path content blockAlign) := by
  unfold scanExpert
  rw [hpath]
  dsimp only
  rw [hcontent]
  rfl

lemma content_uniform : smallDisk.content "data/expert_1.bin" = some uniformExpert := by
  simp [smallDisk]

lemma content_mixed : smallDisk.content "data/expert_0.bin" = some mixedExpert := by
  simp [smallDisk]

lemma uniformExpert_fillsBlock : HeaderFillsBlock uniformExpert 64 := by
  refine ⟨by decide +kernel,fun header hprobe => ?_⟩
  have hheader : TensorHeader.probe uniformExpert = some Storage.int8Header := by decide +kernel
  obtain rfl := Option.some.inj (hheader.symm.trans hprobe)
  exact ⟨le_rfl,by decide +kernel,.inr rfl⟩

theorem payload_offset_agrees_iff_uniform : ∃ manifest entry,
    Manifest.scan smallDisk ["data"] [1] 64 none = .ok manifest ∧ manifest.get 1 = some entry
      ∧ entry.payloadOffset = (ExpertResident.newWithBlockAlign uniformExpert 64).payloadOffset
      ∧ entry.payloadOffset+entry.payloadSize ≤ entry.fileSize := by
  obtain ⟨manifest,hscan⟩ : ∃ manifest, Manifest.scan smallDisk ["data"] [1] 64 none = .ok manifest :=
    ⟨_,by unfold Manifest.scan; rw [if_neg (by decide), if_neg (by decide)]⟩
  have hentry : manifest.get 1 = some (scanFile true "data/expert_1.bin" uniformExpert 64) :=
    (Manifest.get_scan hscan 1).trans ((if_pos (by decide)).trans
      (scanExpert_of_path (by decide +kernel) content_uniform))
  exact ⟨manifest,_,hscan,hentry,(payload_offset_agrees_iff smallDisk ["data"] [1] 64 none manifest
    hscan 1 _ hentry uniformExpert content_uniform rfl).mpr uniformExpert_fillsBlock⟩

/-- The manifest does not see a header of the second format. -/
theorem scan_misses_mixed_header : ∃ manifest entry,
    Manifest.scan smallDisk ["data"] [0] 4096 none = .ok manifest ∧ manifest.get 0 = some entry
      ∧ smallDisk.content entry.path = some mixedExpert ∧ entry.payloadOffset = 0
      ∧ (ExpertResident.newWithBlockAlign mixedExpert 4096).payloadOffset = 4096 := by
  obtain ⟨manifest,hscan⟩ : ∃ manifest,
      Manifest.scan smallDisk ["data"] [0] 4096 none = .ok manifest :=
    ⟨_,by unfold Manifest.scan; rw [if_neg (by decide), if_neg (by decide)]⟩
  have hstrip : MixedExpertHeader.strip mixedExpert 4096
      = some (Storage.mixedHeader,[1,2,3,4,5,6,7,8,9,10]) :=
    (MixedExpertHeader.strip_writePadded rfl rfl 4096 _).1 (by decide +kernel)
  have hprobe := (resident_of_mixed hstrip).2
  have hentry : manifest.get 0 = some (scanFile true "data/expert_0.bin" mixedExpert 4096) :=
    (Manifest.get_scan hscan 0).trans ((if_pos (by decide)).trans
      (scanExpert_of_path (by decide +kernel) content_mixed))
  refine ⟨manifest,_,hscan,hentry,content_mixed,?_,?_⟩
  · rw [payloadOffset_scanFile, hprobe]
    rfl
  · unfold ExpertResident.newWithBlockAlign
    rw [hstrip]
    have hlength : mixedExpert.length = 4096+10 := by
      rw [mixedExpert, List.length_append, MixedExpertHeader.length_writePadded rfl]
      rfl
    exact Nat.sub_eq_of_eq_add hlength

end Files
end MicroExpertRouter.ColdStart
