import MicroExpertRouter.Converter.Readers
import MicroExpertRouter.Lib.KeyMap

/-! The cold-start manifest of `io_provider.rs`: an index of the expert files of some directories with
the place of the weights in each, from one probe of its first block. -/
namespace MicroExpertRouter.ColdStart
open Converter (expertName)
open Quant (WeightDtype)
open Storage (TensorHeader UthDtypeId uthBytes)

/-- `UthDtypeId::to_weight`. -/
def toWeight : UthDtypeId → WeightDtype
  | .f32 => .f32
  | .f16 => .f16
  | .int8 => .int8
  | .q4K => .q4k
  | .q4_0 => .q4_0
  | .q8_0 => .q8_0
  | .bf16 => .bf16
  | .mxfp4 => .mxfp4
  | .q5K => .q5k
  | .q6K => .q6k
  | .mixed => .mixed

/-- The files at paths; some exist and cannot be opened or read. -/
structure Disk where
  content : String → Option (List UInt8)
  readable : String → Bool

structure ManifestEntry where
  path : String
  fileSize : ℕ
  payloadOffset : ℕ
  payloadSize : ℕ
  dtype : Option WeightDtype
  header : Option TensorHeader

structure Manifest where
  entries : KeyMap ManifestEntry
  blockAlign : ℕ

/-- The assertion of `scan` panics; what it returns is an invalid input. -/
inductive ScanError
  | panic (message : String)
  | invalidInput (message : String)
  deriving DecidableEq, Repr

/-- The file of an expert, also where its layers have names of their own. -/
def expertPath (disk : Disk) (dirs : List String) (numExpertsPerLayer : Option ℕ) (id : ℕ) : String :=
  let dir := dirs.getD (id % dirs.length) ""
  let name := expertName id
  let primary := s!"{dir}/{name}"
  if (disk.content primary).isSome then primary
  else
    match numExpertsPerLayer with
    | some n =>
      if 0<n then
        let layer := id/n
        let expert := id % n
        s!"{dir}/expert_{layer}_{expert}.bin"
      else primary
    | none => primary

/-- The header in the first block. -/
def probeHead (readable : Bool) (content : List UInt8) (blockAlign : ℕ) : Option TensorHeader :=
  if readable then
    let head := content.take blockAlign
    if uthBytes ≤ head.length then TensorHeader.probe head else none
  else none

def scanFile (readable : Bool) (path : String) (content : List UInt8) (blockAlign : ℕ) :
    ManifestEntry :=
  let probed := probeHead readable content blockAlign
  let payloadOffset := if probed.isSome then blockAlign else 0
  { path := path
    fileSize := content.length
    payloadOffset := payloadOffset
    payloadSize := (content.length-payloadOffset)/blockAlign*blockAlign
    dtype := probed.map fun header => toWeight header.dtype
    header := probed }

/-- What `scan` records of an expert whose file exists. -/
def scanExpert (disk : Disk) (dirs : List String) (blockAlign : ℕ) (numExpertsPerLayer : Option ℕ)
    (id : ℕ) : Option ManifestEntry :=
  let path := expertPath disk dirs numExpertsPerLayer id
  (disk.content path).map fun content => scanFile (disk.readable path) path content blockAlign

/-- An expert whose file is missing is left out. -/
def insertScanned (entries : KeyMap ManifestEntry) (id : ℕ) (scanned : Option ManifestEntry) :
    KeyMap ManifestEntry :=
  scanned.elim entries fun entry => entries.upsert id entry fun _ => entry

lemma get_insertScanned (entries : KeyMap ManifestEntry) (id : ℕ) (scanned : Option ManifestEntry)
    (key : ℕ) : (insertScanned entries id scanned).get key
      = if key = id then scanned.or (entries.get key) else entries.get key := by
  cases scanned with
  | none => exact (ite_self _).symm
  | some entry => exact KeyMap.get_upsert ..

lemma get_foldl_insertScanned (scanned : ℕ → Option ManifestEntry) (ids : List ℕ)
    (entries : KeyMap ManifestEntry) (key : ℕ) :
    (ids.foldl (fun entries id => insertScanned entries id (scanned id)) entries).get key
      = if key ∈ ids then (scanned key).or (entries.get key) else entries.get key := by
  induction ids generalizing entries with
  | nil => rfl
  | cons id ids ih =>
    rw [List.foldl_cons, ih, get_insertScanned]
    by_cases hid : key = id
    · subst hid
      cases scanned key <;> simp
    · simp [hid]

namespace Manifest

def scan (disk : Disk) (dirs : List String) (ids : List ℕ) (blockAlign : ℕ)
    (numExpertsPerLayer : Option ℕ) : Except ScanError Manifest :=
  if ¬blockAlign.isPowerOfTwo then
    .error (.panic "Manifest::scan: block_align must be a power of two")
  else if dirs.isEmpty then
    .error (.invalidInput "Manifest::scan requires at least one directory")
  else
    let entries := ids.foldl (fun entries id =>
      insertScanned entries id (scanExpert disk dirs blockAlign numExpertsPerLayer id)) KeyMap.empty
    .ok ⟨entries,blockAlign⟩

def get (self : Manifest) (id : ℕ) : Option ManifestEntry := self.entries.get id

/-- The manifest holds what was scanned of each expert asked for. -/
theorem get_scan {disk : Disk} {dirs : List String} {ids : List ℕ} {blockAlign : ℕ}
    {numExpertsPerLayer : Option ℕ} {manifest : Manifest}
    (h : scan disk dirs ids blockAlign numExpertsPerLayer = .ok manifest) (id : ℕ) :
    manifest.get id = if id ∈ ids then scanExpert disk dirs blockAlign numExpertsPerLayer id
      else none := by
  unfold scan at h
  split_ifs at h
  obtain rfl := Except.ok.inj h
  refine (get_foldl_insertScanned _ ids KeyMap.empty id).trans ?_
  exact if_congr Iff.rfl Option.or_none rfl

end Manifest
end MicroExpertRouter.ColdStart
