import MicroExpertRouter.Lib.Machine
import MicroExpertRouter.Lib.UnixPath

/-! The manifest of dense tensors, of `dense_tensor.rs`, and its integrity check: one walk over the
entries collects problems, names, files and the targets of tied entries. -/
namespace MicroExpertRouter.Dense

inductive DenseDType
  | f32
  | q8_0
  deriving DecidableEq, Repr

structure DenseTensorManifestEntry where
  canonicalName : String
  file : String
  aliases : List String
  dtype : DenseDType
  dims : List UInt64
  byteLen : UInt64
  checksum : Option String
  tiedTo : Option String
  deriving DecidableEq, Repr

structure DenseTensorManifest where
  formatVersion : UInt32
  tensors : List DenseTensorManifestEntry

def q8_0BlockElems : UInt64 := 32

def q8_0BlockBytes : UInt64 := 34

def supportedDenseManifestVersions : List UInt32 := [1]

/-- `{:?}` of a list of numbers. -/
def debugList {α : Type} [ToString α] (ns : List α) : String :=
  "["++", ".intercalate (ns.map toString)++"]"

namespace DenseTensorManifestEntry

/-- The names an entry can be looked up by. -/
def names (self : DenseTensorManifestEntry) : List String := self.canonicalName::self.aliases

def who (self : DenseTensorManifestEntry) : String :=
  if self.canonicalName = "" then "<empty canonical_name>" else self.canonicalName

/-- `dims.iter().product()`, which wraps. -/
def elems (self : DenseTensorManifestEntry) : UInt64 := self.dims.foldl (·*·) 1

def degenerate (self : DenseTensorManifestEntry) : Bool := self.dims.isEmpty || self.dims.contains 0

end DenseTensorManifestEntry

namespace DenseTensorManifest

def findAlias (self : DenseTensorManifest) (name : String) : Option DenseTensorManifestEntry :=
  self.tensors.find? fun entry => decide (name ∈ entry.names)

end DenseTensorManifest

def unsafeManifestFileName (file : String) : Option String :=
  if file = "" then some "empty file name"
  else if UnixPath.IsAbsolute file.toList then some "absolute path"
  else if '\\' ∈ file.toList then some "contains backslash separator"
  else match UnixPath.components file.toList with
    | [.normal _] => none
    | _ => some "not a plain relative filename"

/-- What the walk has collected. -/
structure Walk where
  problems : List String
  seenNames : List String
  seenFiles : List String
  tiedTargets : List (String × String)

namespace Walk

def report (self : Walk) (problem : String) : Walk :=
  { self with problems := self.problems++[problem] }

def reportIf (self : Walk) (bad : Bool) (problem : String) : Walk :=
  if bad then self.report problem else self

/-- A name, with the problems of an empty one and of one that was seen. -/
def insertName (self : Walk) (name whenEmpty whenSeen : String) : Walk :=
  if name = "" then self.report whenEmpty
  else if name ∈ self.seenNames then self.report whenSeen
  else { self with seenNames := name::self.seenNames }

def canonical (self : Walk) (entry : DenseTensorManifestEntry) : Walk :=
  let who := entry.who
  self.insertName entry.canonicalName "dense manifest entry has empty canonical_name"
    s!"duplicate dense manifest name {who}"

def anAlias (entry : DenseTensorManifestEntry) (self : Walk) (name : String) : Walk :=
  let who := entry.who
  self.insertName name s!"dense manifest entry {who} has an empty alias"
    s!"duplicate dense manifest alias {name} (entry {who})"

def target (self : Walk) (entry : DenseTensorManifestEntry) (target : String) : Walk :=
  let who := entry.who
  if target = "" then self.report s!"dense manifest entry {who} has an empty tied_to target"
  else { self with tiedTargets := self.tiedTargets++[(who,target)] }

/-- The checks of a tied entry; `debug` is `{:?}` of a text. -/
def tied (debug : String → String) (self : Walk) (entry : DenseTensorManifestEntry)
    (target : String) : Walk :=
  let who := entry.who
  let file := debug entry.file
  let byteLen := entry.byteLen
  let dims := debugList entry.dims
  (((self.target entry target).reportIf (entry.file ≠ "")
    s!"dense manifest entry {who} is tied to {target} but also declares file {file}").reportIf
    (entry.byteLen ≠ 0)
    s!"dense manifest tied entry {who} must have byte_len 0, got {byteLen}").reportIf
    entry.degenerate s!"dense manifest tied entry {who} has degenerate dims {dims}"

def file (debug : String → String) (self : Walk) (entry : DenseTensorManifestEntry) : Walk :=
  let who := entry.who
  let file := entry.file
  match unsafeManifestFileName entry.file with
  | some reason =>
    let file := debug entry.file
    self.report s!"dense manifest entry {who} has unsafe file {file}: {reason}"
  | none =>
    if entry.file ∈ self.seenFiles then
      self.report s!"duplicate dense manifest file {file} (entry {who})"
    else { self with seenFiles := entry.file::self.seenFiles }

/-- `saturating_mul(4)`. -/
def saturatingMul4 (elems : UInt64) : UInt64 :=
  if elems.toNat*4 ≤ usizeMax then elems*4 else UInt64.ofNat usizeMax

def size (self : Walk) (entry : DenseTensorManifestEntry) : Walk :=
  let who := entry.who
  let byteLen := entry.byteLen
  let elems := entry.elems
  if entry.degenerate then
    let dims := debugList entry.dims
    self.report s!"dense manifest entry {who} has degenerate dims {dims}"
  else match entry.dtype with
    | .f32 =>
      let expect := saturatingMul4 elems
      self.reportIf (entry.byteLen ≠ expect)
        s!"dense manifest entry {who} byte_len {byteLen} != {expect} for {elems} f32 elements"
    | .q8_0 =>
      if elems%q8_0BlockElems ≠ 0 then
        self.report (s!"dense manifest entry {who} q8_0 element count {elems} is not a "++
          s!"multiple of the {q8_0BlockElems}-element block size")
      else
        let expect := elems/q8_0BlockElems*q8_0BlockBytes
        self.reportIf (entry.byteLen ≠ expect)
          (s!"dense manifest entry {who} byte_len {byteLen} != {expect} for {elems} "++
            "q8_0 elements")

/-- One turn of the loop of `validate_integrity`. -/
def entry (debug : String → String) (requireChecksums : Bool) (self : Walk)
    (entry : DenseTensorManifestEntry) : Walk :=
  let who := entry.who
  let named := entry.aliases.foldl (anAlias entry) (self.canonical entry)
  match entry.tiedTo with
  | some target => named.tied debug entry target
  | none => ((named.file debug entry).size entry).reportIf
      (requireChecksums && entry.checksum.isNone)
      s!"dense manifest entry {who} is missing a checksum (required under strict load)"

/-- One turn of the loop over the targets of tied entries. -/
def resolve (self : Walk) (tie : String × String) : Walk :=
  let (who,target) := tie
  self.reportIf (target ∉ self.seenNames)
    s!"dense manifest tied entry {who} references unknown target {target}"

end Walk

namespace DenseTensorManifest

/-- The walk before the first entry. -/
def start (self : DenseTensorManifest) : Walk :=
  let version := self.formatVersion
  let supported := debugList supportedDenseManifestVersions
  Walk.reportIf ⟨[],[],[],[]⟩ (self.formatVersion ∉ supportedDenseManifestVersions)
    s!"unsupported dense manifest format_version {version} (supported: {supported})"

def validateIntegrity (debug : String → String) (self : DenseTensorManifest)
    (requireChecksums : Bool) : List String :=
  let walked := self.tensors.foldl (Walk.entry debug requireChecksums) self.start
  (walked.tiedTargets.foldl Walk.resolve walked).problems

end DenseTensorManifest

end MicroExpertRouter.Dense
