import MicroExpertRouter.Lib.Fields
import Mathlib.Data.List.Sort

/-! Experts packed in one file, of `packed_storage.rs`: the manifest that says where each of them
is, and requests grouped into runs of adjacent slots. -/
namespace MicroExpertRouter.Packed

structure PackedEntry where
  offset : UInt64
  len : UInt64
  deriving DecidableEq, Repr

/-- The entries are those of a map, so that no id has two of them. -/
structure PackedManifest where
  blockAlign : UInt64
  expertSize : UInt64
  entries : List (ℕ × PackedEntry)
  order : List ℕ
  keys : (entries.map (·.1)).Nodup

/-- The check of one entry. -/
def validateEntry (expertSize : UInt64) (id : ℕ) (entry : PackedEntry) : Except String Unit :=
  let len := entry.len
  let offset := entry.offset
  if len ≠ expertSize then .error (s!"packed manifest entry for expert {id} has len {len} but "++
    s!"expert_size is {expertSize}")
  else if offset % expertSize ≠ 0 then
    .error (s!"packed manifest entry for expert {id} has offset {offset} which is not a "++
      s!"multiple of expert_size {expertSize}")
  else .ok ()

def PackedManifest.validate (self : PackedManifest) : Except String Unit :=
  if self.entries.isEmpty then .ok ()
  else if self.expertSize = 0 then .error "packed manifest expert_size must be non-zero"
  else self.entries.forM fun entry => validateEntry self.expertSize entry.1 entry.2

/-- The file and its manifest. -/
structure PackedBlob where
  file : List UInt8
  manifest : PackedManifest

def PackedBlob.entry (self : PackedBlob) (id : ℕ) : Option PackedEntry :=
  (self.manifest.entries.find? fun entry => entry.1 = id).map (·.2)

variable {ι : Type}

/-- Members are an expert each, with the index of its request. -/
structure ContiguousRun (ι : Type) where
  startOffset : UInt64
  totalLen : UInt64
  members : List (ℕ × ι)
  deriving DecidableEq, Repr

/-- An expert, the index of its request and its slot. -/
abbrev Request (ι : Type) := ℕ × ι × PackedEntry

/-- A run of one slot. -/
def ContiguousRun.single (request : Request ι) : ContiguousRun ι :=
  ⟨request.2.2.offset,request.2.2.len,[(request.1,request.2.1)]⟩

def PackedEntry.finish (self : PackedEntry) : UInt64 := self.offset+self.len

/-- The closed runs, the current one and its end. -/
structure Coalescing (ι : Type) where
  runs : List (ContiguousRun ι)
  cur : ContiguousRun ι
  curEnd : UInt64

/-- An adjacent slot extends the current run; another one closes it. -/
def Coalescing.add (self : Coalescing ι) (request : Request ι) : Coalescing ι :=
  let entry := request.2.2
  if entry.offset = self.curEnd then
    { self with
      cur := { self.cur with
        totalLen := self.cur.totalLen+entry.len
        members := self.cur.members++[(request.1,request.2.1)] }
      curEnd := entry.finish }
  else ⟨self.runs++[self.cur],.single request,entry.finish⟩

/-- The order of `sort_by_key` by offsets, which is stable. -/
def offsetLe (a b : Request ι) : Prop := a.2.2.offset ≤ b.2.2.offset

instance : DecidableRel (@offsetLe ι) := fun a b =>
  inferInstanceAs (Decidable (a.2.2.offset ≤ b.2.2.offset))

def coalesceRuns (requested : List (Request ι)) : List (ContiguousRun ι) :=
  match requested.insertionSort offsetLe with
  | [] => []
  | first :: rest =>
    let last := rest.foldl Coalescing.add ⟨[],.single first,first.2.2.finish⟩
    last.runs++[last.cur]

end MicroExpertRouter.Packed
