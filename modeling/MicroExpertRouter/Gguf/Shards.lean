import MicroExpertRouter.Gguf.Stream

/-! Shard sets of `gguf.rs`: the shards of one file name are opened one after the other and
checked against each other, and one table says which of them owns each tensor. -/
namespace MicroExpertRouter.Gguf

/-- The name of the shards of a set. -/
structure GgufShardSpec where
  parent : String
  namePrefix : String
  count : ℕ
  indexWidth : ℕ
  countWidth : ℕ
  deriving DecidableEq, Repr

/-- A number with zeros in front. -/
def zeroPadded (width n : ℕ) : String :=
  String.ofList (List.replicate (width-(toString n).length) '0')++toString n

/-- `Path::join` with a file name. -/
def joinPath (parent fileName : String) : String :=
  if parent = "" then fileName
  else if parent.endsWith "/" then parent++fileName
  else parent++"/"++fileName

def GgufShardSpec.pathFor (self : GgufShardSpec) (shardNumber : ℕ) : String :=
  joinPath self.parent (self.namePrefix++"-"++zeroPadded self.indexWidth shardNumber++"-of-"++
    zeroPadded self.countWidth self.count++".gguf")

/-- The files that exist. -/
abbrev Disk := String → Option File

structure GgufShardSet where
  readers : List GgufStreamReader
  metadata : Table GgufValue
  tensors : Table GgufTensorInfo
  owners : Table ℕ

def metadataU64 (metadata : Table GgufValue) (key : String) (shardNumber : ℕ) :
    Except Failure (Option ℕ) :=
  match Lru.peek metadata key with
  | none => .ok none
  | some v => match v.asU64 with
    | some n => .ok (some n)
    | none => .error (.invalid s!"GGUF shard {shardNumber} metadata `{key}` is not an integer")

def metadataStr (metadata : Table GgufValue) (key : String) (shardNumber : ℕ) :
    Except Failure (Option String) :=
  match Lru.peek metadata key with
  | none => .ok none
  | some v => match v.asStr with
    | some s => .ok (some s)
    | none => .error (.invalid s!"GGUF shard {shardNumber} metadata `{key}` is not a string")

/-- The check of the architecture of a shard. -/
def validateArch (expectedArch : String) (shardNumber : ℕ) : Option String → Except Failure Unit
  | some arch =>
    if arch ≠ expectedArch then
      .error (.invalid (s!"GGUF shard {shardNumber} metadata `general.architecture` mismatch: "++
        s!"expected `{expectedArch}`, actual `{arch}`"))
    else .ok ()
  | none =>
    if shardNumber = 1 then
      .error (.invalid "GGUF shard 1 missing required metadata `general.architecture`")
    else .ok ()

def validateSplitNo (idx shardNumber : ℕ) : Option ℕ → Except Failure Unit
  | some splitNo =>
    if splitNo ≠ idx then
      .error (.invalid (s!"GGUF shard {shardNumber} split.no={splitNo} disagrees with filename "++
        s!"order; expected {idx}"))
    else .ok ()
  | none => .ok ()

def validateSplitCount (expectedCount shardNumber : ℕ) : Option ℕ → Except Failure Unit
  | some splitCount =>
    if splitCount ≠ expectedCount then
      .error (.invalid (s!"GGUF shard {shardNumber} split.count={splitCount} disagrees with "++
        s!"filename count {expectedCount}"))
    else .ok ()
  | none => .ok ()

/-- One turn of the loop of `validate_shards`. -/
def validateShard (expectedVersion : ℕ) (expectedArch : String) (expectedCount : ℕ)
    (shard : GgufStreamReader × ℕ) : Except Failure Unit := do
  let (reader,idx) := shard
  let shardNumber := idx+1
  let version := reader.version
  if version ≠ expectedVersion then
    .error (.invalid (s!"GGUF shard {shardNumber} version {version} disagrees with shard 1 "++
      s!"version {expectedVersion}"))
  else do
    validateArch expectedArch shardNumber
      (← metadataStr reader.metadata "general.architecture" shardNumber)
    validateSplitNo idx shardNumber (← metadataU64 reader.metadata "split.no" shardNumber)
    validateSplitCount expectedCount shardNumber
      (← metadataU64 reader.metadata "split.count" shardNumber)

def validateShards (readers : List GgufStreamReader) (expectedCount : ℕ) : Except Failure Unit :=
  match readers with
  | [] => .error (.invalid "GGUF shard set is empty")
  | first::_ => do
    match ← metadataStr first.metadata "general.architecture" 1 with
    | none => .error (.invalid "GGUF shard 1 missing required metadata `general.architecture`")
    | some expectedArch =>
      readers.zipIdx.forM (validateShard first.version expectedArch expectedCount)

/-- One turn of the loop of `declared_split_tensor_count`. -/
def declareCount (declared : Option ℕ) (shard : GgufStreamReader × ℕ) :
    Except Failure (Option ℕ) := do
  let shardNumber := shard.2+1
  match ← metadataU64 shard.1.metadata "split.tensors.count" shardNumber,declared with
  | none, _ => return declared
  | some count, none => return some count
  | some count, some previous =>
    if previous ≠ count then
      .error (.invalid (s!"GGUF shard {shardNumber} split.tensors.count={count} disagrees with "++
        s!"earlier declaration {previous}"))
    else return declared

def declaredSplitTensorCount (readers : List GgufStreamReader) : Except Failure (Option ℕ) :=
  readers.zipIdx.foldlM declareCount none

/-- The two tables that the shards are unified into. -/
structure Unified where
  tensors : Table GgufTensorInfo
  owners : Table ℕ

def Unified.insert (self : Unified) (entry : ℕ × String × GgufTensorInfo) : Except Failure Unified :=
  let (owner,name,info) := entry
  match Lru.peek self.owners name with
  | some previousOwner =>
    let previous := previousOwner+1
    let current := owner+1
    .error (.invalid s!"duplicate tensor name `{name}` in GGUF shard {previous} and shard {current}")
  | none => .ok ⟨Lru.put self.tensors name info,Lru.put self.owners name owner⟩

/-- The tensors of all shards, each with the shard it is in. -/
def shardTensors (readers : List GgufStreamReader) : List (ℕ × String × GgufTensorInfo) :=
  readers.zipIdx.flatMap fun shard => shard.1.tensors.map fun entry => (shard.2,entry.1,entry.2)

namespace GgufShardSet

def openShard (runtime : Runtime) (splitting : Splitting) (disk : Disk) (spec : GgufShardSpec)
    (shardNumber : ℕ) : Except Failure GgufStreamReader :=
  let shardPath := spec.pathFor shardNumber
  let count := spec.count
  match disk shardPath with
  | none => .error (.error ⟨.notFound,s!"missing GGUF shard {shardNumber} of {count}: {shardPath}"⟩)
  | some file => match GgufStreamReader.openFile runtime splitting file with
    | .ok reader => .ok reader
    | .error .panic => .error .panic
    | .error (.error e) =>
      let message := e.message
      .error (.error ⟨e.kind,
        s!"failed to open GGUF shard {shardNumber} of {count} ({shardPath}): {message}"⟩)

def checkDeclared (actual : ℕ) : Option ℕ → Except Failure Unit
  | some declared =>
    if declared ≠ actual then
      .error (.invalid (s!"GGUF split.tensors.count={declared} disagrees with unified tensor "++
        s!"count {actual}"))
    else .ok ()
  | none => .ok ()

def openFromSpec (runtime : Runtime) (splitting : Splitting) (disk : Disk) (spec : GgufShardSpec) :
    Except Failure GgufShardSet := do
  let readers ← (List.range' 1 spec.count).mapM (openShard runtime splitting disk spec)
  validateShards readers spec.count
  match readers with
  | [] => .error .panic
  | first::_ => do
    let unified ← (shardTensors readers).foldlM Unified.insert ⟨[],[]⟩
    checkDeclared unified.tensors.length (← declaredSplitTensorCount readers)
    return ⟨readers,first.metadata,unified.tensors,unified.owners⟩

def readTensorOwned (self : GgufShardSet) (name : String) : Except Failure (Option (List UInt8)) :=
  match Lru.peek self.owners name with
  | none => .ok none
  | some owner => match self.readers[owner]? with
    | none => .error .panic
    | some reader => reader.readTensorData name

end GgufShardSet

end MicroExpertRouter.Gguf
