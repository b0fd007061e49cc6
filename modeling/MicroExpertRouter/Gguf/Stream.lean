import MicroExpertRouter.Gguf.Eager

/-! The streaming reader of `gguf.rs`. It pulls the file chunk by chunk, runs the eager parser on
what it has so far, and takes `UnexpectedEof` to mean that it needs more. -/
namespace MicroExpertRouter.Gguf

/-- The content of a file; its length is an `i64`. -/
structure File where
  content : List UInt8
  sized : content.length ≤ isizeMax

/-- How the reads of a file split what is left of it: into chunks that are not empty and fit the
buffer. -/
structure Splitting where
  split : List UInt8 → List (List UInt8)
  flatten : ∀ rest, (split rest).flatten = rest
  nonempty : ∀ rest, [] ∉ split rest
  fits : ∀ rest, ∀ chunk ∈ split rest, chunk.length ≤ 4*1024*1024

def headerLimit : ℕ := 10*1024*1024*1024

/-- `read_exact` on what is left of a file. -/
def readExact (n : ℕ) (rest : List UInt8) : Except Failure (List UInt8 × List UInt8) :=
  if rest.length<n then .error (.eof "failed to fill whole buffer") else .ok (rest.take n,rest.drop n)

structure ParsedGgufHeader extends Header where
  tensorDataStart : ℕ

structure GgufStreamReader extends Header where
  file : File
  tensorDataStart : ℕ
  fileLen : ℕ

namespace GgufStreamReader

def tryParseHeader (runtime : Runtime) (bytes : List UInt8) :
    Except Failure (Option ParsedGgufHeader) :=
  match GgufFile.parse runtime bytes with
  | .ok parsed => .ok (some ⟨parsed.toHeader,parsed.tensorDataStart⟩)
  | .error (.error e) => if e.kind = .unexpectedEof then .ok none else .error (.error e)
  | .error .panic => .error .panic

/-- The loop of `open`; an empty read ends it. -/
def pullHeader (runtime : Runtime) :
    List (List UInt8) → List UInt8 → Except Failure ParsedGgufHeader
  | [], _ => .error (.eof "GGUF file ended before the tensor-data section was reachable")
  | chunk::chunks, headerBytes => do
    let headerBytes := headerBytes++chunk
    match ← tryParseHeader runtime headerBytes with
    | some parsed => return parsed
    | none =>
      if headerLimit<headerBytes.length then
        .error (.invalid "GGUF header exceeds 10 GiB; refusing to grow further")
      else pullHeader runtime chunks headerBytes

/-- The preamble: magic, version and counts, and what is left of the file. -/
def readPreamble (content : List UInt8) : Except Failure (List UInt8 × List UInt8) := do
  let (magic,rest) ← readExact 4 content
  if magic ≠ ggufMagic then
    .error (.invalid s!"not a GGUF file (magic = {magic})")
  else
    let (versionBytes,rest) ← readExact 4 rest
    let version := fromLeBytes versionBytes
    if version = 0 ∨ 3<version then
      .error (.invalid s!"unsupported GGUF version {version}; supported = 1, 2, 3")
    else
      let (counts,rest) ← readExact (if version = 1 then 4+4 else 8+8) rest
      return (magic++versionBytes++counts,rest)

/-- `GgufStreamReader::open`. -/
def openFile (runtime : Runtime) (splitting : Splitting) (file : File) :
    Except Failure GgufStreamReader := do
  let (headerBytes,rest) ← readPreamble file.content
  let parsed ← pullHeader runtime (splitting.split rest) headerBytes
  return ⟨parsed.toHeader,file,parsed.tensorDataStart,file.content.length⟩

/-- Nothing for a name that is not in the table. -/
def readTensorData (self : GgufStreamReader) (name : String) :
    Except Failure (Option (List UInt8)) :=
  match Lru.peek self.tensors name with
  | none => .ok none
  | some info => match checkedAdd u64Max self.tensorDataStart info.offset with
    | none => .error (.invalid "tensor offset overflow")
    | some start => match checkedAdd u64Max start info.byteLen with
      | none => .error (.invalid "tensor end overflow")
      | some past =>
        let fileLen := self.fileLen
        if fileLen<past then .error (.invalid
          s!"tensor {name} declares range {start}..{past} past end of file ({fileLen})")
        else do
          let (out,_) ← readExact info.byteLen (self.file.content.drop start)
          return some out

section Preamble
variable {runtime : Runtime} {buf content headerBytes rest : List UInt8} {pos next : ℕ}

/-- The bytes of a count. -/
def countBytes (version : ℕ) : ℕ := if version = 1 then 4 else 8

lemma readLe_ok {bytes v : ℕ} (h : readLe bytes buf pos = .ok (v,next)) :
    pos+bytes ≤ buf.length ∧ v = fromLeBytes ((buf.drop pos).take bytes) ∧ next = pos+bytes := by
  obtain ⟨items,middle,hread,hpure⟩ := Parser.bind_eq_ok.mp h
  obtain ⟨-,hlength,rfl,rfl⟩ := Parser.read_eq_ok.mp hread
  cases hpure
  exact ⟨hlength,rfl,rfl⟩

lemma readMagic_ok {u : Unit} (h : readMagic buf pos = .ok (u,next)) :
    pos+4 ≤ buf.length ∧ (buf.drop pos).take 4 = ggufMagic ∧ next = pos+4 := by
  obtain ⟨magic,middle,hread,hcheck⟩ := Parser.bind_eq_ok.mp h
  obtain ⟨-,hlength,rfl,rfl⟩ := Parser.read_eq_ok.mp hread
  split_ifs at hcheck with hmagic
  · cases hcheck
  · cases hcheck
    exact ⟨hlength,not_not.mp hmagic,rfl⟩

lemma readVersion_ok {version : ℕ} (h : readVersion buf pos = .ok (version,next)) :
    pos+4 ≤ buf.length ∧ version = fromLeBytes ((buf.drop pos).take 4) ∧
      ¬ (version = 0 ∨ 3<version) ∧ next = pos+4 := by
  obtain ⟨read,middle,hread,hcheck⟩ := Parser.bind_eq_ok.mp h
  obtain ⟨hlength,rfl,rfl⟩ := readLe_ok hread
  split_ifs at hcheck with hversion
  · cases hcheck
  · cases hcheck
    exact ⟨hlength,rfl,hversion,rfl⟩

lemma readCount_ok {version count : ℕ} (h : readCount version buf pos = .ok (count,next)) :
    next ≤ buf.length ∧ next = pos+countBytes version := by
  unfold readCount at h
  unfold countBytes
  split_ifs at h ⊢
  · obtain ⟨hlength,-,rfl⟩ := readLe_ok h
    exact ⟨hlength,rfl⟩
  · obtain ⟨hlength,-,rfl⟩ := readLe_ok h
    exact ⟨hlength,rfl⟩

lemma withCapacity_ok {fits : ℕ → Bool} {n : ℕ} {u : Unit}
    (h : withCapacity fits n buf pos = .ok (u,next)) : next = pos := by
  unfold withCapacity at h
  split_ifs at h
  · cases h
    rfl
  · cases h

/-- A table with an entry takes bytes. -/
lemma loop_ok {σ : Type} {body : σ → Read σ} (hbody : ∀ s, Parser.Stable Failure.Short (body s) ∧
      Parser.Advances (body s)) {n : ℕ} {s last : σ} (hpos : pos ≤ buf.length)
    (h : Parser.loop body n s buf pos = .ok (last,next)) :
    next ≤ buf.length ∧ (n = 0 ∧ last = s ∧ next = pos ∨ pos<next) := by
  cases n with
  | zero =>
    cases h
    exact ⟨hpos,.inl ⟨rfl,rfl,rfl⟩⟩
  | succ n =>
    obtain ⟨hlt,hle⟩ := (Parser.Advances.loop (fun s => (hbody s).2) (fun s => (hbody s).1) n s).lt
      hpos h
    exact ⟨hle,.inr hlt⟩

/-- The tensor data never starts right after the preamble: the default alignment is 32. -/
lemma preamble_of_header {header : Header} {afterHeader : ℕ}
    (h : readHeader runtime content 0 = .ok (header,afterHeader)) :
    content.take 4 = ggufMagic ∧ ∃ version, version = fromLeBytes ((content.drop 4).take 4) ∧
      ¬ (version = 0 ∨ 3<version) ∧ 8+2*countBytes version ≤ content.length ∧
      8+2*countBytes version<padded header.alignment afterHeader := by
  obtain ⟨_,_,hmagic,hafterMagic⟩ := Parser.bind_eq_ok.mp h
  obtain ⟨-,hbytes,rfl⟩ := readMagic_ok hmagic
  obtain ⟨version,_,hversion,hafterVersion⟩ := Parser.bind_eq_ok.mp hafterMagic
  obtain ⟨-,hread,hsupported,rfl⟩ := readVersion_ok hversion
  obtain ⟨tensorCount,_,htensorCount,hafterCount⟩ := Parser.bind_eq_ok.mp hafterVersion
  obtain ⟨-,rfl⟩ := readCount_ok htensorCount
  obtain ⟨kvCount,start,hkvCount,hafterCounts⟩ := Parser.bind_eq_ok.mp hafterCount
  obtain ⟨hlength,hstart⟩ := readCount_ok hkvCount
  obtain ⟨_,middle,hreserve,hafterReserve⟩ := Parser.bind_eq_ok.mp hafterCounts
  have hmiddle := withCapacity_ok hreserve
  obtain ⟨metadata,afterMetadata,hmetadata,htables⟩ := Parser.bind_eq_ok.mp hafterReserve
  obtain ⟨hle,hentries⟩ := loop_ok (readEntry_spec runtime version) (by omega) hmetadata
  obtain ⟨_,infos,hreserve',hafterReserve'⟩ := Parser.bind_eq_ok.mp htables
  have hinfos := withCapacity_ok hreserve'
  obtain ⟨tensors,last,htensors,hlast⟩ := Parser.bind_eq_ok.mp hafterReserve'
  obtain ⟨-,htable⟩ := loop_ok (readTensor_spec runtime version) (by omega) htensors
  cases hlast
  refine ⟨hbytes,version,hread,hsupported,by omega,?_⟩
  have hafter := le_padded (Header.alignment ⟨version,metadata,tensors⟩) afterHeader
  obtain ⟨-,rfl,hnone⟩ | hsome := hentries
  · obtain ⟨-,-,hnone'⟩ | hsome' := htable
    · have hend : afterHeader = 8+2*countBytes version := by omega
      rw [hend]
      change 8+2*countBytes version<padded 32 (8+2*countBytes version)
      unfold countBytes
      split_ifs <;> decide
    · omega
  · omega

lemma readExact_ok {n : ℕ} {out left : List UInt8} (h : readExact n rest = .ok (out,left)) :
    out++left = rest := by
  unfold readExact at h
  split_ifs at h
  cases h
  exact List.take_append_drop n rest

/-- The preamble is the beginning of the file. -/
lemma readPreamble_ok (h : readPreamble content = .ok (headerBytes,rest)) :
    headerBytes++rest = content := by
  obtain ⟨⟨magic,left⟩,hmagic,hversions⟩ := bind_eq_ok.mp h
  dsimp only at hversions
  by_cases hgguf : magic ≠ ggufMagic
  · rw [if_pos hgguf] at hversions
    cases hversions
  rw [if_neg hgguf] at hversions
  obtain ⟨⟨versionBytes,left'⟩,hversion,hcounts⟩ := bind_eq_ok.mp hversions
  dsimp only at hcounts
  by_cases hunsupported : fromLeBytes versionBytes = 0 ∨ 3<fromLeBytes versionBytes
  · rw [if_pos hunsupported] at hcounts
    cases hcounts
  rw [if_neg hunsupported] at hcounts
  obtain ⟨⟨counts,left''⟩,hcount,hlast⟩ := bind_eq_ok.mp hcounts
  cases hlast
  rw [← readExact_ok hmagic, ← readExact_ok hversion, ← readExact_ok hcount, List.append_assoc,
    List.append_assoc]

lemma readExact_of_le {n : ℕ} (h : n ≤ rest.length) :
    readExact n rest = .ok (rest.take n,rest.drop n) :=
  if_neg (Nat.not_lt.mpr h)

lemma readPreamble_of_header {version : ℕ} (hmagic : content.take 4 = ggufMagic)
    (hread : version = fromLeBytes ((content.drop 4).take 4))
    (hsupported : ¬ (version = 0 ∨ 3<version)) (hlength : 8+2*countBytes version ≤ content.length) :
    ∃ headerBytes rest, readPreamble content = .ok (headerBytes,rest) ∧
      headerBytes.length = 8+2*countBytes version := by
  have htwice : (if version = 1 then 4+4 else 8+8) = 2*countBytes version := by
    unfold countBytes
    split_ifs <;> rfl
  have hversion : 4 ≤ (content.drop 4).length := by
    rw [List.length_drop]
    omega
  have hcounts : 2*countBytes version ≤ ((content.drop 4).drop 4).length := by
    rw [List.length_drop, List.length_drop]
    omega
  have hrun : readPreamble content = .ok (content.take 4++(content.drop 4).take 4++
      ((content.drop 4).drop 4).take (2*countBytes version),
      ((content.drop 4).drop 4).drop (2*countBytes version)) := by
    unfold readPreamble
    rw [readExact_of_le (Nat.le_trans (by omega) hlength)]
    change (if content.take 4 ≠ ggufMagic then _ else _) = _
    rw [if_neg (not_not.mpr hmagic), readExact_of_le hversion]
    change (if fromLeBytes ((content.drop 4).take 4) = 0 ∨ _ then _ else _) = _
    rw [← hread, if_neg hsupported, htwice, readExact_of_le hcounts]
    rfl
  refine ⟨_,_,hrun,?_⟩
  rw [List.length_append, List.length_append, List.length_take_of_le hversion,
    List.length_take_of_le hcounts, List.length_take_of_le (by omega)]

end Preamble

section Pulling
variable {runtime : Runtime} {content : List UInt8} {file : GgufFile}

lemma tryParseHeader_ok {bytes : List UInt8} (h : GgufFile.parse runtime bytes = .ok file) :
    tryParseHeader runtime bytes = .ok (some ⟨file.toHeader,file.tensorDataStart⟩) := by
  rw [tryParseHeader, h]

lemma tryParseHeader_short {bytes : List UInt8} {failure : Failure}
    (h : GgufFile.parse runtime bytes = .error failure) (hshort : failure.Short) :
    tryParseHeader runtime bytes = .ok none := by
  obtain ⟨message,rfl⟩ := hshort
  rw [tryParseHeader, h]
  rfl

lemma tryParseHeader_some {bytes : List UInt8} {parsed : ParsedGgufHeader}
    (h : tryParseHeader runtime bytes = .ok (some parsed)) :
    ∃ file, GgufFile.parse runtime bytes = .ok file ∧
      parsed = ⟨file.toHeader,file.tensorDataStart⟩ := by
  unfold tryParseHeader at h
  cases hparse : GgufFile.parse runtime bytes with
  | ok file =>
    rw [hparse] at h
    cases h
    exact ⟨file,rfl,rfl⟩
  | error failure =>
    rw [hparse] at h
    cases failure with
    | panic => cases h
    | error e =>
      dsimp only at h
      split_ifs at h
      cases h

/-- A header pulled from the beginning of a file is the header of the file. -/
lemma pullHeader_sound {parsed : ParsedGgufHeader} (chunks : List (List UInt8)) :
    ∀ {headerBytes : List UInt8}, headerBytes++chunks.flatten = content →
      pullHeader runtime chunks headerBytes = .ok parsed →
      ∃ file, GgufFile.parse runtime content = .ok file ∧
        parsed = ⟨file.toHeader,file.tensorDataStart⟩ := by
  induction chunks with
  | nil =>
    intro headerBytes _ h
    cases h
  | cons chunk chunks ih =>
    intro headerBytes hcontent h
    rw [List.flatten_cons, ← List.append_assoc] at hcontent
    obtain ⟨found,htry,h⟩ := bind_eq_ok.mp h
    cases found with
    | some early =>
      cases h
      obtain ⟨file,hparse,rfl⟩ := tryParseHeader_some htry
      refine ⟨{ file with bytes := content },GgufFile.parse_of_header hparse ?_,rfl⟩
      rw [← hcontent]
      exact (List.take_prefix _ _).trans (List.prefix_append _ _)
    | none =>
      dsimp only at h
      split_ifs at h
      exact ih hcontent h

/-- The header of a file is pulled before its limit is reached. Every chunk that does not bring
the end of the header only makes the reader ask for more. -/
lemma pullHeader_complete (hparse : GgufFile.parse runtime content = .ok file)
    (hlimit : file.tensorDataStart ≤ headerLimit) (chunks : List (List UInt8)) :
    ∀ {headerBytes : List UInt8}, headerBytes++chunks.flatten = content →
      headerBytes.length<file.tensorDataStart →
      pullHeader runtime chunks headerBytes = .ok ⟨file.toHeader,file.tensorDataStart⟩ := by
  induction chunks with
  | nil =>
    intro headerBytes hcontent hlength
    obtain ⟨header,afterHeader,-,hstart,rfl⟩ := GgufFile.parse_eq_ok.mp hparse
    rw [List.flatten_nil, List.append_nil] at hcontent
    rw [hcontent] at hlength
    exact absurd hstart (Nat.not_le.mpr hlength)
  | cons chunk chunks ih =>
    intro headerBytes hcontent _
    rw [List.flatten_cons, ← List.append_assoc] at hcontent
    have hpart : headerBytes++chunk <+: content := ⟨chunks.flatten,hcontent⟩
    unfold pullHeader
    dsimp only
    cases hearly : GgufFile.parse runtime (headerBytes++chunk) with
    | ok early =>
      have hsame := GgufFile.parse_of_header hearly ((List.take_prefix _ _).trans hpart)
      rw [hparse] at hsame
      cases hsame
      rw [tryParseHeader_ok hearly]
      rfl
    | error failure =>
      obtain ⟨hshort,hlength⟩ := GgufFile.parse_short hparse hpart hearly
      rw [tryParseHeader_short hearly hshort]
      change (if headerLimit<(headerBytes++chunk).length then _ else _) = _
      rw [if_neg (by omega)]
      exact ih hcontent hlength

end Pulling

/-- The same header, and the tensor data at the same place. -/
structure Matches (reader : GgufStreamReader) (parsed : GgufFile) : Prop where
  header : reader.toHeader = parsed.toHeader
  tensorDataStart : reader.tensorDataStart = parsed.tensorDataStart
  file : reader.file.content = parsed.bytes
  fileLen : reader.fileLen = parsed.bytes.length

section Opening
variable {runtime : Runtime} {splitting : Splitting} {file : File} {parsed : GgufFile}
  {reader : GgufStreamReader}

/-- Only a file that parses is opened. -/
lemma openFile_sound (h : openFile runtime splitting file = .ok reader) :
    ∃ parsed, GgufFile.parse runtime file.content = .ok parsed ∧ Matches reader parsed := by
  obtain ⟨⟨headerBytes,rest⟩,hpreamble,h⟩ := bind_eq_ok.mp h
  obtain ⟨pulled,hpull,h⟩ := bind_eq_ok.mp h
  cases h
  have hcontent : headerBytes++(splitting.split rest).flatten = file.content := by
    rw [splitting.flatten]
    exact readPreamble_ok hpreamble
  obtain ⟨parsed,hparse,rfl⟩ := pullHeader_sound _ hcontent hpull
  obtain ⟨header,afterHeader,-,-,rfl⟩ := GgufFile.parse_eq_ok.mp hparse
  exact ⟨_,hparse,rfl,rfl,rfl,rfl⟩

/-- Every file that parses is opened, unless its header is too long. -/
lemma openFile_complete (hparse : GgufFile.parse runtime file.content = .ok parsed)
    (hlimit : parsed.tensorDataStart ≤ headerLimit) :
    ∃ reader, openFile runtime splitting file = .ok reader := by
  obtain ⟨header,afterHeader,hread,-,hparsed⟩ := GgufFile.parse_eq_ok.mp hparse
  obtain ⟨hmagic,version,hversion,hsupported,hlength,hstart⟩ := preamble_of_header hread
  obtain ⟨headerBytes,rest,hpreamble,hbytes⟩ :=
    readPreamble_of_header hmagic hversion hsupported hlength
  have hcontent : headerBytes++(splitting.split rest).flatten = file.content := by
    rw [splitting.flatten]
    exact readPreamble_ok hpreamble
  have hpull := pullHeader_complete hparse hlimit _ hcontent (by rw [hbytes, hparsed]; exact hstart)
  refine ⟨⟨parsed.toHeader,file,parsed.tensorDataStart,file.content.length⟩,?_⟩
  unfold openFile
  rw [hpreamble]
  change (pullHeader runtime (splitting.split rest) headerBytes).bind _ = _
  rw [hpull]
  rfl

/-- The two readers return the same bytes for a tensor that lies inside the file. -/
lemma readTensorData_eq (h : Matches reader parsed) (hsized : parsed.bytes.length ≤ isizeMax)
    {name : String} {info : GgufTensorInfo} (hinfo : Lru.peek parsed.tensors name = some info)
    (hinside : parsed.tensorDataStart+info.offset+info.byteLen ≤ parsed.bytes.length) :
    ∃ bytes, parsed.tensorData name = some bytes ∧ bytes.length = info.byteLen ∧
      reader.readTensorData name = .ok (some bytes) := by
  have hwidth : parsed.tensorDataStart+info.offset+info.byteLen ≤ usizeMax := by
    unfold isizeMax usizeMax at *
    omega
  have htensors : reader.tensors = parsed.tensors := congrArg Header.tensors h.header
  have hrest : info.byteLen ≤ (parsed.bytes.drop (parsed.tensorDataStart+info.offset)).length := by
    rw [List.length_drop]
    omega
  refine ⟨(parsed.bytes.drop (parsed.tensorDataStart+info.offset)).take info.byteLen,?_,
    List.length_take_of_le hrest,?_⟩
  · unfold GgufFile.tensorData
    rw [hinfo]
    simp only [Option.bind_eq_bind, Option.bind_some,
      checkedAdd_of_le (Nat.le_trans (Nat.le_add_right _ info.byteLen) hwidth),
      checkedAdd_of_le hwidth, if_neg (Nat.not_lt.mpr hinside), Nat.add_sub_cancel_left]
    rfl
  · have hoffset : checkedAdd u64Max parsed.tensorDataStart info.offset = _ :=
      checkedAdd_of_le (Nat.le_trans (Nat.le_add_right _ info.byteLen) hwidth)
    have hpast : checkedAdd u64Max (parsed.tensorDataStart+info.offset) info.byteLen = _ :=
      checkedAdd_of_le hwidth
    unfold readTensorData
    rw [htensors, hinfo, h.tensorDataStart]
    dsimp only
    rw [hoffset]
    dsimp only
    rw [hpast, h.fileLen, h.file]
    dsimp only
    rw [if_neg (Nat.not_lt.mpr hinside), readExact_of_le hrest]
    rfl

end Opening

/-- The streaming reader agrees with the eager one on every file and for every way its reads split
it, and a header that parses on a prefix is the header of every longer file. -/
theorem stream_agrees_with_eager (runtime : Runtime) (splitting : Splitting) (file : File)
    (hlimit : ∀ parsed, GgufFile.parse runtime file.content = .ok parsed →
      parsed.tensorDataStart ≤ headerLimit) :
    ((∃ reader, openFile runtime splitting file = .ok reader) ↔
      ∃ parsed, GgufFile.parse runtime file.content = .ok parsed) ∧
    (∀ reader parsed, openFile runtime splitting file = .ok reader →
      GgufFile.parse runtime file.content = .ok parsed →
      reader.version = parsed.version ∧ reader.metadata = parsed.metadata ∧
      reader.tensors = parsed.tensors ∧ reader.tensorDataStart = parsed.tensorDataStart ∧
      ∀ name info, Lru.peek parsed.tensors name = some info →
        parsed.tensorDataStart+info.offset+info.byteLen ≤ file.content.length →
        ∃ bytes, parsed.tensorData name = some bytes ∧ bytes.length = info.byteLen ∧
          reader.readTensorData name = .ok (some bytes)) ∧
    (∀ bytes longer parsed, bytes <+: longer → GgufFile.parse runtime bytes = .ok parsed →
      GgufFile.parse runtime longer = .ok { parsed with bytes := longer }) ∧
    ∀ bytes longer failure, bytes <+: longer → GgufFile.parse runtime bytes = .error failure →
      ¬ failure.Short → GgufFile.parse runtime longer = .error failure := by
  refine ⟨⟨?_,?_⟩,fun reader parsed hopen hparse => ?_,fun bytes longer parsed hlonger hparse =>
    GgufFile.parse_of_header hparse ((List.take_prefix _ bytes).trans hlonger),
    fun bytes longer failure hlonger hparse hshort => GgufFile.parse_error hparse hshort hlonger⟩
  · rintro ⟨reader,hopen⟩
    obtain ⟨parsed,hparse,-⟩ := openFile_sound hopen
    exact ⟨parsed,hparse⟩
  · rintro ⟨parsed,hparse⟩
    exact openFile_complete hparse (hlimit parsed hparse)
  · obtain ⟨parsed',hparse',hmatch⟩ := openFile_sound hopen
    rw [hparse] at hparse'
    cases hparse'
    obtain ⟨header,afterHeader,-,-,hparsed⟩ := GgufFile.parse_eq_ok.mp hparse
    have hbytes : parsed.bytes = file.content := by rw [hparsed]
    refine ⟨congrArg Header.version hmatch.header,congrArg Header.metadata hmatch.header,
      congrArg Header.tensors hmatch.header,hmatch.tensorDataStart,fun name info hinfo hinside =>
      readTensorData_eq hmatch ?_ hinfo ?_⟩
    · rw [hbytes]
      exact file.sized
    · rw [hbytes]
      exact hinside

/-- Reads of one byte each. -/
def oneByOne : Splitting where
  split rest := rest.map fun b => [b]
  flatten rest := List.flatMap_singleton' rest
  nonempty rest h := by
    obtain ⟨b,-,hempty⟩ := List.mem_map.mp h
    cases hempty
  fits rest chunk h := by
    obtain ⟨b,-,rfl⟩ := List.mem_map.mp h
    change 1 ≤ 4*1024*1024
    decide

/-- Version 3 with one tensor `w` of two floats, packed without padding by its metadata. -/
def smallFile : File where
  content :=
    ggufMagic++[3,0,0,0]++[1,0,0,0,0,0,0,0]++[1,0,0,0,0,0,0,0]++
    [17,0,0,0,0,0,0,0]++"general.alignment".toList.map (fun c => UInt8.ofNat c.toNat)++
    [4,0,0,0]++[1,0,0,0]++
    [1,0,0,0,0,0,0,0,0x77]++[1,0,0,0]++[2,0,0,0,0,0,0,0]++[0,0,0,0]++[0,0,0,0,0,0,0,0]++
    [1,2,3,4,5,6,7,8]
  sized := by decide +kernel

def smallRuntime : Runtime where
  overflowChecks := true
  metadata n := decide (n ≤ 1000)
  tensors n := decide (n ≤ 1000)
  shape n := decide (n ≤ 1000)
  values n := decide (n ≤ 1000)
  stack := 100

/-- Read byte by byte, the small file gives its tensor. -/
theorem stream_agrees_with_eager_small :
    ∃ reader, openFile smallRuntime oneByOne smallFile = .ok reader ∧ reader.version = 3 ∧
      reader.tensorDataStart = 90 ∧
      reader.readTensorData "w" = .ok (some [1,2,3,4,5,6,7,8]) := by
  have hrun : ((GgufFile.parse smallRuntime smallFile.content).toOption.map fun parsed =>
      (parsed.version,parsed.tensorDataStart,Lru.peek parsed.tensors "w",parsed.tensorData "w")) =
        some (3,90,some ⟨"w",[2],0,0,8⟩,some [1,2,3,4,5,6,7,8]) := by
    decide +kernel
  cases hparse : GgufFile.parse smallRuntime smallFile.content with
  | error failure =>
    rw [hparse] at hrun
    cases hrun
  | ok parsed =>
    rw [hparse] at hrun
    simp only [Except.toOption, Option.map_some, Option.some.injEq, Prod.mk.injEq] at hrun
    obtain ⟨hversion,hstart,hinfo,hdata⟩ := hrun
    obtain ⟨hopens,hsame,-⟩ := stream_agrees_with_eager smallRuntime oneByOne smallFile
      fun other hother => by
        rw [hparse] at hother
        cases hother
        rw [hstart]
        decide
    obtain ⟨reader,hopen⟩ := hopens.mpr ⟨parsed,hparse⟩
    obtain ⟨hv,-,-,hs,htensor⟩ := hsame reader parsed hopen hparse
    obtain ⟨bytes,hbytes,-,hread⟩ := htensor "w" _ hinfo (by rw [hstart]; decide +kernel)
    rw [hdata] at hbytes
    cases hbytes
    exact ⟨reader,hopen,hv.trans hversion,hs.trans hstart,hread⟩

end GgufStreamReader

end MicroExpertRouter.Gguf
