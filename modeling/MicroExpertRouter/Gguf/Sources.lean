import MicroExpertRouter.Gguf.Shards

/-! What the readers of `GgufSource` report for a tensor that is absent, for one whose range lies
inside its file and for one whose range does not. -/
namespace MicroExpertRouter.Gguf

namespace GgufFile

def readTensorOwned (self : GgufFile) (name : String) : Except Failure (Option (List UInt8)) :=
  .ok (self.tensorData name)

/-- The declared range lies inside the file. -/
def Inside (self : GgufFile) (info : GgufTensorInfo) : Prop :=
  self.tensorDataStart+info.offset+info.byteLen ≤ self.bytes.length

instance (self : GgufFile) (info : GgufTensorInfo) : Decidable (self.Inside info) := Nat.decLe _ _

/-- The bytes of the declared range. -/
def body (self : GgufFile) (info : GgufTensorInfo) : List UInt8 :=
  (self.bytes.drop (self.tensorDataStart+info.offset)).take info.byteLen

end GgufFile

def GgufStreamReader.readTensorOwned (self : GgufStreamReader) (name : String) :
    Except Failure (Option (List UInt8)) := self.readTensorData name

/-- What a reader of these files reports for a name: nothing for a name in none of their tables,
the bytes of a range inside its file, and an error for a range that is not. -/
structure Reports (files : List GgufFile) (name : String)
    (result : Except Failure (Option (List UInt8))) : Prop where
  absent : result = .ok none ↔ ∀ file ∈ files, Lru.peek file.tensors name = none
  bytes : ∀ data, result = .ok (some data) ↔ ∃ file ∈ files, ∃ info,
    Lru.peek file.tensors name = some info ∧ file.Inside info ∧ data = file.body info
  damaged : (∃ e, result = .error (.error e)) ↔ ∃ file ∈ files, ∃ info,
    Lru.peek file.tensors name = some info ∧ ¬ file.Inside info

section Reports
variable {files : List GgufFile} {file : GgufFile} {name : String} {info : GgufTensorInfo}
  {result : Except Failure (Option (List UInt8))}

lemma reports_absent (habsent : ∀ file ∈ files, Lru.peek file.tensors name = none) :
    Reports files name (.ok none) := by
  refine ⟨iff_of_true rfl habsent,fun data => ?_,?_⟩
  · refine iff_of_false (fun h => by cases h) ?_
    rintro ⟨file,hmem,info,hinfo,-⟩
    rw [habsent file hmem] at hinfo
    cases hinfo
  · refine iff_of_false ?_ ?_
    · rintro ⟨e,h⟩
      cases h
    · rintro ⟨file,hmem,info,hinfo,-⟩
      rw [habsent file hmem] at hinfo
      cases hinfo

/-- A name that one of the files lists. -/
lemma reports_listed (hmem : file ∈ files) (hinfo : Lru.peek file.tensors name = some info)
    (honly : ∀ other ∈ files, Lru.peek other.tensors name ≠ none → other = file) :
    Reports files name result ↔ (file.Inside info → result = .ok (some (file.body info))) ∧
      (¬ file.Inside info → ∃ e, result = .error (.error e)) := by
  have hlisted : ∀ P : GgufFile → GgufTensorInfo → Prop,
      (∃ file ∈ files, ∃ info, Lru.peek file.tensors name = some info ∧ P file info) ↔
        P file info := by
    intro P
    constructor
    · rintro ⟨other,hother,info',hinfo',hP⟩
      obtain rfl := honly other hother (by simp [hinfo'])
      rw [hinfo] at hinfo'
      cases hinfo'
      exact hP
    · exact fun hP => ⟨file,hmem,info,hinfo,hP⟩
  have hnot : ¬ ∀ file ∈ files, Lru.peek file.tensors name = none := by
    intro h
    rw [h file hmem] at hinfo
    cases hinfo
  constructor
  · rintro ⟨-,hbytes,hdamaged⟩
    exact ⟨fun hinside => (hbytes _).mpr ((hlisted _).mpr ⟨hinside,rfl⟩),
      fun houtside => hdamaged.mpr ((hlisted _).mpr houtside)⟩
  · rintro ⟨hinside,houtside⟩
    by_cases h : file.Inside info
    · rw [hinside h]
      refine ⟨iff_of_false (fun heq => by cases heq) hnot,fun data => ?_,
        iff_of_false ?_ fun hdamaged => (hlisted _).mp hdamaged h⟩
      · rw [hlisted fun file info => file.Inside info ∧ data = file.body info]
        constructor
        · intro heq
          cases heq
          exact ⟨h,rfl⟩
        · rintro ⟨-,rfl⟩
          rfl
      · rintro ⟨e,heq⟩
        cases heq
    · obtain ⟨e,rfl⟩ := houtside h
      exact ⟨iff_of_false (fun heq => by cases heq) hnot,
        fun data => iff_of_false (fun heq => by cases heq) fun hbytes =>
          h ((hlisted fun file info => file.Inside info ∧ data = file.body info).mp hbytes).1,
        iff_of_true ⟨e,rfl⟩ ((hlisted _).mpr h)⟩

end Reports

section Readers
variable {reader : GgufStreamReader} {parsed : GgufFile} {name : String} {info : GgufTensorInfo}

lemma tensorData_of_inside (hsized : parsed.bytes.length ≤ isizeMax)
    (hinfo : Lru.peek parsed.tensors name = some info) (hinside : parsed.Inside info) :
    parsed.tensorData name = some (parsed.body info) := by
  have hle : parsed.tensorDataStart+info.offset+info.byteLen ≤ parsed.bytes.length := hinside
  have hwidth : parsed.tensorDataStart+info.offset+info.byteLen ≤ usizeMax := by
    unfold isizeMax usizeMax at *
    omega
  unfold GgufFile.tensorData GgufFile.body
  rw [hinfo]
  simp only [Option.bind_eq_bind, Option.bind_some, checkedAdd_of_le hwidth,
    checkedAdd_of_le (Nat.le_trans (Nat.le_add_right _ info.byteLen) hwidth),
    if_neg (Nat.not_lt.mpr hle), Nat.add_sub_cancel_left]
  rfl

open GgufStreamReader (Matches)

lemma readTensorData_of_absent (h : Matches reader parsed)
    (hinfo : Lru.peek parsed.tensors name = none) : reader.readTensorData name = .ok none := by
  have htensors : reader.tensors = parsed.tensors := congrArg Header.tensors h.header
  unfold GgufStreamReader.readTensorData
  rw [htensors, hinfo]

lemma readTensorData_of_inside (h : Matches reader parsed) (hsized : parsed.bytes.length ≤ isizeMax)
    (hinfo : Lru.peek parsed.tensors name = some info) (hinside : parsed.Inside info) :
    reader.readTensorData name = .ok (some (parsed.body info)) := by
  obtain ⟨bytes,hbytes,-,hread⟩ := GgufStreamReader.readTensorData_eq h hsized hinfo hinside
  rw [tensorData_of_inside hsized hinfo hinside] at hbytes
  cases hbytes
  exact hread

/-- The streaming reader refuses a range outside its file, also one whose end overflows. -/
lemma readTensorData_of_outside (h : Matches reader parsed)
    (hinfo : Lru.peek parsed.tensors name = some info) (houtside : ¬ parsed.Inside info) :
    ∃ e, reader.readTensorData name = .error (.error e) := by
  have htensors : reader.tensors = parsed.tensors := congrArg Header.tensors h.header
  unfold GgufStreamReader.readTensorData
  rw [htensors, hinfo, h.tensorDataStart]
  dsimp only
  cases hstart : checkedAdd u64Max parsed.tensorDataStart info.offset with
  | none => exact ⟨_,rfl⟩
  | some start =>
    obtain ⟨-,rfl⟩ := checkedAdd_eq_some.mp hstart
    dsimp only
    cases hpast : checkedAdd u64Max (parsed.tensorDataStart+info.offset) info.byteLen with
    | none => exact ⟨_,rfl⟩
    | some past =>
      obtain ⟨-,rfl⟩ := checkedAdd_eq_some.mp hpast
      dsimp only
      rw [h.fileLen, if_pos (Nat.not_le.mp houtside)]
      exact ⟨_,rfl⟩

/-- The reports of the streaming reader, alone or as the owner of a name in a set. -/
lemma stream_reports {files : List GgufFile} (h : Matches reader parsed)
    (hsized : parsed.bytes.length ≤ isizeMax) (hmem : parsed ∈ files)
    (hinfo : Lru.peek parsed.tensors name = some info)
    (honly : ∀ other ∈ files, Lru.peek other.tensors name ≠ none → other = parsed) :
    Reports files name (reader.readTensorData name) :=
  (reports_listed hmem hinfo honly).mpr
    ⟨readTensorData_of_inside h hsized hinfo,readTensorData_of_outside h hinfo⟩

end Readers

section Unify

lemma insert_ok {u first : Unified} {owner : ℕ} {name : String} {info : GgufTensorInfo}
    (h : u.insert (owner,name,info) = .ok first) : (∀ v, (name,v) ∉ u.owners) ∧
      first = ⟨Lru.put u.tensors name info,Lru.put u.owners name owner⟩ := by
  unfold Unified.insert at h
  dsimp only at h
  cases hpeek : Lru.peek u.owners name with
  | some previous =>
    rw [hpeek] at h
    cases h
  | none =>
    rw [hpeek] at h
    exact ⟨Lru.peek_eq_none.mp hpeek,(Except.ok.inj h).symm⟩

lemma unify_owners (entries : List (ℕ × String × GgufTensorInfo)) : ∀ {u u' : Unified},
    entries.foldlM Unified.insert u = .ok u' → Lru.Distinct u.owners → Lru.Distinct u'.owners ∧
      ∀ name owner, (name,owner) ∈ u'.owners ↔
        (name,owner) ∈ u.owners ∨ ∃ info, (owner,name,info) ∈ entries := by
  induction entries with
  | nil =>
    intro u u' h hdistinct
    cases h
    simp [hdistinct]
  | cons entry entries ih =>
    intro u u' h hdistinct
    obtain ⟨owner,name,info⟩ := entry
    rw [List.foldlM_cons] at h
    obtain ⟨first,hinsert,hrest⟩ := bind_eq_ok.mp h
    obtain ⟨habsent,rfl⟩ := insert_ok hinsert
    obtain ⟨hdistinct',hmem⟩ := ih hrest (hdistinct.put name owner)
    refine ⟨hdistinct',fun name' owner' => ?_⟩
    rw [hmem, Lru.put_of_absent habsent]
    simp only [List.mem_cons, Prod.mk.injEq]
    constructor
    · rintro ((⟨rfl,rfl⟩ | hold) | ⟨info',hnew⟩)
      · exact .inr ⟨info,.inl ⟨rfl,rfl,rfl⟩⟩
      · exact .inl hold
      · exact .inr ⟨info',.inr hnew⟩
    · rintro (hold | ⟨info',⟨rfl,rfl,rfl⟩ | hnew⟩)
      · exact .inl (.inr hold)
      · exact .inl (.inl ⟨rfl,rfl⟩)
      · exact .inr ⟨info',hnew⟩

lemma mem_shardTensors {readers : List GgufStreamReader} {owner : ℕ} {name : String}
    {info : GgufTensorInfo} : (owner,name,info) ∈ shardTensors readers ↔
      ∃ reader, readers[owner]? = some reader ∧ (name,info) ∈ reader.tensors := by
  unfold shardTensors
  rw [List.mem_flatMap]
  constructor
  · rintro ⟨⟨reader,idx⟩,hshard,hentry⟩
    obtain ⟨⟨name',info'⟩,hmem,heq⟩ := List.mem_map.mp hentry
    cases heq
    exact ⟨reader,List.mk_mem_zipIdx_iff_getElem?.mp hshard,hmem⟩
  · rintro ⟨reader,hreader,hmem⟩
    exact ⟨(reader,owner),List.mk_mem_zipIdx_iff_getElem?.mpr hreader,
      List.mem_map.mpr ⟨(name,info),hmem,rfl⟩⟩

end Unify

namespace GgufShardSet

/-- A name has an owner when one of the shards lists it, and only that one does. -/
structure Owned (whole : GgufShardSet) : Prop where
  owner : ∀ name owner, Lru.peek whole.owners name = some owner ↔
    ∃ reader, whole.readers[owner]? = some reader ∧ Lru.peek reader.tensors name ≠ none

lemma peek_ne_none {ν : Type} {table : Table ν} {name : String} :
    Lru.peek table name ≠ none ↔ ∃ v, (name,v) ∈ table := by
  rw [ne_eq, Lru.peek_eq_none]
  simp

variable {runtime : Runtime} {splitting : Splitting} {disk : Disk} {spec : GgufShardSpec}
  {whole : GgufShardSet}

/-- An opened set has its readers, and the tables of their tensors. -/
lemma openFromSpec_ok (h : openFromSpec runtime splitting disk spec = .ok whole) :
    (List.range' 1 spec.count).mapM (openShard runtime splitting disk spec) = .ok whole.readers ∧
      (shardTensors whole.readers).foldlM Unified.insert ⟨[],[]⟩ =
        .ok ⟨whole.tensors,whole.owners⟩ := by
  obtain ⟨readers,hreaders,h⟩ := bind_eq_ok.mp h
  obtain ⟨_,-,h⟩ := bind_eq_ok.mp h
  cases readers with
  | nil => cases h
  | cons first rest =>
    obtain ⟨unified,hunify,h⟩ := bind_eq_ok.mp h
    obtain ⟨declared,-,h⟩ := bind_eq_ok.mp h
    obtain ⟨_,-,h⟩ := bind_eq_ok.mp h
    cases h
    exact ⟨hreaders,hunify⟩

lemma openFromSpec_owned (h : openFromSpec runtime splitting disk spec = .ok whole) :
    whole.Owned ∧ (List.range' 1 spec.count).mapM (openShard runtime splitting disk spec) =
      .ok whole.readers := by
  obtain ⟨hreaders,hunify⟩ := openFromSpec_ok h
  obtain ⟨hdistinct,hmem⟩ := unify_owners _ hunify List.nodup_nil
  refine ⟨⟨fun name owner => ?_⟩,hreaders⟩
  rw [Lru.peek_eq_some hdistinct, hmem]
  constructor
  · rintro (hnil | ⟨info,hentry⟩)
    · cases hnil
    · obtain ⟨reader,hreader,hinfo⟩ := mem_shardTensors.mp hentry
      exact ⟨reader,hreader,peek_ne_none.mpr ⟨info,hinfo⟩⟩
  · rintro ⟨reader,hreader,hlisted⟩
    obtain ⟨info,hinfo⟩ := peek_ne_none.mp hlisted
    exact .inr ⟨info,mem_shardTensors.mpr ⟨reader,hreader,hinfo⟩⟩

/-- The files of a set: the shards of its name, as the eager parser reads them. -/
def Files (runtime : Runtime) (disk : Disk) (spec : GgufShardSpec) (files : List GgufFile) : Prop :=
  List.Forall₂ (fun shardNumber parsed => ∃ file, disk (spec.pathFor shardNumber) = some file ∧
    GgufFile.parse runtime file.content = .ok parsed) (List.range' 1 spec.count) files

/-- The readers of a set match its files, one by one. -/
lemma files_of_readers {shardNumbers : List ℕ} {readers : List GgufStreamReader}
    (h : List.Forall₂ (fun n reader => openShard runtime splitting disk spec n = .ok reader)
      shardNumbers readers) : ∃ files,
    List.Forall₂ (fun shardNumber parsed => ∃ file, disk (spec.pathFor shardNumber) = some file ∧
      GgufFile.parse runtime file.content = .ok parsed) shardNumbers files ∧
    List.Forall₂ (fun reader parsed => GgufStreamReader.Matches reader parsed ∧
      parsed.bytes.length ≤ isizeMax) readers files := by
  induction h with
  | nil => exact ⟨[],.nil,.nil⟩
  | @cons shardNumber reader shardNumbers readers hopen hrest ih =>
    obtain ⟨files,hfiles,hmatch⟩ := ih
    unfold openShard at hopen
    dsimp only at hopen
    cases hdisk : disk (spec.pathFor shardNumber) with
    | none =>
      rw [hdisk] at hopen
      cases hopen
    | some file =>
      rw [hdisk] at hopen
      dsimp only at hopen
      cases hreader : GgufStreamReader.openFile runtime splitting file with
      | error failure =>
        rw [hreader] at hopen
        cases failure with
        | error e => cases hopen
        | panic => cases hopen
      | ok opened =>
        rw [hreader] at hopen
        cases hopen
        obtain ⟨parsed,hparse,hmatches⟩ := GgufStreamReader.openFile_sound hreader
        refine ⟨parsed::files,.cons ⟨file,hdisk,hparse⟩ hfiles,.cons ⟨hmatches,?_⟩ hmatch⟩
        rw [← hmatches.file]
        exact reader.file.sized

/-- A set reports for every name what the shard that owns it reports. -/
lemma set_reports (h : openFromSpec runtime splitting disk spec = .ok whole) (name : String) :
    ∃ files, Files runtime disk spec files ∧ Reports files name (whole.readTensorOwned name) := by
  obtain ⟨howned,hopened⟩ := openFromSpec_owned h
  obtain ⟨files,hfiles,hmatch⟩ := files_of_readers (mapM_eq_ok.mp hopened)
  refine ⟨files,hfiles,?_⟩
  have hget : ∀ (idx : ℕ) (parsed : GgufFile), files[idx]? = some parsed → ∃ reader,
      whole.readers[idx]? = some reader ∧ GgufStreamReader.Matches reader parsed ∧
        parsed.bytes.length ≤ isizeMax := by
    intro idx parsed hparsed
    obtain ⟨hidx,rfl⟩ := List.getElem?_eq_some_iff.mp hparsed
    have hidx' : idx<whole.readers.length := hmatch.length_eq ▸ hidx
    exact ⟨_,List.getElem?_eq_getElem hidx',(List.forall₂_iff_get.mp hmatch).2 idx hidx' hidx⟩
  have hlisted : ∀ {reader parsed}, GgufStreamReader.Matches reader parsed →
      Lru.peek reader.tensors name = Lru.peek parsed.tensors name := by
    intro reader parsed hmatches
    rw [congrArg Header.tensors hmatches.header]
  unfold readTensorOwned
  cases howner : Lru.peek whole.owners name with
  | none =>
    refine reports_absent fun parsed hmem => ?_
    obtain ⟨idx,hidx⟩ := List.mem_iff_getElem?.mp hmem
    obtain ⟨reader,hreader,hmatches,-⟩ := hget idx parsed hidx
    by_contra hpeek
    rw [← hlisted hmatches] at hpeek
    have hsome := (howned.owner name idx).mpr ⟨reader,hreader,hpeek⟩
    rw [howner] at hsome
    cases hsome
  | some owner =>
    obtain ⟨reader,hreader,hpeek⟩ := (howned.owner name owner).mp howner
    obtain ⟨hidx,rfl⟩ := List.getElem?_eq_some_iff.mp hreader
    have hidx' : owner<files.length := hmatch.length_eq ▸ hidx
    obtain ⟨hmatches,hsized⟩ := (List.forall₂_iff_get.mp hmatch).2 owner hidx hidx'
    dsimp only [List.get_eq_getElem] at hmatches hsized
    rw [hlisted hmatches] at hpeek
    obtain ⟨info,hinfo⟩ := Option.ne_none_iff_exists'.mp hpeek
    dsimp only
    rw [List.getElem?_eq_getElem hidx]
    refine stream_reports hmatches hsized (List.getElem_mem hidx') hinfo fun other hother hpeek => ?_
    obtain ⟨idx,hother⟩ := List.mem_iff_getElem?.mp hother
    obtain ⟨reader,hreader,hmatches,-⟩ := hget idx other hother
    rw [← hlisted hmatches] at hpeek
    have hsame := (howned.owner name idx).mpr ⟨reader,hreader,hpeek⟩
    rw [howner] at hsame
    cases hsame
    rw [List.getElem?_eq_getElem hidx'] at hother
    exact (Option.some.inj hother).symm

end GgufShardSet

/-- Every reader of a file reports every name as it should. -/
structure AllReport (runtime : Runtime) (splitting : Splitting) (file : File) (parsed : GgufFile)
    (name : String) : Prop where
  eager : Reports [parsed] name (parsed.readTensorOwned name)
  stream : ∀ reader, GgufStreamReader.openFile runtime splitting file = .ok reader →
    Reports [parsed] name (reader.readTensorOwned name)
  shards : ∀ disk spec whole, GgufShardSet.openFromSpec runtime splitting disk spec = .ok whole →
    (∃ n ∈ List.range' 1 spec.count, disk (spec.pathFor n) = some file) →
    ∃ files, parsed ∈ files ∧ GgufShardSet.Files runtime disk spec files ∧
      Reports files name (whole.readTensorOwned name)

/-- The readers of a file agree on a name exactly when it is not a listed tensor with a range that
is not inside the file. -/
theorem all_report_iff (runtime : Runtime) (splitting : Splitting) (file : File) (parsed : GgufFile)
    (hparse : GgufFile.parse runtime file.content = .ok parsed) (name : String) :
    AllReport runtime splitting file parsed name ↔
      ∀ info, Lru.peek parsed.tensors name = some info → parsed.Inside info := by
  have hsized : parsed.bytes.length ≤ isizeMax := by
    obtain ⟨header,afterHeader,-,-,rfl⟩ := GgufFile.parse_eq_ok.mp hparse
    exact file.sized
  have hself : ∀ other ∈ [parsed], Lru.peek other.tensors name ≠ none → other = parsed :=
    fun other hother _ => List.mem_singleton.mp hother
  constructor
  · intro h info hinfo
    by_contra houtside
    obtain ⟨e,he⟩ := ((reports_listed List.mem_cons_self hinfo hself).mp h.eager).2 houtside
    cases he
  · intro hinside
    refine ⟨?_,fun reader hopen => ?_,fun disk spec whole hopen hshard => ?_⟩
    · cases hinfo : Lru.peek parsed.tensors name with
      | none =>
        have habsent : parsed.tensorData name = none := by
          rw [GgufFile.tensorData, hinfo]
          rfl
        rw [GgufFile.readTensorOwned, habsent]
        exact reports_absent fun other hother => by rw [List.mem_singleton.mp hother, hinfo]
      | some info =>
        refine (reports_listed List.mem_cons_self hinfo hself).mpr
          ⟨fun _ => ?_,fun houtside => absurd (hinside info hinfo) houtside⟩
        rw [GgufFile.readTensorOwned, tensorData_of_inside hsized hinfo (hinside info hinfo)]
    · obtain ⟨parsed',hparse',hmatches⟩ := GgufStreamReader.openFile_sound hopen
      rw [hparse] at hparse'
      cases hparse'
      cases hinfo : Lru.peek parsed.tensors name with
      | none =>
        rw [GgufStreamReader.readTensorOwned, readTensorData_of_absent hmatches hinfo]
        exact reports_absent fun other hother => by rw [List.mem_singleton.mp hother, hinfo]
      | some info => exact stream_reports hmatches hsized List.mem_cons_self hinfo hself
    · obtain ⟨files,hfiles,hreports⟩ := GgufShardSet.set_reports hopen name
      refine ⟨files,?_,hfiles,hreports⟩
      obtain ⟨n,hn,hdisk⟩ := hshard
      obtain ⟨hlength,hget⟩ := List.forall₂_iff_get.mp hfiles
      obtain ⟨idx,hidx,rfl⟩ := List.mem_iff_getElem.mp hn
      obtain ⟨file',hdisk',hparse'⟩ := hget idx hidx (hlength ▸ hidx)
      have hmem := List.getElem_mem (hlength ▸ hidx : idx<files.length)
      rw [List.get_eq_getElem, hdisk] at hdisk'
      cases hdisk'
      rw [hparse] at hparse'
      cases hparse'
      exact hmem

open GgufStreamReader (smallFile smallRuntime oneByOne)

/-- All readers of the small file give its tensor. -/
theorem all_report_small : ∃ parsed, GgufFile.parse smallRuntime smallFile.content = .ok parsed ∧
    AllReport smallRuntime oneByOne smallFile parsed "w" := by
  have hrun : ((GgufFile.parse smallRuntime smallFile.content).toOption.map fun parsed =>
      (Lru.peek parsed.tensors "w",parsed.tensorDataStart)) = some (some ⟨"w",[2],0,0,8⟩,90) := by
    decide +kernel
  cases hparse : GgufFile.parse smallRuntime smallFile.content with
  | error failure =>
    rw [hparse] at hrun
    cases hrun
  | ok parsed =>
    rw [hparse] at hrun
    simp only [Except.toOption, Option.map_some, Option.some.injEq, Prod.mk.injEq] at hrun
    obtain ⟨hinfo,hstart⟩ := hrun
    refine ⟨parsed,rfl,(all_report_iff smallRuntime oneByOne smallFile parsed hparse "w").mpr
      fun info hinfo' => ?_⟩
    rw [hinfo] at hinfo'
    cases hinfo'
    obtain ⟨header,afterHeader,-,-,hparsed⟩ := GgufFile.parse_eq_ok.mp hparse
    have hbytes : parsed.bytes = smallFile.content := by rw [hparsed]
    unfold GgufFile.Inside
    rw [hstart, hbytes]
    decide +kernel

/-- The small file without its last byte. -/
def truncatedFile : File where
  content := smallFile.content.dropLast
  sized := by
    rw [List.length_dropLast]
    exact (Nat.sub_le _ 1).trans smallFile.sized

/-- The truncated file still parses, and its eager reader reports that the tensor is absent. -/
theorem truncated_reads_absent : ∃ parsed,
    GgufFile.parse smallRuntime truncatedFile.content = .ok parsed ∧
      parsed.readTensorOwned "w" = .ok none ∧ (Lru.peek parsed.tensors "w").isSome = true ∧
      ¬ AllReport smallRuntime oneByOne truncatedFile parsed "w" := by
  have hrun : ((GgufFile.parse smallRuntime truncatedFile.content).toOption.map fun parsed =>
      (parsed.tensorData "w",Lru.peek parsed.tensors "w")) = some (none,some ⟨"w",[2],0,0,8⟩) := by
    decide +kernel
  cases hparse : GgufFile.parse smallRuntime truncatedFile.content with
  | error failure =>
    rw [hparse] at hrun
    cases hrun
  | ok parsed =>
    rw [hparse] at hrun
    simp only [Except.toOption, Option.map_some, Option.some.injEq, Prod.mk.injEq] at hrun
    obtain ⟨hdata,hinfo⟩ := hrun
    have hread : parsed.readTensorOwned "w" = .ok none := by rw [GgufFile.readTensorOwned, hdata]
    refine ⟨parsed,rfl,hread,by rw [hinfo]; rfl,fun h => ?_⟩
    have habsent := h.eager.absent.mp hread parsed List.mem_cons_self
    rw [hinfo] at habsent
    cases habsent

end MicroExpertRouter.Gguf
