import MicroExpertRouter.Gguf.ShardNames

/-! A shard set and its members: which of its names open it, and what the tables of the opened set
say of the tables of its shards. -/
namespace MicroExpertRouter.Gguf

/-- The number of a shard in its name. -/
def shardIndex (fileName : List Char) : Option ℕ :=
  (splitShardName fileName).map fun parts => Text.value parts.2.1

/-- Every shard of a set names the same set. -/
structure Independent (path : String) (spec : GgufShardSpec) : Prop where
  itself : ∃ name index, UnixPath.fileName path.toList = some name ∧ shardIndex name = some index ∧
    spec.pathFor index = joinPath spec.parent (String.ofList name)
  members : ∀ shardNumber, 0 < shardNumber → shardNumber ≤ spec.count →
    ∃ spec', parseShardFilename (spec.pathFor shardNumber) = .ok (some spec') ∧
      spec'.shardPaths = spec.shardPaths
  opened : ∀ shardNumber, 0 < shardNumber → shardNumber ≤ spec.count →
    ∀ runtime splitting disk, GgufShardSet.openPath runtime splitting disk
      (spec.pathFor shardNumber) = GgufShardSet.openPath runtime splitting disk path

/-- The tables of a set are made of the tables of its shards. -/
structure Unifies (runtime : Runtime) (splitting : Splitting) (disk : Disk) (spec : GgufShardSpec)
    (whole : GgufShardSet) : Prop where
  readers : (List.range' 1 spec.count).mapM (GgufShardSet.openShard runtime splitting disk spec) =
    .ok whole.readers
  tensors : ∀ name info, Lru.peek whole.tensors name = some info ↔
    ∃ reader ∈ whole.readers, Lru.peek reader.tensors name = some info
  owner : ∀ name owner, Lru.peek whole.owners name = some owner ↔
    ∃ reader, whole.readers[owner]? = some reader ∧ Lru.peek reader.tensors name ≠ none
  disjoint : ∀ (name : String) (i j : ℕ) (a b : GgufStreamReader), whole.readers[i]? = some a →
    whole.readers[j]? = some b → Lru.peek a.tensors name ≠ none → Lru.peek b.tensors name ≠ none →
      i = j
  reads : ∀ (name : String) (owner : ℕ) (reader : GgufStreamReader),
    whole.readers[owner]? = some reader → Lru.peek reader.tensors name ≠ none →
      whole.readTensorOwned name = reader.readTensorOwned name

section Unify

/-- The tables after the last insertion list the entries, the last one first. -/
lemma unify_eq (entries : List (ℕ × String × GgufTensorInfo)) : ∀ {u u' : Unified},
    entries.foldlM Unified.insert u = .ok u' → u.tensors.map Prod.fst = u.owners.map Prod.fst →
      u'.tensors = (entries.map fun entry => entry.2).reverse++u.tensors ∧
        u'.owners = (entries.map fun entry => (entry.2.1,entry.1)).reverse++u.owners := by
  induction entries with
  | nil =>
    intro u u' h _
    cases h
    simp
  | cons entry entries ih =>
    intro u u' h hkeys
    obtain ⟨owner,name,info⟩ := entry
    rw [List.foldlM_cons] at h
    obtain ⟨first,hinsert,hrest⟩ := bind_eq_ok.mp h
    obtain ⟨habsent,rfl⟩ := insert_ok hinsert
    have habsent' : ∀ v, (name,v) ∉ u.tensors := by
      intro v hmem
      have hkey := List.mem_map_of_mem (f := Prod.fst) hmem
      rw [hkeys] at hkey
      obtain ⟨⟨key,w⟩,hw,rfl⟩ := List.mem_map.mp hkey
      exact habsent w hw
    rw [Lru.put_of_absent habsent, Lru.put_of_absent habsent'] at hrest
    obtain ⟨htensors,howners⟩ := ih hrest (by simp [hkeys])
    simp [htensors, howners]

end Unify

namespace GgufShardSet
variable {runtime : Runtime} {splitting : Splitting} {disk : Disk} {spec : GgufShardSpec}
  {whole : GgufShardSet}

/-- An opened set lists what its shards list. -/
lemma openFromSpec_unifies (h : openFromSpec runtime splitting disk spec = .ok whole) :
    Unifies runtime splitting disk spec whole := by
  obtain ⟨howned,hreaders⟩ := openFromSpec_owned h
  have hunify := (openFromSpec_ok h).2
  obtain ⟨hdistinct,-⟩ := unify_owners _ hunify List.nodup_nil
  obtain ⟨htensors,howners⟩ := unify_eq _ hunify rfl
  dsimp only at htensors howners hdistinct
  rw [List.append_nil] at htensors howners
  have hkeys : Lru.Distinct whole.tensors := by
    rw [howners] at hdistinct
    rw [htensors]
    unfold Lru.Distinct at hdistinct ⊢
    simpa [Function.comp_def] using hdistinct
  have hmem : ∀ name info, (name,info) ∈ whole.tensors ↔
      ∃ reader ∈ whole.readers, (name,info) ∈ reader.tensors := by
    intro name info
    rw [htensors]
    simp only [List.mem_reverse, List.mem_map]
    constructor
    · rintro ⟨⟨owner,entry⟩,hentry,rfl⟩
      obtain ⟨reader,hreader,hinfo⟩ := mem_shardTensors.mp hentry
      exact ⟨reader,List.mem_of_getElem? hreader,hinfo⟩
    · rintro ⟨reader,hreader,hinfo⟩
      obtain ⟨owner,howner⟩ := List.mem_iff_getElem?.mp hreader
      exact ⟨_,mem_shardTensors.mpr ⟨reader,howner,hinfo⟩,rfl⟩
  refine ⟨hreaders,fun name info => ?_,howned.owner,?_,fun name owner reader hreader hlisted => ?_⟩
  · rw [Lru.peek_eq_some hkeys, hmem]
    constructor
    · rintro ⟨reader,hreader,hinfo⟩
      obtain ⟨info',hinfo'⟩ := Option.ne_none_iff_exists'.mp (peek_ne_none.mpr ⟨info,hinfo⟩)
      have hsame := hkeys.eq ((hmem name info').mpr ⟨reader,hreader,Lru.peek_mem hinfo'⟩)
        ((hmem name info).mpr ⟨reader,hreader,hinfo⟩)
      exact ⟨reader,hreader,hsame ▸ hinfo'⟩
    · rintro ⟨reader,hreader,hinfo⟩
      exact ⟨reader,hreader,Lru.peek_mem hinfo⟩
  · intro name i j a b ha hb hlisted hlisted'
    have hi := (howned.owner name i).mpr ⟨a,ha,hlisted⟩
    rw [(howned.owner name j).mpr ⟨b,hb,hlisted'⟩] at hi
    exact (Option.some.inj hi).symm
  · unfold readTensorOwned
    rw [(howned.owner name owner).mpr ⟨reader,hreader,hlisted⟩]
    dsimp only
    rw [hreader]
    rfl

end GgufShardSet

namespace GgufShardSpec
variable {self : GgufShardSpec} {path : String}

lemma openPath_of_parse {runtime : Runtime} {splitting : Splitting} {disk : Disk}
    (h : parseShardFilename path = .ok (some self)) :
    GgufShardSet.openPath runtime splitting disk path =
      GgufShardSet.openFromSpec runtime splitting disk self := by
  unfold GgufShardSet.openPath
  rw [h]
  rfl

/-- A shard number that is no wider than the parsed one parses to the very same set. -/
lemma parse_pathFor_of_lt {n : ℕ} (h : parseShardFilename path = .ok (some self))
    (hwidth : 0 < self.indexWidth) (hcount : self.count<10^self.indexWidth) (hpos : 0 < n)
    (hle : n ≤ self.count) : parseShardFilename (self.pathFor n) = .ok (some self) := by
  have hdigits : (Nat.toDigits 10 n).length ≤ self.indexWidth :=
    (Nat.length_toDigits_le_iff (by decide) hwidth).mpr (by omega)
  rw [parse_pathFor h hpos hle, max_eq_left hdigits]

/-- A name that parses is the name of its own shard. -/
lemma parsed_itself (h : parseShardFilename path = .ok (some self)) :
    0 < self.indexWidth ∧ 0 < self.count ∧ ∃ name index,
      UnixPath.fileName path.toList = some name ∧ shardIndex name = some index ∧
        self.pathFor index = joinPath self.parent (String.ofList name) := by
  obtain ⟨index,hnames,hname,hparent⟩ := parseShardFilename_eq_some.mp h
  have hdigits : 0 < (Nat.toDigits 10 index).length := Nat.length_toDigits_pos
  have hle := hnames.index_le
  have hpos := hnames.index_pos
  have hwidth := hnames.indexWidth
  refine ⟨by omega,by omega,self.fileName index,index,hname,?_,?_⟩
  · simp [shardIndex, split_fileName hnames.prefixed]
  · apply String.toList_injective
    rw [toList_pathFor, toList_joinPath, String.toList_ofList]

end GgufShardSpec

open GgufShardSpec GgufShardSet in
/-- A set is the same from each of its shards exactly when the number of the parsed name has as many
digits as the number of shards needs; what an opened set lists is what its shards list. -/
theorem shards_independent_iff (path : String) (spec : GgufShardSpec)
    (h : parseShardFilename path = .ok (some spec)) :
    (Independent path spec ∧ ∀ runtime splitting disk whole,
      openFromSpec runtime splitting disk spec = .ok whole →
        Unifies runtime splitting disk spec whole) ↔ spec.count<10^spec.indexWidth := by
  obtain ⟨hwidth,hpos,hitself⟩ := parsed_itself h
  constructor
  · rintro ⟨hindependent,-⟩
    obtain ⟨spec',hparse,hpaths⟩ := hindependent.members spec.count hpos le_rfl
    rw [parse_pathFor h hpos le_rfl] at hparse
    obtain rfl := Option.some.inj (Except.ok.inj hparse)
    have hsame := indexWidth_of_shardPaths hpos hwidth (le_max_left _ _) hpaths
    exact (Nat.length_toDigits_le_iff (by decide) hwidth).mp (max_eq_left_iff.mp hsame)
  · intro hcount
    refine ⟨⟨hitself,fun n hn hle => ?_,fun n hn hle runtime splitting disk => ?_⟩,
      fun runtime splitting disk whole => openFromSpec_unifies⟩
    · exact ⟨spec,parse_pathFor_of_lt h hwidth hcount hn hle,rfl⟩
    · rw [openPath_of_parse (parse_pathFor_of_lt h hwidth hcount hn hle), openPath_of_parse h]

/-- The second of two shards with numbers of one digit. -/
theorem shards_independent_two :
    (Independent "model-2-of-2.gguf" ⟨"","model",2,1,1⟩ ∧ ∀ runtime splitting disk whole,
      GgufShardSet.openFromSpec runtime splitting disk ⟨"","model",2,1,1⟩ = .ok whole →
        Unifies runtime splitting disk ⟨"","model",2,1,1⟩ whole) ↔ 2<10^1 :=
  shards_independent_iff "model-2-of-2.gguf" ⟨"","model",2,1,1⟩ (by decide +kernel)

/-- The ninth of ten shards with numbers that are not padded: the name of the tenth is the name of
another set, with a number of two digits. -/
theorem ninth_of_ten_differs :
    parseShardFilename "model-9-of-10.gguf" = .ok (some ⟨"","model",10,1,2⟩) ∧
    parseShardFilename (GgufShardSpec.pathFor ⟨"","model",10,1,2⟩ 10) =
      .ok (some ⟨"","model",10,2,2⟩) ∧
    GgufShardSpec.pathFor ⟨"","model",10,1,2⟩ 1 = "model-1-of-10.gguf" ∧
    GgufShardSpec.pathFor ⟨"","model",10,2,2⟩ 1 = "model-01-of-10.gguf" ∧
    ¬ Independent "model-9-of-10.gguf" ⟨"","model",10,1,2⟩ := by
  have hparse : parseShardFilename (GgufShardSpec.pathFor ⟨"","model",10,1,2⟩ 10) =
      .ok (some ⟨"","model",10,2,2⟩) := by decide +kernel
  refine ⟨by decide +kernel,hparse,by decide +kernel,by decide +kernel,fun h => ?_⟩
  obtain ⟨spec',hspec,hpaths⟩ := h.members 10 (by decide) (by decide)
  rw [hparse] at hspec
  obtain rfl := Option.some.inj (Except.ok.inj hspec)
  revert hpaths
  decide +kernel

end MicroExpertRouter.Gguf
