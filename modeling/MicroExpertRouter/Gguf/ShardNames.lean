import MicroExpertRouter.Gguf.Sources
import MicroExpertRouter.Lib.Text
import MicroExpertRouter.Lib.UnixPath

/-! The names of shards: `parse_shard_filename` and the set that a path opens. The width of the
numbers in the other names of the set is the width of the number in the name that is parsed. -/
namespace MicroExpertRouter.Gguf
open Text (Digits value)

/-- The parts of a file name around `-00001-of-00005.gguf`. -/
def splitShardName (fileName : List Char) : Option (List Char × List Char × List Char) := do
  let stem ← Text.stripSuffix ".gguf".toList fileName
  let (beforeCount,countStr) ← Text.rsplitOnce ['-','o','f','-'] stem
  let (namePrefix,indexStr) ← Text.rsplitOnce ['-'] beforeCount
  if namePrefix = [] ∨ indexStr = [] ∨ countStr = [] ∨ ¬ Digits indexStr ∨ ¬ Digits countStr then
    none
  else some (namePrefix,indexStr,countStr)

/-- `parse::<usize>` of digits; `what` is the number that is read. -/
def parseNumber (what : String) (digits fileName : List Char) : Except Failure ℕ :=
  if value digits ≤ usizeMax then .ok (value digits)
  else
    let text := String.ofList digits
    let file := String.ofList fileName
    .error (.error ⟨.invalidInput,s!"GGUF shard {what} `{text}` in {file} is too large"⟩)

/-- `parse_shard_filename`. -/
def parseShardFilename (path : String) : Except Failure (Option GgufShardSpec) :=
  match UnixPath.fileName path.toList with
  | none => .ok none
  | some fileName => match splitShardName fileName with
    | none => .ok none
    | some (namePrefix,indexStr,countStr) => do
      let index ← parseNumber "index" indexStr fileName
      let count ← parseNumber "count" countStr fileName
      if count = 0 ∨ index = 0 ∨ count < index then
        let file := String.ofList fileName
        .error (.error ⟨.invalidInput,
          s!"invalid GGUF shard numbering in {file}: shard {index} of {count}"⟩)
      else
        let parent := (UnixPath.parent path.toList).getD ['.']
        return some ⟨String.ofList parent,String.ofList namePrefix,count,indexStr.length,
          countStr.length⟩

/-- `GgufShardSet::open`. -/
def GgufShardSet.openPath (runtime : Runtime) (splitting : Splitting) (disk : Disk)
    (path : String) : Except Failure GgufShardSet := do
  match ← parseShardFilename path with
  | none => .error (.error ⟨.invalidInput,
      s!"{path} does not look like a standard GGUF shard name (*-00001-of-00005.gguf)"⟩)
  | some spec => openFromSpec runtime splitting disk spec

namespace GgufShardSpec

/-- The file name of a shard. -/
def fileName (self : GgufShardSpec) (shardNumber : ℕ) : List Char :=
  self.namePrefix.toList ++ '-'::Text.padded self.indexWidth shardNumber++['-','o','f','-']++
    Text.padded self.countWidth self.count++".gguf".toList

/-- The paths of all shards of a set. -/
def shardPaths (self : GgufShardSpec) : List String :=
  (List.range' 1 self.count).map self.pathFor

/-- What the name of a shard says of its set. -/
structure Names (spec : GgufShardSpec) (index : ℕ) : Prop where
  prefixed : spec.namePrefix ≠ ""
  count_le : spec.count ≤ usizeMax
  index_pos : 0 < index
  index_le : index ≤ spec.count
  indexWidth : (Nat.toDigits 10 index).length ≤ spec.indexWidth
  countWidth : (Nat.toDigits 10 spec.count).length ≤ spec.countWidth

variable {self other : GgufShardSpec} {index shardNumber : ℕ}

lemma toList_zeroPadded (width n : ℕ) : (zeroPadded width n).toList = Text.padded width n := by
  simp [zeroPadded, Text.padded, ← String.length_toList]

lemma toList_joinPath (parent name : String) :
    (joinPath parent name).toList = UnixPath.join parent.toList name.toList := by
  have hempty : parent = "" ↔ parent.toList = [] := by simp
  have hends : parent.endsWith "/" = true ↔ ['/'] <:+ parent.toList := by
    change parent.toSlice.endsWith "/" = true ↔ _
    rw [String.Slice.endsWith_string_iff]
    simp
  unfold joinPath UnixPath.join
  simp only [hempty, hends]
  split_ifs <;> simp

lemma toList_pathFor : (self.pathFor shardNumber).toList =
    UnixPath.join self.parent.toList (self.fileName shardNumber) := by
  rw [pathFor, toList_joinPath]
  simp [fileName, toList_zeroPadded]

/-- The name of a shard splits into the parts it is made of. -/
lemma split_fileName (hpre : self.namePrefix ≠ "") (n : ℕ) : splitShardName (self.fileName n) =
    some (self.namePrefix.toList,Text.padded self.indexWidth n,Text.padded self.countWidth self.count) := by
  have hindex := @Text.digits_padded self.indexWidth n
  have hcount := @Text.digits_padded self.countWidth self.count
  have hdash : '-' ∉ Text.padded self.countWidth self.count := hcount.notMem rfl
  have hlate : Text.rsplitOnce ['-','o','f','-']
      (['o','f','-']++Text.padded self.countWidth self.count) = none := by
    have hnone := Text.rsplitOnce_eq_none hdash ['o','f','-']
    have ho : ¬ ['o','f','-'] <+: Text.padded self.countWidth self.count := fun h =>
      hcount.notMem (c := 'o') rfl (h.subset List.mem_cons_self)
    simp [Text.rsplitOnce, hnone, ho]
  have hsplit := Text.rsplitOnce_append hlate
    (self.namePrefix.toList ++ '-'::Text.padded self.indexWidth n)
  have hsplit' : Text.rsplitOnce ['-'] (self.namePrefix.toList++['-']++
      Text.padded self.indexWidth n) = some (self.namePrefix.toList,Text.padded self.indexWidth n) :=
    Text.rsplitOnce_append (Text.rsplitOnce_eq_none (hindex.notMem rfl) []) _
  have hstem := Text.stripSuffix_eq_some.mpr (rfl : self.fileName n = _++".gguf".toList)
  rw [splitShardName, hstem, Option.bind_eq_bind, Option.bind_some, hsplit, Option.bind_eq_bind,
    Option.bind_some]
  dsimp only
  rw [List.append_cons, hsplit', Option.bind_some]
  simp [hpre, hindex, hcount]

/-- A name that splits is made of its parts. -/
lemma of_splitShardName {name namePrefix indexStr countStr : List Char}
    (h : splitShardName name = some (namePrefix,indexStr,countStr)) :
    name = namePrefix ++ '-'::indexStr++['-','o','f','-']++countStr++".gguf".toList ∧
      namePrefix ≠ [] ∧ indexStr ≠ [] ∧ countStr ≠ [] ∧ Digits indexStr ∧ Digits countStr := by
  obtain ⟨stem,hstem,h⟩ := Option.bind_eq_some_iff.mp h
  obtain ⟨⟨beforeCount,count⟩,hcount,h⟩ := Option.bind_eq_some_iff.mp h
  obtain ⟨⟨before,index⟩,hindex,h⟩ := Option.bind_eq_some_iff.mp h
  dsimp only at h
  split_ifs at h with hparts
  cases h
  push Not at hparts
  refine ⟨?_,hparts⟩
  rw [Text.stripSuffix_eq_some.mp hstem, Text.of_rsplitOnce hcount, Text.of_rsplitOnce hindex]
  simp

/-- What the names of shards parse to. -/
theorem parseShardFilename_eq_some {path : String} :
    parseShardFilename path = .ok (some self) ↔ ∃ index, self.Names index ∧
      UnixPath.fileName path.toList = some (self.fileName index) ∧
        (UnixPath.parent path.toList).getD ['.'] = self.parent.toList := by
  unfold parseShardFilename
  constructor
  · intro h
    cases hname : UnixPath.fileName path.toList with
    | none =>
      rw [hname] at h
      cases h
    | some name =>
      rw [hname] at h
      dsimp only at h
      cases hsplit : splitShardName name with
      | none =>
        rw [hsplit] at h
        cases h
      | some parts =>
        obtain ⟨namePrefix,indexStr,countStr⟩ := parts
        rw [hsplit] at h
        obtain ⟨hparts,hfront,hindex,hcount,hindexDigits,hcountDigits⟩ := of_splitShardName hsplit
        obtain ⟨index,hread,h⟩ := bind_eq_ok.mp h
        obtain ⟨count,hread',h⟩ := bind_eq_ok.mp h
        unfold parseNumber at hread hread'
        split_ifs at hread hread' with _ hle
        cases hread
        cases hread'
        split_ifs at h with hnumbers
        cases h
        push Not at hnumbers
        refine ⟨value indexStr,⟨?_,hle,by omega,hnumbers.2.2,?_,?_⟩,?_,?_⟩
        · simpa using hfront
        · exact Text.length_toDigits_le hindex hindexDigits
        · exact Text.length_toDigits_le hcount hcountDigits
        · simp only [fileName, hindexDigits.padded_value hindex, hcountDigits.padded_value hcount,
            String.toList_ofList]
          rw [hparts]
        · simp
  · rintro ⟨index,hnames,hname,hparent⟩
    have hle := hnames.index_le
    have hcount := hnames.count_le
    have hpos := hnames.index_pos
    have hnumbers : ¬ (self.count = 0 ∨ index = 0 ∨ self.count < index) := by omega
    rw [hname]
    dsimp only
    rw [split_fileName hnames.prefixed]
    simp only [parseNumber, Text.value_padded, if_pos hcount, if_pos (hle.trans hcount), hparent,
      Text.length_padded, max_eq_left hnames.indexWidth, max_eq_left hnames.countWidth]
    change (if _ then _ else _ : Except Failure _) = _
    rw [if_neg hnumbers]
    simp only [String.ofList_toList]
    rfl

lemma plain_fileName (hslash : '/' ∉ self.namePrefix.toList) (n : ℕ) :
    UnixPath.Plain (self.fileName n) := by
  refine ⟨?_,?_⟩
  · have hlength : 2 < (self.fileName n).length := by
      simp only [fileName, List.length_append, List.length_cons, List.length_nil]
      omega
    rw [UnixPath.component, if_neg, if_neg]
    · intro h
      simp [h] at hlength
    · rintro (h | h) <;> simp [h] at hlength
  · have hindex := (@Text.digits_padded self.indexWidth n).notMem (c := '/') rfl
    have hcount := (@Text.digits_padded self.countWidth self.count).notMem (c := '/') rfl
    simp [fileName, hslash, hindex, hcount]

/-- The path of another shard parses to the same set, but for the width of its own number. -/
theorem parse_pathFor {path : String} (h : parseShardFilename path = .ok (some self))
    (hpos : 0 < shardNumber) (hle : shardNumber ≤ self.count) :
    parseShardFilename (self.pathFor shardNumber) = .ok (some { self with
      indexWidth := max self.indexWidth (Nat.toDigits 10 shardNumber).length }) := by
  obtain ⟨index,hnames,hname,hparent⟩ := parseShardFilename_eq_some.mp h
  obtain ⟨hplain,ps,hps,hdirectory⟩ := UnixPath.of_fileName hname
  rw [hdirectory, Option.getD_some] at hparent
  have hslash : '/' ∉ self.namePrefix.toList := by
    intro hmem
    exact hplain.slash (by simp [fileName, hmem])
  have hplain' := plain_fileName hslash shardNumber
  have hsame : fileName { self with
      indexWidth := max self.indexWidth (Nat.toDigits 10 shardNumber).length } shardNumber =
        self.fileName shardNumber := by
    simp only [fileName, Text.padded_max]
  refine parseShardFilename_eq_some.mpr ⟨shardNumber,⟨hnames.prefixed,hnames.count_le,hpos,hle,
    le_max_right _ _,hnames.countWidth⟩,?_,?_⟩
  · rw [toList_pathFor, ← hparent, UnixPath.fileName_join hps hplain', hsame]
  · rw [toList_pathFor, ← hparent, UnixPath.parent_join hps hplain']
    rfl

lemma joinPath_inj {parent a b : String} (h : joinPath parent a = joinPath parent b) : a = b := by
  unfold joinPath at h
  split_ifs at h
  · exact h
  · exact String.append_right_inj _ |>.mp h
  · exact String.append_right_inj _ |>.mp h

/-- The paths of a set say how wide its numbers are. -/
lemma indexWidth_of_shardPaths {width : ℕ} (hpos : 0 < self.count) (hwidth : 0 < self.indexWidth)
    (hle : self.indexWidth ≤ width)
    (h : shardPaths { self with indexWidth := width } = self.shardPaths) :
    width = self.indexWidth := by
  have hhead : (shardPaths { self with indexWidth := width })[0]? = self.shardPaths[0]? := by rw [h]
  have hfirst : (List.range' 1 self.count)[0]? = some 1 := by simp [hpos]
  simp only [shardPaths, List.getElem?_map, hfirst, Option.map_some, Option.some.injEq] at hhead
  have hlength := congrArg (List.length ∘ String.toList) (joinPath_inj hhead)
  simp only [Function.comp_apply, String.toList_append, List.length_append, toList_zeroPadded,
    Text.length_padded] at hlength
  have hone : (Nat.toDigits 10 1).length = 1 := rfl
  omega

end GgufShardSpec

end MicroExpertRouter.Gguf
