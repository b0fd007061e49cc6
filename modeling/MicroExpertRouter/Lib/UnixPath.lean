import Mathlib.Data.List.DropRight
import Mathlib.Tactic

/-! Paths of a Unix file system as lists of characters: the components of a path, its file name,
its parent and the path of a name in a directory. -/
namespace MicroExpertRouter.UnixPath

inductive Component
  | rootDir
  | curDir
  | parentDir
  | normal (name : List Char)
  deriving DecidableEq, Repr

/-- What stands between the separators. -/
def pieces (path : List Char) : List (List Char) := path.splitOn '/'

/-- The component of a piece behind the first one. -/
def component (piece : List Char) : Option Component :=
  if piece = [] ∨ piece = ['.'] then none
  else if piece = ['.','.'] then some .parentDir
  else some (.normal piece)

/-- The component of the first piece. -/
def leading (piece : List Char) : Component :=
  if piece = [] then .rootDir
  else if piece = ['.'] then .curDir
  else if piece = ['.','.'] then .parentDir
  else .normal piece

def componentsOf : List (List Char) → List Component
  | [] => []
  | first::rest => if first = [] ∧ rest = [] then [] else leading first::rest.filterMap component

def components (path : List Char) : List Component := componentsOf (pieces path)

def IsAbsolute (path : List Char) : Prop := ['/'] <+: path

instance (path : List Char) : Decidable (IsAbsolute path) :=
  inferInstanceAs (Decidable (['/'] <+: path))

/-- The name of the last component, unless it is a special one. -/
def fileName (path : List Char) : Option (List Char) :=
  (components path).getLast?.bind fun
    | .normal name => some name
    | _ => none

/-- Pieces without the silent ones at their end. -/
def trim : List (List Char) → List (List Char)
  | [] => []
  | first::rest => first::rest.rdropWhile fun piece => (component piece).isNone

/-- The path of these pieces. -/
def render (ps : List (List Char)) : List Char := if ps = [[]] then ['/'] else ['/'].intercalate ps

def parent (path : List Char) : Option (List Char) :=
  let ps := trim (pieces path)
  if ps = [[]] then none else some (render (trim ps.dropLast))

/-- The path of a name in a directory. -/
def join (directory name : List Char) : List Char :=
  if directory = [] then name
  else if ['/'] <:+ directory then directory++name
  else directory ++ '/'::name

/-- A name of a directory entry. -/
structure Plain (name : List Char) : Prop where
  component : component name = some (.normal name)
  slash : '/' ∉ name

/-- The pieces of a directory: trimmed and without separators. -/
structure Directory (ps : List (List Char)) : Prop where
  trimmed : trim ps = ps
  slash : ∀ piece ∈ ps, '/' ∉ piece

variable {ps : List (List Char)} {name piece path : List Char}

@[simp] lemma pieces_ne_nil : pieces path ≠ [] := List.splitOn_ne_nil _ _

@[simp] lemma trim_trim : trim (trim ps) = trim ps := by
  cases ps with
  | nil => rfl
  | cons first rest => simp [trim, List.rdropWhile_idempotent]

lemma mem_of_mem_trim (h : piece ∈ trim ps) : piece ∈ ps := by
  cases ps with
  | nil => exact h
  | cons first rest =>
    rcases List.mem_cons.mp h with rfl | h
    · exact List.mem_cons_self
    · exact List.mem_cons_of_mem _ ((List.rdropWhile_prefix _ _).subset h)

lemma slash_notMem_pieces : ∀ {path : List Char}, ∀ piece ∈ pieces path, '/' ∉ piece := by
  intro path
  induction path with
  | nil => simp [pieces]
  | cons c path ih =>
    intro piece h
    unfold pieces at h ih
    rw [List.splitOn_cons_eq_if_modifyHead] at h
    split_ifs at h with hc
    · rcases List.mem_cons.mp h with rfl | h
      · simp
      · exact ih piece h
    · obtain ⟨first,rest,hsplit⟩ := List.exists_cons_of_ne_nil (List.splitOn_ne_nil '/' path)
      rw [hsplit] at h ih
      rcases List.mem_cons.mp h with rfl | h
      · simp only [List.mem_cons, not_or]
        exact ⟨fun heq => hc (by simp [← heq]),ih first List.mem_cons_self⟩
      · exact ih piece (List.mem_cons_of_mem _ h)

lemma pieces_cons_slash (a b : List Char) : pieces (a ++ '/'::b) = pieces a++pieces b :=
  List.splitOn_append_cons_self a b

lemma pieces_of_notMem (h : '/' ∉ path) : pieces path = [path] := List.splitOn_eq_singleton h

lemma Plain.ne_nil (h : Plain name) : name ≠ [] := by
  rintro rfl
  cases h.component

lemma Plain.leading (h : Plain name) : leading name = .normal name := by
  have hcomponent := h.component
  unfold UnixPath.component at hcomponent
  unfold UnixPath.leading
  split_ifs at * <;> simp_all

lemma component_eq_normal {other : List Char} (h : component piece = some (.normal other)) :
    other = piece := by
  unfold component at h
  split_ifs at h <;> simp_all

lemma leading_eq_normal {other : List Char} (h : leading piece = .normal other) :
    other = piece ∧ component piece = some (.normal piece) := by
  unfold leading at h
  unfold component
  split_ifs at * <;> simp_all

lemma componentsOf_concat (h : Plain name) (ps : List (List Char)) :
    (componentsOf (ps++[name])).getLast? = some (.normal name) := by
  cases ps with
  | nil => simp [componentsOf, h.ne_nil, h.leading]
  | cons first rest =>
    simp only [componentsOf, List.cons_append, List.append_eq_nil_iff, List.cons_ne_self,
      and_false, if_false, List.filterMap_append, List.filterMap_cons, List.filterMap_nil,
      h.component]
    rw [← List.cons_append, List.getLast?_concat]

/-- A trimmed list of pieces does not end in a separator. -/
lemma trim_concat_nil (h : ps ≠ []) : trim (ps++[[]]) ≠ ps++[[]] := by
  obtain ⟨first,rest,rfl⟩ := List.exists_cons_of_ne_nil h
  intro heq
  have hlength := congrArg List.length heq
  rw [List.cons_append, trim, List.rdropWhile_concat_pos _ _ _ rfl] at hlength
  have hle := (List.rdropWhile_prefix (fun piece => (component piece).isNone) rest).length_le
  simp only [List.length_cons, List.length_append, List.length_nil] at hlength
  omega

/-- The pieces of the path of a name in a directory. -/
lemma pieces_join (hps : Directory ps) (hname : Plain name) :
    pieces (join (render ps) name) = ps++[name] := by
  by_cases hnil : ps = []
  · subst hnil
    exact pieces_of_notMem hname.slash
  · by_cases hroot : ps = [[]]
    · subst hroot
      have h := pieces_cons_slash [] name
      rw [pieces_of_notMem hname.slash] at h
      exact h
    · have hpieces : pieces (['/'].intercalate ps) = ps := List.splitOn_intercalate '/' hps.slash hnil
      rw [render, if_neg hroot]
      generalize ['/'].intercalate ps = directory at hpieces
      have hne : directory ≠ [] := by
        rintro rfl
        exact hroot (by rw [← hpieces]; rfl)
      have hend : ¬ ['/'] <:+ directory := by
        rintro ⟨front,rfl⟩
        rw [pieces_cons_slash] at hpieces
        refine trim_concat_nil (@pieces_ne_nil front) ?_
        have htrimmed := hps.trimmed
        rw [← hpieces] at htrimmed
        exact htrimmed
      rw [join, if_neg hne, if_neg hend, pieces_cons_slash, hpieces, pieces_of_notMem hname.slash]

lemma trim_concat (h : Plain name) (ps : List (List Char)) : trim (ps++[name]) = ps++[name] := by
  cases ps with
  | nil => rfl
  | cons first rest =>
    rw [List.cons_append, trim, List.rdropWhile_concat_neg]
    simp [h.component]

/-- The name of a directory entry is the file name of its path. -/
@[simp] theorem fileName_join (hps : Directory ps) (hname : Plain name) :
    fileName (join (render ps) name) = some name := by
  rw [fileName, components, pieces_join hps hname, componentsOf_concat hname]
  rfl

/-- The directory is the parent of the path. -/
@[simp] theorem parent_join (hps : Directory ps) (hname : Plain name) :
    parent (join (render ps) name) = some (render ps) := by
  unfold parent
  dsimp only
  rw [pieces_join hps hname, trim_concat hname, List.dropLast_concat, hps.trimmed, if_neg]
  intro heq
  have hlast := congrArg List.getLast? heq
  rw [List.getLast?_concat] at hlast
  exact hname.ne_nil (Option.some.inj hlast)

lemma filterMap_rdropWhile (ps : List (List Char)) :
    (ps.rdropWhile fun piece => (component piece).isNone).filterMap component =
      ps.filterMap component := by
  induction ps using List.reverseRecOn with
  | nil => rfl
  | append_singleton ps piece ih =>
    rw [List.rdropWhile_concat]
    split_ifs with h
    · rw [ih, List.filterMap_append, List.filterMap_cons, Option.isNone_iff_eq_none.mp h]
      simp
    · rfl

lemma componentsOf_trim (h : trim ps ≠ [[]]) : componentsOf (trim ps) = componentsOf ps := by
  cases ps with
  | nil => rfl
  | cons first rest =>
    have hone : ¬ (first = [] ∧ rest.rdropWhile (fun piece => (component piece).isNone) = []) := by
      rintro ⟨rfl,hrest⟩
      exact h (by rw [trim, hrest])
    have hall : ¬ (first = [] ∧ rest = []) := by
      rintro ⟨rfl,rfl⟩
      exact h rfl
    rw [trim, componentsOf, componentsOf, if_neg hone, if_neg hall, filterMap_rdropWhile]

/-- A path with a file name has a directory as its parent. -/
theorem of_fileName (h : fileName path = some name) :
    Plain name ∧ ∃ ps, Directory ps ∧ parent path = some (render ps) := by
  obtain ⟨last,hlast,hname⟩ := Option.bind_eq_some_iff.mp h
  have hlast' : last = .normal name := by
    cases last <;> simp_all
  subst hlast'
  unfold components at hlast
  have hroot : trim (pieces path) ≠ [[]] := by
    intro heq
    obtain ⟨first,rest,hsplit⟩ := List.exists_cons_of_ne_nil (@pieces_ne_nil path)
    rw [hsplit, trim, List.cons.injEq, List.rdropWhile_eq_nil_iff] at heq
    have hrest : rest.filterMap component = [] :=
      List.filterMap_eq_nil_iff.mpr fun piece hmem => Option.isNone_iff_eq_none.mp (heq.2 piece hmem)
    rw [hsplit, componentsOf, heq.1, hrest] at hlast
    split_ifs at hlast
    · cases hlast
    · simp [leading] at hlast
  rw [← componentsOf_trim hroot] at hlast
  have hdirectory : ∀ piece ∈ trim (pieces path), '/' ∉ piece :=
    fun piece hmem => slash_notMem_pieces piece (mem_of_mem_trim hmem)
  have hparent : parent path = some (render (trim (trim (pieces path)).dropLast)) := by
    unfold parent
    rw [if_neg hroot]
  refine ⟨?_,_,⟨trim_trim,fun piece hmem => ?_⟩,hparent⟩
  · obtain ⟨first,rest,hsplit⟩ := List.exists_cons_of_ne_nil (@pieces_ne_nil path)
    rw [hsplit] at hlast hdirectory
    rcases List.eq_nil_or_concat (rest.rdropWhile fun piece => (component piece).isNone)
      with hnil | ⟨front,piece,hconcat⟩
    · rw [trim, hnil, componentsOf] at hlast
      split_ifs at hlast
      · cases hlast
      · obtain ⟨rfl,hcomponent⟩ := leading_eq_normal (Option.some.inj hlast)
        exact ⟨hcomponent,hdirectory _ List.mem_cons_self⟩
    · have hloud : ¬ (component piece).isNone := by
        have hne : rest.rdropWhile (fun piece => (component piece).isNone) ≠ [] := by simp [hconcat]
        have hnot := List.rdropWhile_last_not _ _ hne
        simpa only [hconcat, List.concat_eq_append, List.getLast_append_singleton] using hnot
      have hsome : component piece ≠ none := fun heq => hloud (by rw [heq]; rfl)
      obtain ⟨c,hc⟩ := Option.ne_none_iff_exists'.mp hsome
      rw [trim, hconcat, componentsOf] at hlast
      simp only [List.concat_eq_append, List.append_eq_nil_iff, List.cons_ne_self, and_false,
        if_false, List.filterMap_append, List.filterMap_cons, List.filterMap_nil, hc] at hlast
      rw [← List.cons_append, List.getLast?_concat] at hlast
      obtain rfl := Option.some.inj hlast
      obtain rfl := component_eq_normal hc
      refine ⟨hc,hdirectory _ ?_⟩
      rw [trim, hconcat]
      simp
  · exact hdirectory piece ((List.dropLast_sublist _).subset (mem_of_mem_trim hmem))

lemma pieces_injective : Function.Injective pieces := by
  intro a b h
  rw [← @List.intercalate_splitOn _ a _ _ '/', ← @List.intercalate_splitOn _ b _ _ '/']
  exact congrArg _ h

/-- A path of more pieces ends in its last one. -/
lemma suffix_of_pieces {last : List Char} (hps : ps ≠ []) (h : pieces path = ps++[last]) :
    '/'::last <:+ path := by
  have hslash : ∀ piece ∈ ps, '/' ∉ piece := by
    intro piece hmem
    exact slash_notMem_pieces piece (h ▸ List.mem_append_left _ hmem)
  have hlast : '/' ∉ last := slash_notMem_pieces last (h ▸ List.mem_append_right _ (by simp))
  refine ⟨['/'].intercalate ps,pieces_injective ?_⟩
  rw [pieces_cons_slash, pieces_of_notMem hlast, h]
  exact congrArg (·++[last]) (List.splitOn_intercalate '/' hslash hps)

/-- A path of one component is its name, when it does not end in a silent piece. -/
theorem eq_of_components (h : components path = [.normal name]) (hslash : ¬ ['/'] <:+ path)
    (hdot : ¬ ['/','.'] <:+ path) : path = name ∧ Plain name := by
  obtain ⟨first,rest,hsplit⟩ := List.exists_cons_of_ne_nil (@pieces_ne_nil path)
  rw [components, hsplit, componentsOf] at h
  split_ifs at h
  · obtain ⟨hfirst,hrest⟩ := List.cons.inj h
    obtain ⟨rfl,hcomponent⟩ := leading_eq_normal hfirst
    have hnil : rest = [] := by
      rcases List.eq_nil_or_concat rest with rfl | ⟨front,last,rfl⟩
      · rfl
      · rw [List.concat_eq_append] at hsplit hrest
        have hsuffix := suffix_of_pieces (List.cons_ne_nil name front) hsplit
        have hsilent := List.filterMap_eq_nil_iff.mp hrest last (by simp)
        unfold component at hsilent
        split_ifs at hsilent with hempty
        rcases hempty with rfl | rfl
        · exact absurd hsuffix hslash
        · exact absurd hsuffix hdot
    subst hnil
    have hmem : '/' ∉ name := slash_notMem_pieces name (hsplit ▸ List.mem_cons_self)
    exact ⟨pieces_injective (hsplit.trans (pieces_of_notMem hmem).symm),hcomponent,hmem⟩

end MicroExpertRouter.UnixPath
