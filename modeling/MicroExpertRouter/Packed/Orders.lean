import MicroExpertRouter.Lib.KeyMap
import MicroExpertRouter.Lib.Machine
import MicroExpertRouter.Lib.Text
import Mathlib.Data.List.Sort
import Mathlib.Data.List.DropRight

/-! The order in which `repack` of `main.rs` packs experts: the ids of an order file, the experts of
a profile from the hottest, or all of them by their numbers. -/
namespace MicroExpertRouter.Packed
open Text (Digits digit value)

section OrderFiles

/-- `char::is_whitespace`. -/
def isWhitespace (c : Char) : Bool :=
  decide (9 ≤ c.toNat ∧ c.toNat ≤ 13) || decide (c.toNat = 32) || decide (c.toNat = 0x85) ||
    decide (c.toNat = 0xA0) || decide (c.toNat = 0x1680) ||
    decide (0x2000 ≤ c.toNat ∧ c.toNat ≤ 0x200A) || decide (c.toNat = 0x2028) ||
    decide (c.toNat = 0x2029) || decide (c.toNat = 0x202F) || decide (c.toNat = 0x205F) ||
    decide (c.toNat = 0x3000)

/-- `str::trim_start`. -/
def trimStart (text : List Char) : List Char := text.dropWhile isWhitespace

/-- `str::trim`. -/
def trim (text : List Char) : List Char := (trimStart text).rdropWhile isWhitespace

/-- The errors of `parse::<u32>`. -/
inductive IntErrorKind
  | empty
  | invalidDigit
  | posOverflow
  deriving DecidableEq, Repr

def IntErrorKind.message : IntErrorKind → String
  | .empty => "cannot parse integer from empty string"
  | .invalidDigit => "invalid digit found in string"
  | .posOverflow => "number too large to fit in target type"

/-- One more digit of a `u32`. -/
def addDigit (result : ℕ) (c : Char) : Except IntErrorKind ℕ :=
  if c.isDigit then
    if result*10+digit c ≤ u32Max then .ok (result*10+digit c) else .error .posOverflow
  else .error .invalidDigit

/-- `parse::<u32>`, which takes a plus sign. -/
def parseU32 : List Char → Except IntErrorKind ℕ
  | [] => .error .empty
  | c::digits =>
    if c = '+' then
      if digits = [] then .error .invalidDigit else digits.foldlM addDigit 0
    else (c::digits).foldlM addDigit 0

/-- A line without the end of a line of two characters. -/
def stripReturn (line : List Char) : List Char := (Text.stripSuffix ['\r'] line).getD line

/-- The lines of a text after the part of a line. -/
def linesFrom (cur : List Char) : List Char → List (List Char)
  | [] => if cur = [] then [] else [cur]
  | c::text =>
    if c = '\n' then stripReturn cur::linesFrom [] text else linesFrom (cur++[c]) text

/-- `str::lines`. -/
def lines (text : List Char) : List (List Char) := linesFrom [] text

/-- What stands between two tokens. -/
def separates (c : Char) : Bool := isWhitespace c || decide (c = ',')

/-- The tokens of a text. -/
def tokens (text : List Char) : List (List Char) :=
  ((text.splitOnP separates).map trim).filter fun t => decide (t ≠ [])

/-- The ids of a line up to a comment. -/
def parseLine (line : List Char) : Except IntErrorKind (List ℕ) :=
  let withoutComment := line.takeWhile fun c => decide (c ≠ '#')
  (tokens withoutComment).mapM parseU32

/-- Lines one after another; the first token that is no number is the error. -/
def parseLines : List (List Char) → Except IntErrorKind (List ℕ)
  | [] => .ok []
  | line::rest => do
    let ids ← parseLine line
    let more ← parseLines rest
    return ids++more

/-- `parse_order_file`, where `fromStr` is `serde_json::from_str`. -/
def parseOrderFile (fromStr : List Char → Except String (List ℕ)) (raw : List Char) :
    Except String (List ℕ) :=
  let trimmed := trimStart raw
  if trimmed.head? = some '[' then fromStr trimmed
  else (parseLines (lines raw)).mapError IntErrorKind.message

/-- A number that fits, maybe with a plus sign. -/
def Numeral (text : List Char) (id : ℕ) : Prop :=
  ∃ plus digits, text = plus++digits ∧ (plus = [] ∨ plus = ['+']) ∧ digits ≠ [] ∧ Digits digits ∧
    value digits = id ∧ id ≤ u32Max

/-- Texts of ids: numbers, what separates them, and comments up to the ends of their lines. -/
inductive Listed : List Char → List ℕ → Prop
  | nil : Listed [] []
  | gap {c : Char} {text : List Char} {ids : List ℕ} (hc : separates c = true)
      (h : Listed text ids) : Listed (c::text) ids
  | comment {note text : List Char} {ids : List ℕ} (hnote : '\n' ∉ note)
      (hend : ∀ c ∈ text.head?, c = '\n') (h : Listed text ids) : Listed ('#'::(note++text)) ids
  | number {token text : List Char} {id : ℕ} {ids : List ℕ} (htoken : Numeral token id)
      (hend : ∀ c ∈ text.head?, separates c = true ∨ c = '#') (h : Listed text ids) :
      Listed (token++text) (id::ids)

section Numbers
variable {digits token : List Char} {id : ℕ}

/-- By induction on the digits from the last: the number read so far fits as well. -/
lemma foldlM_addDigit : digits.foldlM addDigit 0 = .ok id ↔
    Digits digits ∧ value digits = id ∧ id ≤ u32Max := by
  induction digits using List.reverseRecOn generalizing id with
  | nil =>
    constructor
    · intro h
      obtain rfl := Except.ok.inj h
      exact ⟨fun c hc => absurd hc List.not_mem_nil,rfl,Nat.zero_le _⟩
    · rintro ⟨-,rfl,-⟩
      rfl
  | append_singleton digits c ih =>
    rw [List.foldlM_append]
    constructor
    · intro h
      obtain ⟨front,hfront,hlast⟩ := bind_eq_ok.mp h
      obtain ⟨hdigits,rfl,-⟩ := ih.mp hfront
      obtain ⟨result,hresult,hnil⟩ := bind_eq_ok.mp hlast
      obtain rfl := Except.ok.inj hnil
      unfold addDigit at hresult
      split_ifs at hresult with hdigit hmax
      obtain rfl := Except.ok.inj hresult
      refine ⟨fun d hd => ?_,?_,hmax⟩
      · obtain hd | hd := List.mem_append.mp hd
        · exact hdigits d hd
        · rw [List.mem_singleton.mp hd, hdigit]
      · rw [Text.value_concat]
        omega
    · rintro ⟨hdigits,hvalue,hmax⟩
      rw [Text.value_concat] at hvalue
      have hc : c.isDigit = true := hdigits c (by simp)
      have hfront := ih.mpr ⟨fun d hd => hdigits d (List.mem_append_left _ hd),rfl,by omega⟩
      refine bind_eq_ok.mpr ⟨_,hfront,bind_eq_ok.mpr ⟨id,?_,rfl⟩⟩
      rw [addDigit, if_pos hc, if_pos (by omega)]
      exact congrArg _ (by omega)

lemma parseU32_eq_ok : parseU32 token = .ok id ↔ Numeral token id := by
  constructor
  · intro h
    cases token with
    | nil => cases h
    | cons c digits =>
      rw [parseU32] at h
      split_ifs at h with hplus hnil
      · obtain ⟨hdigits,hvalue,hmax⟩ := foldlM_addDigit.mp h
        exact ⟨['+'],digits,hplus ▸ rfl,.inr rfl,hnil,hdigits,hvalue,hmax⟩
      · obtain ⟨hdigits,hvalue,hmax⟩ := foldlM_addDigit.mp h
        exact ⟨[],c::digits,rfl,.inl rfl,List.cons_ne_nil _ _,hdigits,hvalue,hmax⟩
  · rintro ⟨plus,digits,rfl,rfl | rfl,hne,hdigits,hvalue,hmax⟩
    · cases digits with
      | nil => exact absurd rfl hne
      | cons c digits =>
        have hc : c ≠ '+' := by
          rintro rfl
          exact absurd (hdigits '+' (by simp)) (by decide)
        rw [List.nil_append, parseU32, if_neg hc]
        exact foldlM_addDigit.mpr ⟨hdigits,hvalue,hmax⟩
    · rw [List.singleton_append, parseU32, if_pos rfl, if_neg hne]
      exact foldlM_addDigit.mpr ⟨hdigits,hvalue,hmax⟩

lemma Numeral.ne_nil (h : Numeral token id) : token ≠ [] := by
  obtain ⟨plus,digits,rfl,-,hne,-⟩ := h
  simp [hne]

/-- A numeral is one token. -/
lemma Numeral.joined (h : Numeral token id) : ∀ c ∈ token, separates c = false ∧ c ≠ '#' := by
  obtain ⟨plus,digits,rfl,hplus,-,hdigits,-,-⟩ := h
  intro c hc
  obtain hc | hc := List.mem_append.mp hc
  · obtain rfl | rfl := hplus
    · cases hc
    · rw [List.mem_singleton.mp hc]
      decide
  · obtain ⟨hlow,hhigh⟩ := Char.isDigit_iff_toNat.mp (hdigits c hc)
    have hzero : '0'.toNat = 48 := rfl
    have hnine : '9'.toNat = 57 := rfl
    have hcomma : c ≠ ',' := by
      rintro rfl
      revert hlow
      decide
    refine ⟨?_,?_⟩
    · simp only [separates, isWhitespace, Bool.or_eq_false_iff, decide_eq_false_iff_not, hcomma,
        not_false_eq_true, and_true]
      omega
    · rintro rfl
      revert hlow
      decide

end Numbers

section Tokens
variable {token text : List Char} {c : Char}

lemma separates_newline : separates '\n' = true := by decide

lemma tokens_nil : tokens [] = [] := by simp [tokens, trim, trimStart]

lemma tokens_gap (hc : separates c = true) : tokens (c::text) = tokens text := by
  rw [tokens, List.splitOnP_cons_eq_if_splitOnPPrepend, if_pos hc]
  simp [tokens, trim, trimStart]

lemma tokens_gap_end (hc : separates c = true) : tokens (text++[c]) = tokens text := by
  rw [tokens, List.splitOnP_append_cons text [] hc]
  simp [tokens, trim, trimStart]

lemma trim_token (h : ∀ c ∈ token, separates c = false) : trim token = token := by
  have hwhite : ∀ c ∈ token, isWhitespace c = false := fun c hc => (Bool.or_eq_false_iff.mp (h c hc)).1
  have hstart : trimStart token = token := by
    cases token with
    | nil => rfl
    | cons c token => exact List.dropWhile_cons_of_neg (by simp [hwhite c])
  rw [trim, hstart, List.rdropWhile_eq_self_iff]
  intro hne
  simp [hwhite _ (List.getLast_mem hne)]

lemma tokens_token (h : ∀ c ∈ token, separates c = false) (hne : token ≠ [])
    (hend : ∀ c ∈ text.head?, separates c = true) : tokens (token++text) = token::tokens text := by
  cases text with
  | nil =>
    rw [List.append_nil, tokens, List.splitOnP_eq_singleton h, tokens_nil, List.map_singleton,
      trim_token h]
    simp [hne]
  | cons c text =>
    have hc := hend c rfl
    rw [tokens_gap hc, tokens, List.splitOnP_append_cons_of_forall_mem h c hc]
    simp [trim_token h, hne, tokens]

end Tokens

section Lines
variable {token line text tail note : List Char} {c : Char} {id : ℕ} {ids : List ℕ}

lemma parseLine_nil : parseLine [] = .ok [] := by
  rw [parseLine, List.takeWhile_nil, tokens_nil]
  rfl

lemma parseLine_comment : parseLine ('#'::note) = .ok [] := by
  rw [parseLine, List.takeWhile_cons_of_neg (by simp), tokens_nil]
  rfl

lemma parseLine_gap (hc : separates c = true) : parseLine (c::line) = parseLine line := by
  have hne : c ≠ '#' := by
    rintro rfl
    revert hc
    decide
  rw [parseLine, List.takeWhile_cons_of_pos (by simpa using hne), tokens_gap hc, parseLine]

lemma parseLine_token (h : ∀ c ∈ token, separates c = false ∧ c ≠ '#') (hne : token ≠ [])
    (hend : ∀ c ∈ line.head?, separates c = true ∨ c = '#') :
    parseLine (token++line) = do
      let id ← parseU32 token
      let ids ← parseLine line
      return id::ids := by
  have hbody : (token++line).takeWhile (fun c => decide (c ≠ '#')) =
      token++line.takeWhile fun c => decide (c ≠ '#') :=
    List.takeWhile_append_of_pos fun c hc => decide_eq_true (h c hc).2
  rw [parseLine, hbody, tokens_token (fun c hc => (h c hc).1) hne, List.mapM_cons, parseLine]
  cases line with
  | nil => simp
  | cons c line =>
    intro d hd
    by_cases hc : c = '#'
    · simp [hc] at hd
    · simp only [List.takeWhile_cons, hc, ne_eq, not_false_eq_true, decide_true, if_true,
        List.head?_cons, Option.mem_def, Option.some.injEq] at hd
      exact (hend d (by simp [hd])).resolve_right (hd ▸ hc)

lemma parseLine_stripReturn : parseLine (stripReturn line) = parseLine line := by
  unfold stripReturn
  cases hstrip : Text.stripSuffix ['\r'] line with
  | none => rfl
  | some front =>
    rw [Text.stripSuffix_eq_some.mp hstrip, Option.getD_some, parseLine, parseLine]
    by_cases hnote : ∀ c ∈ front, decide (c ≠ '#') = true
    · rw [List.takeWhile_append_of_pos hnote, List.takeWhile_cons_of_pos (by decide),
        List.takeWhile_nil, tokens_gap_end (by decide), List.takeWhile_eq_self_iff.mpr hnote]
    · rw [List.takeWhile_append, if_neg fun hlen => hnote ?_]
      rw [← List.takeWhile_eq_self_iff]
      exact (List.takeWhile_prefix _).eq_of_length hlen

lemma linesFrom_append (h : '\n' ∉ line) (cur : List Char) :
    linesFrom cur (line++tail) = linesFrom (cur++line) tail := by
  induction line generalizing cur with
  | nil => simp
  | cons c line ih =>
    obtain ⟨hc,hline⟩ := not_or.mp (List.mem_cons.not.mp h)
    rw [List.cons_append, linesFrom, if_neg (Ne.symm hc), ih hline, List.append_assoc]
    rfl

/-- What the lines of a text say. -/
def readLines (text : List Char) : Except IntErrorKind (List ℕ) := parseLines (lines text)

lemma readLines_nil : readLines [] = .ok [] := rfl

lemma readLines_newline : readLines ('\n'::text) = readLines text := by
  rw [readLines, lines, linesFrom, if_pos rfl, parseLines, parseLine_stripReturn, parseLine_nil]
  change (do let more ← readLines text; return []++more) = _
  simp

/-- The first line and the others. -/
lemma readLines_append (h : '\n' ∉ line) (hend : ∀ c ∈ tail.head?, c = '\n') :
    readLines (line++tail) = do
      let ids ← parseLine line
      let more ← readLines tail
      return ids++more := by
  rw [readLines, lines, linesFrom_append h, List.nil_append]
  cases tail with
  | nil =>
    rw [linesFrom, readLines_nil]
    split_ifs with hline
    · rw [hline, parseLine_nil]
      rfl
    · rfl
  | cons c tail =>
    obtain rfl := hend c rfl
    rw [linesFrom, if_pos rfl, parseLines, parseLine_stripReturn, readLines_newline]
    rfl

end Lines

section Texts
variable {token text note : List Char} {c : Char}

/-- A text is its first line and the others. -/
lemma exists_line (text : List Char) :
    ∃ line tail, text = line++tail ∧ '\n' ∉ line ∧ ∀ c ∈ tail.head?, c = '\n' := by
  induction text with
  | nil => exact ⟨[],[],rfl,List.not_mem_nil,fun c hc => by cases hc⟩
  | cons d text ih =>
    by_cases hd : d = '\n'
    · exact ⟨[],d::text,rfl,List.not_mem_nil,fun c hc => by rw [← Option.some.inj hc, hd]⟩
    · obtain ⟨line,tail,rfl,hline,hend⟩ := ih
      exact ⟨d::line,tail,rfl,List.not_mem_cons_of_ne_of_not_mem (Ne.symm hd) hline,hend⟩

lemma exists_token (text : List Char) : ∃ token rest, text = token++rest ∧
    (∀ c ∈ token, separates c = false ∧ c ≠ '#') ∧ ∀ c ∈ rest.head?, separates c = true ∨ c = '#' := by
  induction text with
  | nil =>
    exact ⟨[],[],rfl,fun c hc => absurd hc List.not_mem_nil,fun c hc => by cases hc⟩
  | cons d text ih =>
    by_cases hd : separates d = false ∧ d ≠ '#'
    · obtain ⟨token,rest,rfl,htoken,hend⟩ := ih
      exact ⟨d::token,rest,rfl,List.forall_mem_cons.mpr ⟨hd,htoken⟩,hend⟩
    · refine ⟨[],d::text,rfl,fun c hc => absurd hc List.not_mem_nil,fun c hc => ?_⟩
      obtain rfl := Option.some.inj hc
      by_contra hno
      obtain ⟨hgap,hnote⟩ := not_or.mp hno
      exact hd ⟨Bool.not_eq_true _ ▸ hgap,hnote⟩

lemma readLines_gap (hc : separates c = true) : readLines (c::text) = readLines text := by
  by_cases hnewline : c = '\n'
  · rw [hnewline, readLines_newline]
  · obtain ⟨line,tail,rfl,hline,hend⟩ := exists_line text
    rw [← List.cons_append, readLines_append (List.not_mem_cons_of_ne_of_not_mem (Ne.symm hnewline)
      hline) hend, parseLine_gap hc, readLines_append hline hend]

lemma readLines_comment (hnote : '\n' ∉ note) (hend : ∀ c ∈ text.head?, c = '\n') :
    readLines ('#'::(note++text)) = readLines text := by
  rw [← List.cons_append, readLines_append (List.not_mem_cons_of_ne_of_not_mem (by decide) hnote) hend,
    parseLine_comment]
  change (do let more ← readLines text; return []++more) = _
  simp

lemma readLines_token (h : ∀ c ∈ token, separates c = false ∧ c ≠ '#') (hne : token ≠ [])
    (hend : ∀ c ∈ text.head?, separates c = true ∨ c = '#') :
    readLines (token++text) = do
      let id ← parseU32 token
      let ids ← readLines text
      return id::ids := by
  obtain ⟨line,tail,rfl,hline,htail⟩ := exists_line text
  have hnewline : '\n' ∉ token++line := by
    rw [List.mem_append, not_or]
    refine ⟨fun hmem => ?_,hline⟩
    exact absurd ((h _ hmem).1.symm.trans separates_newline) (by decide)
  rw [← List.append_assoc, readLines_append hnewline htail, readLines_append hline htail,
    parseLine_token h hne]
  · simp
  · intro c hc
    refine hend c ?_
    cases line with
    | nil => cases hc
    | cons d line => exact hc

end Texts

/-- What is read is a list of numbers: by induction on the length of the text, whose first character
separates, begins a comment or begins a token. -/
lemma listed_of_readLines : ∀ (n : ℕ) (raw : List Char) (ids : List ℕ), raw.length ≤ n →
    readLines raw = .ok ids → Listed raw ids := by
  intro n
  induction n with
  | zero =>
    intro raw ids hlength h
    obtain rfl := List.length_eq_zero_iff.mp (Nat.le_zero.mp hlength)
    obtain rfl := Except.ok.inj h
    exact .nil
  | succ n ih =>
    intro raw ids hlength h
    cases raw with
    | nil =>
      obtain rfl := Except.ok.inj h
      exact .nil
    | cons c raw =>
      rw [List.length_cons, Nat.succ_le_succ_iff] at hlength
      by_cases hc : separates c = true
      · rw [readLines_gap hc] at h
        exact .gap hc (ih raw ids hlength h)
      by_cases hnote : c = '#'
      · obtain ⟨note,text,rfl,hline,hend⟩ := exists_line raw
        rw [List.length_append] at hlength
        rw [hnote, readLines_comment hline hend] at h
        rw [hnote]
        exact .comment hline hend (ih text ids (by omega) h)
      · obtain ⟨token,text,hraw,htoken,hend⟩ := exists_token raw
        have hjoined : ∀ d ∈ c::token, separates d = false ∧ d ≠ '#' :=
          List.forall_mem_cons.mpr ⟨⟨Bool.not_eq_true _ ▸ hc,hnote⟩,htoken⟩
        rw [hraw, List.length_append] at hlength
        rw [hraw, ← List.cons_append, readLines_token hjoined (List.cons_ne_nil _ _) hend] at h
        obtain ⟨id,hid,h⟩ := bind_eq_ok.mp h
        obtain ⟨more,hmore,h⟩ := bind_eq_ok.mp h
        obtain rfl := Except.ok.inj h
        rw [hraw, ← List.cons_append]
        exact .number (parseU32_eq_ok.mp hid) hend (ih text more (by omega) hmore)

lemma readLines_of_listed {raw : List Char} {ids : List ℕ} (h : Listed raw ids) :
    readLines raw = .ok ids := by
  induction h with
  | nil => rfl
  | gap hc _ ih => rw [readLines_gap hc, ih]
  | comment hnote hend _ ih => rw [readLines_comment hnote hend, ih]
  | number htoken hend _ ih =>
    rw [readLines_token htoken.joined htoken.ne_nil hend, parseU32_eq_ok.mpr htoken, ih]
    rfl

/-- A list of numbers does not begin like an array. -/
lemma Listed.not_array {raw : List Char} {ids : List ℕ} (h : Listed raw ids) :
    (trimStart raw).head? ≠ some '[' := by
  induction h with
  | nil => simp [trimStart]
  | @gap c text ids hc _ ih =>
    by_cases hwhite : isWhitespace c = true
    · rwa [trimStart, List.dropWhile_cons_of_pos hwhite]
    · have hcomma : c = ',' := by simpa [separates, hwhite] using hc
      rw [hcomma]
      simp [trimStart, isWhitespace]
  | comment => simp [trimStart, isWhitespace]
  | @number token text id ids htoken _ _ _ =>
    cases token with
    | nil => exact absurd rfl htoken.ne_nil
    | cons c token =>
      have hwhite : isWhitespace c ≠ true := by
        have hjoined := (htoken.joined c (by simp)).1
        simp [(Bool.or_eq_false_iff.mp hjoined).1]
      rw [trimStart, List.cons_append, List.dropWhile_cons_of_neg hwhite, List.head?_cons]
      rintro heq
      obtain rfl := Option.some.inj heq
      obtain ⟨plus,digits,htext,hplus,hne,hdigits,-⟩ := htoken
      obtain rfl | rfl := hplus
      · have hmem : '[' ∈ digits := by
          rw [List.nil_append] at htext
          exact htext ▸ List.mem_cons_self
        exact absurd (hdigits '[' hmem) (by decide)
      · exact absurd (List.cons.inj htext).1 (by decide)

/-- An order file is an array that is read, or a list of numbers; nothing else is accepted, and the
ids are those of the list. -/
theorem order_file_reads (fromStr : List Char → Except String (List ℕ)) (raw : List Char)
    (ids : List ℕ) : parseOrderFile fromStr raw = .ok ids ↔
      ((trimStart raw).head? = some '[' ∧ fromStr (trimStart raw) = .ok ids) ∨ Listed raw ids := by
  unfold parseOrderFile
  dsimp only
  split_ifs with harray
  · refine ⟨fun h => .inl ⟨harray,h⟩,fun h => ?_⟩
    obtain ⟨-,h⟩ | h := h
    · exact h
    · exact absurd harray h.not_array
  · change (readLines raw).mapError _ = _ ↔ _
    constructor
    · intro h
      cases hread : readLines raw with
      | ok found =>
        rw [hread] at h
        obtain rfl := Except.ok.inj h
        exact .inr (listed_of_readLines raw.length raw found le_rfl hread)
      | error e =>
        rw [hread] at h
        cases h
    · rintro (⟨h,-⟩ | h)
      · exact absurd h harray
      · rw [readLines_of_listed h]
        rfl

example : parseOrderFile (fun _ => .error "") "# hot first\n12  # often\n3,+4\r\n8 9".toList =
    .ok [12,3,4,8,9] := by decide +kernel

end OrderFiles

section Orders

/-- The ids that have been seen, and those left. -/
def validateOrderFrom (numExperts : ℕ) (seen : List ℕ) : List ℕ → Except String Unit
  | [] => .ok ()
  | id::ids =>
    if numExperts ≤ id then
      .error s!"--order id {id} is out of range for --num-experts {numExperts}"
    else if id ∈ seen then .error s!"--order contains duplicate expert id {id}"
    else validateOrderFrom numExperts (id::seen) ids

def validateOrder (ids : List ℕ) (numExperts : ℕ) : Except String Unit :=
  validateOrderFrom numExperts [] ids

/-- The observations of the experts of a profile. -/
abbrev ResidencyProfile := KeyMap ℕ

/-- The order of `hot_set`: from the most observations, then by the ids. -/
def hotterOrSame (a b : ℕ × ℕ) : Prop := b.2<a.2 ∨ a.2 = b.2 ∧ a.1 ≤ b.1

instance : DecidableRel hotterOrSame := fun a b =>
  inferInstanceAs (Decidable (b.2<a.2 ∨ a.2 = b.2 ∧ a.1 ≤ b.1))

/-- `hot_set`, for the budget that a fraction of the experts gives. -/
def ResidencyProfile.hotSet (self : ResidencyProfile) (budget experts : ℕ) : List ℕ :=
  if experts = 0 ∨ self.entries = [] ∨ budget = 0 then []
  else
    let ranked := self.entries.filter fun entry => decide (entry.1<experts)
    ((ranked.insertionSort hotterOrSame).take budget).map Prod.fst

/-- The arguments of `repack` that say an order: the order file has a path and a text. -/
structure OrderArgs where
  numExperts : ℕ
  order : Option (String × List Char)
  profile : Option ResidencyProfile

/-- The order of `cmd_repack`. The fraction `1.0` of the experts is all of them. -/
def OrderArgs.resolve (self : OrderArgs) (fromStr : List Char → Except String (List ℕ)) :
    Except String (List ℕ) :=
  match self.order, self.profile with
  | some (orderPath,text), _ => do
    let ids ← parseOrderFile fromStr text
    if ids = [] then throw s!"--order file {orderPath} listed no ids"
    validateOrder ids self.numExperts
    return ids
  | none, some profile =>
    let ranked := profile.hotSet self.numExperts self.numExperts
    .ok (ranked++(List.range self.numExperts).filter fun id => decide (id ∉ ranked))
  | none, none => .ok (List.range self.numExperts)

section Ranked
variable {profile : ResidencyProfile} {experts : ℕ} {ids seen : List ℕ}

lemma validateOrderFrom_ok {numExperts : ℕ} : validateOrderFrom numExperts seen ids = .ok () ↔
    (∀ id ∈ ids, id<numExperts ∧ id ∉ seen) ∧ ids.Nodup := by
  induction ids generalizing seen with
  | nil => simp [validateOrderFrom]
  | cons id ids ih =>
    rw [validateOrderFrom]
    split_ifs with hrange hseen
    · simp [Nat.not_lt.mpr hrange]
    · simp [hseen]
    · rw [ih, List.forall_mem_cons, List.nodup_cons]
      constructor
      · rintro ⟨hall,hnodup⟩
        have hfresh : id ∉ ids := fun hmem => (hall id hmem).2 List.mem_cons_self
        exact ⟨⟨⟨Nat.not_le.mp hrange,hseen⟩,fun other hother =>
          ⟨(hall other hother).1,fun h => (hall other hother).2 (List.mem_cons_of_mem _ h)⟩⟩,hfresh,hnodup⟩
      · rintro ⟨⟨-,hall⟩,hfresh,hnodup⟩
        refine ⟨fun other hother => ⟨(hall other hother).1,fun hmem => ?_⟩,hnodup⟩
        obtain rfl | hmem := List.mem_cons.mp hmem
        · exact hfresh hother
        · exact (hall other hother).2 hmem

lemma validateOrder_ok {numExperts : ℕ} : validateOrder ids numExperts = .ok () ↔
    (∀ id ∈ ids, id<numExperts) ∧ ids.Nodup := by
  simp [validateOrder, validateOrderFrom_ok]

/-- The first of two experts is packed first: it was observed more often, or as often and has the
smaller id; those that were never observed come last. -/
def Hotter (profile : ResidencyProfile) (a b : ℕ) : Prop :=
  match profile.get a, profile.get b with
  | some x, some y => y<x ∨ x = y ∧ a<b
  | some _, none => True
  | none, some _ => False
  | none, none => a<b

instance : Std.Total hotterOrSame := ⟨fun a b => by unfold hotterOrSame; omega⟩

instance : IsTrans (ℕ × ℕ) hotterOrSame := ⟨fun a b c hab hbc => by unfold hotterOrSame at *; omega⟩

/-- The entries of the experts of a model, from the hottest. -/
def ResidencyProfile.ranked (self : ResidencyProfile) (experts : ℕ) : List (ℕ × ℕ) :=
  (self.entries.filter fun entry => decide (entry.1<experts)).insertionSort hotterOrSame

lemma ranked_perm : (profile.ranked experts).Perm
    (profile.entries.filter fun entry => decide (entry.1<experts)) := List.perm_insertionSort _ _

lemma mem_ranked {entry : ℕ × ℕ} : entry ∈ profile.ranked experts ↔
    profile.get entry.1 = some entry.2 ∧ entry.1<experts := by
  rw [ranked_perm.mem_iff, List.mem_filter, decide_eq_true_iff, ← KeyMap.mem_entries]

lemma nodup_ranked : ((profile.ranked experts).map Prod.fst).Nodup := by
  rw [(ranked_perm.map Prod.fst).nodup_iff]
  exact (List.filter_sublist.map Prod.fst).nodup profile.nodup

/-- Distinct experts below a bound are no more than it. -/
lemma length_le_of_nodup (hnodup : ids.Nodup) (h : ∀ id ∈ ids, id<experts) : ids.length ≤ experts := by
  have hsub : ids ⊆ List.range experts := fun id hid => List.mem_range.mpr (h id hid)
  simpa using (hnodup.subperm hsub).length_le

/-- With all experts as its budget the hot set is every observed one. -/
lemma hotSet_all : profile.hotSet experts experts = (profile.ranked experts).map Prod.fst := by
  have hlength : (profile.ranked experts).length ≤ experts := by
    rw [← List.length_map Prod.fst]
    refine length_le_of_nodup nodup_ranked fun id hid => ?_
    obtain ⟨entry,hentry,rfl⟩ := List.mem_map.mp hid
    exact (mem_ranked.mp hentry).2
  unfold ResidencyProfile.hotSet
  split_ifs with hempty
  · have hnone : profile.ranked experts = [] := by
      obtain hempty | hempty | hempty := hempty
      · exact List.length_eq_zero_iff.mp (by omega)
      · simp [ResidencyProfile.ranked, hempty]
      · exact List.length_eq_zero_iff.mp (by omega)
    rw [hnone]
    rfl
  · exact congrArg _ (List.take_of_length_le hlength)

lemma mem_hotSet {id : ℕ} :
    id ∈ profile.hotSet experts experts ↔ (profile.get id).isSome ∧ id<experts := by
  rw [hotSet_all, List.mem_map, Option.isSome_iff_exists]
  constructor
  · rintro ⟨entry,hentry,rfl⟩
    obtain ⟨hget,hlt⟩ := mem_ranked.mp hentry
    exact ⟨⟨_,hget⟩,hlt⟩
  · rintro ⟨⟨count,hget⟩,hlt⟩
    exact ⟨(id,count),mem_ranked.mpr ⟨hget,hlt⟩,rfl⟩

lemma hotSet_pairwise : (profile.hotSet experts experts).Pairwise (Hotter profile) := by
  rw [hotSet_all, List.pairwise_map]
  have hsorted : (profile.ranked experts).Pairwise hotterOrSame := List.pairwise_insertionSort _ _
  have hdistinct : (profile.ranked experts).Pairwise fun a b => a.1 ≠ b.1 :=
    List.pairwise_map.mp nodup_ranked
  refine (hsorted.and hdistinct).imp_of_mem fun {a b} ha hb h => ?_
  obtain ⟨hsame,hne⟩ := h
  rw [Hotter, (mem_ranked.mp ha).1, (mem_ranked.mp hb).1]
  unfold hotterOrSame at hsame
  change b.2<a.2 ∨ a.2 = b.2 ∧ a.1<b.1
  omega

end Ranked

/-- What an order must be: no expert twice, and none that the model does not have. It is what an
order file lists. Without one it has every expert, from the hottest with a profile and by number
without one. -/
structure Resolved (fromStr : List Char → Except String (List ℕ)) (args : OrderArgs) (order : List ℕ) :
    Prop where
  nodup : order.Nodup
  inside : ∀ id ∈ order, id<args.numExperts
  listed : ∀ orderPath text, args.order = some (orderPath,text) →
    parseOrderFile fromStr text = .ok order
  complete : args.order = none → ∀ id<args.numExperts, id ∈ order
  hottest : args.order = none → ∀ profile, args.profile = some profile →
    order.Pairwise (Hotter profile)
  numeric : args.order = none → args.profile = none → order = List.range args.numExperts

/-- Every order that `repack` goes on with is one. -/
lemma resolve_resolved {args : OrderArgs} {fromStr : List Char → Except String (List ℕ)}
    {order : List ℕ} (h : args.resolve fromStr = .ok order) : Resolved fromStr args order := by
  unfold OrderArgs.resolve at h
  split at h
  · rename_i orderPath text horder
    obtain ⟨ids,hids,h⟩ := bind_eq_ok.mp h
    dsimp only at h
    split_ifs at h with hempty
    · obtain ⟨_,hthrow,-⟩ := bind_eq_ok.mp h
      cases hthrow
    obtain ⟨_,hvalid,h⟩ := bind_eq_ok.mp h
    obtain rfl := Except.ok.inj h
    obtain ⟨hinside,hnodup⟩ := validateOrder_ok.mp hvalid
    refine ⟨hnodup,hinside,fun other otherText hother => ?_,fun h => by simp [horder] at h,
      fun h => by simp [horder] at h,fun h => by simp [horder] at h⟩
    obtain ⟨rfl,rfl⟩ := Prod.mk.inj (Option.some.inj (horder.symm.trans hother))
    exact hids
  · rename_i profile horder hprofile
    obtain rfl := Except.ok.inj h
    have hunseen : ∀ id, id ∈ (List.range args.numExperts).filter (fun id =>
        decide (id ∉ profile.hotSet args.numExperts args.numExperts)) ↔
        id<args.numExperts ∧ profile.get id = none := by
      intro id
      rw [List.mem_filter, List.mem_range, decide_eq_true_iff, mem_hotSet]
      refine and_congr_right fun hlt => ?_
      rw [and_iff_left hlt, Option.not_isSome_iff_eq_none]
    refine ⟨?_,?_,fun _ _ h => by simp [horder] at h,?_,fun _ other hother => ?_,
      fun _ h => by simp [hprofile] at h⟩
    · refine List.nodup_append.mpr ⟨hotSet_all ▸ nodup_ranked,List.nodup_range.filter _,?_⟩
      rintro id hid _ hunseenId rfl
      exact of_decide_eq_true (List.mem_filter.mp hunseenId).2 hid
    · intro id hid
      obtain hid | hid := List.mem_append.mp hid
      · exact (mem_hotSet.mp hid).2
      · exact ((hunseen id).mp hid).1
    · intro _ id hid
      by_cases hseen : id ∈ profile.hotSet args.numExperts args.numExperts
      · exact List.mem_append_left _ hseen
      · refine List.mem_append_right _ (List.mem_filter.mpr ⟨List.mem_range.mpr hid,?_⟩)
        exact decide_eq_true hseen
    · obtain rfl := Option.some.inj (hother.symm.trans hprofile)
      refine List.pairwise_append.mpr ⟨hotSet_pairwise,?_,fun a ha b hb => ?_⟩
      · have hsorted : (List.range args.numExperts).Pairwise (·<·) := List.pairwise_lt_range
        refine (hsorted.filter _).imp_of_mem fun {a b} ha hb hlt => ?_
        rw [Hotter, ((hunseen a).mp ha).2, ((hunseen b).mp hb).2]
        exact hlt
      · obtain ⟨count,hcount⟩ := Option.isSome_iff_exists.mp (mem_hotSet.mp ha).1
        rw [Hotter, hcount, ((hunseen b).mp hb).2]
        trivial
  · rename_i horder hprofile
    obtain rfl := Except.ok.inj h
    exact ⟨List.nodup_range,fun id hid => List.mem_range.mp hid,fun _ _ h => (by simp [horder] at h),
      fun _ id hid => List.mem_range.mpr hid,fun _ profile h => (by simp [hprofile] at h),fun _ _ => rfl⟩

end Orders

end MicroExpertRouter.Packed
