import Mathlib.Tactic

/-! Lossy UTF-8 decoding, one byte at a time. Bytes that may still become a character are pending;
a maximal sequence that cannot, and each byte that begins none, becomes a replacement character. -/
namespace Utf8

/-- U+FFFD. -/
def replacement : Char := Char.ofNat 0xFFFD

/-- Number of bytes of a sequence with this first byte, zero if no sequence has. -/
def width (b : UInt8) : ℕ :=
  if b.toNat<0x80 then 1
  else if b.toNat<0xC2 then 0
  else if b.toNat<0xE0 then 2
  else if b.toNat<0xF0 then 3
  else if b.toNat<0xF5 then 4
  else 0

/-- Whether a byte continues the sequence: a second byte that excludes overlong forms, surrogates
and numbers beyond the last character, or any later one. -/
def continues : List UInt8 → UInt8 → Bool
  | [], _ => false
  | [a], b =>
    let least := if a.toNat = 0xE0 then 0xA0 else if a.toNat = 0xF0 then 0x90 else 0x80
    let greatest := if a.toNat = 0xED then 0x9F else if a.toNat = 0xF4 then 0x8F else 0xBF
    decide (least ≤ b.toNat ∧ b.toNat ≤ greatest)
  | _, b => decide (0x80 ≤ b.toNat ∧ b.toNat ≤ 0xBF)

/-- The number of a complete sequence. -/
def scalar : List UInt8 → ℕ
  | [a] => a.toNat
  | [a,b] => a.toNat % 0x20*0x40+b.toNat % 0x40
  | [a,b,c] => (a.toNat % 0x10*0x40+b.toNat % 0x40)*0x40+c.toNat % 0x40
  | [a,b,c,d] => ((a.toNat % 0x08*0x40+b.toNat % 0x40)*0x40+c.toNat % 0x40)*0x40+d.toNat % 0x40
  | _ => 0

/-- A sequence that is cut off. -/
def flush (pending : List UInt8) : List Char := if pending = [] then [] else [replacement]

/-- A sequence of this many bytes is a character, or waits for more. -/
def settle (pending : List UInt8) (n : ℕ) : List Char × List UInt8 :=
  if pending.length = n then ([Char.ofNat (scalar pending)],[]) else ([],pending)

/-- The first byte of a sequence. -/
def start (b : UInt8) : List Char × List UInt8 :=
  if width b = 0 then ([replacement],[]) else settle [b] (width b)

/-- One byte: what becomes of it and of the pending ones. -/
def feed (pending : List UInt8) (b : UInt8) : List Char × List UInt8 :=
  if continues pending b then settle (pending++[b]) (width (pending.headD b))
  else (flush pending++(start b).1,(start b).2)

def feedAll (pending : List UInt8) : List UInt8 → List Char × List UInt8
  | [] => ([],pending)
  | b::bs =>
    let (chars,pending') := feed pending b
    let (rest,left) := feedAll pending' bs
    (chars++rest,left)

/-- The text of the bytes behind pending ones. -/
def lossyFrom (pending bytes : List UInt8) : List Char :=
  (feedAll pending bytes).1++flush (feedAll pending bytes).2

def lossy (bytes : List UInt8) : List Char := lossyFrom [] bytes

def encode (text : List Char) : List UInt8 := text.flatMap String.utf8EncodeChar

section Feeding
variable {pending : List UInt8} {b : UInt8}

@[simp] lemma flush_nil : flush [] = [] := rfl

@[simp] lemma length_flush_le (pending : List UInt8) : (flush pending).length ≤ 1 := by
  unfold flush
  split_ifs <;> simp

@[simp] lemma feedAll_nil (pending : List UInt8) : feedAll pending [] = ([],pending) := rfl

lemma feedAll_cons (pending : List UInt8) (b : UInt8) (bs : List UInt8) :
    feedAll pending (b::bs) = ((feed pending b).1++(feedAll (feed pending b).2 bs).1,
      (feedAll (feed pending b).2 bs).2) := rfl

lemma feedAll_append (a b : List UInt8) : ∀ pending,
    feedAll pending (a++b) = ((feedAll pending a).1++(feedAll (feedAll pending a).2 b).1,
      (feedAll (feedAll pending a).2 b).2) := by
  induction a with
  | nil => simp
  | cons x a ih =>
    intro pending
    simp [feedAll_cons, ih]

lemma lossyFrom_cons (pending : List UInt8) (b : UInt8) (bs : List UInt8) :
    lossyFrom pending (b::bs) = (feed pending b).1++lossyFrom (feed pending b).2 bs := by
  simp [lossyFrom, feedAll_cons]

/-- A byte that continues a sequence is in the range of continuation bytes. -/
lemma range_of_continues (h : continues pending b = true) :
    0x80 ≤ b.toNat ∧ b.toNat ≤ 0xBF := by
  unfold continues at h
  split at h
  · cases h
  · simp only [decide_eq_true_eq] at h
    split_ifs at h <;> omega
  · exact of_decide_eq_true h

/-- From the third byte on that is all. -/
lemma continues_later (x y : UInt8) (front : List UInt8) (h : 0x80 ≤ b.toNat ∧ b.toNat ≤ 0xBF) :
    continues (x::y::front) b = true := decide_eq_true h

/-- Such a byte begins no sequence. -/
lemma start_of_continues (h : continues pending b = true) : start b = ([replacement],[]) := by
  obtain ⟨hleast,hgreatest⟩ := range_of_continues h
  have hwidth : width b = 0 := by
    unfold width
    rw [if_neg (by omega), if_pos (by omega)]
  rw [start, if_pos hwidth]

lemma feed_of_not_continues (h : continues pending b = false) :
    feed pending b = (flush pending++(start b).1,(start b).2) := by
  rw [feed, h, if_neg Bool.false_ne_true]

@[simp] lemma feed_nil (b : UInt8) : feed [] b = start b := feed_of_not_continues rfl

/-- An ASCII byte is a character of its own. -/
lemma feed_ascii (h : b.toNat<0x80) (pending : List UInt8) :
    feed pending b = (flush pending++[Char.ofNat b.toNat],[]) := by
  have hcontinues : continues pending b = false := by
    by_contra hcontinues
    have := range_of_continues (Bool.of_not_eq_false hcontinues)
    omega
  have hwidth : width b = 1 := if_pos h
  rw [feed_of_not_continues hcontinues, start, if_neg (by omega), hwidth]
  rfl

/-- Bytes outside ASCII are not characters of their own. -/
lemma lossy_singleton (h : 0x80 ≤ b.toNat) : lossy [b] = [replacement] := by
  have hwidth : width b ≠ 1 := by
    unfold width
    split_ifs <;> omega
  unfold lossy lossyFrom
  rw [feedAll_cons, feed_nil, start]
  split_ifs
  · simp
  · rw [settle, if_neg (by simpa using hwidth.symm)]
    simp [flush]

lemma lossy_ascii (h : b.toNat<0x80) : lossy [b] = [Char.ofNat b.toNat] := by
  rw [lossy, lossyFrom_cons, feed_ascii h]
  simp [lossyFrom]

end Feeding

section Encoding

/-- A byte sequence is one character, and cut off anywhere it is pending. -/
structure Encodes (seq : List UInt8) (c : Char) : Prop where
  whole : feedAll [] seq = ([c],[])
  part : ∀ front b back, seq = front++b::back → front ≠ [] →
    feedAll [] front = ([],front) ∧ continues front b = true

lemma start_eq_settle {a : UInt8} (h : width a ≠ 0) : start a = settle [a] (width a) := if_neg h

/-- A first byte of the right width, continued by all others. -/
lemma encodes_of_continues {a : UInt8} {rest : List UInt8} (hwidth : width a = rest.length+1)
    (hcontinues : ∀ front b back, a::rest = front++b::back → front ≠ [] →
      continues front b = true) : Encodes (a::rest) (Char.ofNat (scalar (a::rest))) := by
  -- What is fed so far is pending until it has the right width.
  have hfed : ∀ front back, a::rest = front++back → front ≠ [] →
      feedAll [] front = settle front (rest.length+1) := by
    intro front
    induction front using List.reverseRecOn with
    | nil => exact fun back _ hne => absurd rfl hne
    | append_singleton front b ih =>
      intro back hsplit _
      cases front with
      | nil =>
        have ha : a = b := List.head_eq_of_cons_eq hsplit
        rw [← ha, List.nil_append, feedAll_cons, feed_nil, start_eq_settle (by omega), hwidth]
        simp
      | cons x front =>
        have hx : a = x := List.head_eq_of_cons_eq hsplit
        have hsplit' : a::rest = (x::front)++b::back := by simpa using hsplit
        have hlength := congrArg List.length hsplit'
        simp only [List.length_cons, List.length_append] at hlength
        have hpending : settle (x::front) (rest.length+1) = ([],x::front) :=
          if_neg (by simp only [List.length_cons]; omega)
        rw [feedAll_append, ih _ hsplit' (List.cons_ne_nil _ _), hpending, feedAll_cons, feed,
          hcontinues _ _ _ hsplit' (List.cons_ne_nil _ _), if_pos rfl]
        simp [← hx, hwidth]
  refine ⟨?_,fun front b back hsplit hne => ⟨?_,hcontinues front b back hsplit hne⟩⟩
  · rw [hfed _ [] (by simp) (List.cons_ne_nil _ _)]
    exact if_pos rfl
  · rw [hfed front (b::back) hsplit hne]
    have hlength := congrArg List.length hsplit
    simp only [List.length_cons, List.length_append] at hlength
    exact if_neg (by omega)

lemma encodes_ascii {a : UInt8} (h : a.toNat<0x80) : Encodes [a] (Char.ofNat a.toNat) := by
  refine encodes_of_continues (if_pos h) ?_
  rintro (_ | ⟨x,front⟩) b back hsplit hne
  · exact absurd rfl hne
  · simp at hsplit

/-- Only the second byte depends on the first. -/
lemma encodes_of_second {a x : UInt8} {rest : List UInt8} (hwidth : width a = rest.length+2)
    (hsecond : continues [a] x = true) (hlater : ∀ b ∈ rest, 0x80 ≤ b.toNat ∧ b.toNat ≤ 0xBF) :
    Encodes (a::x::rest) (Char.ofNat (scalar (a::x::rest))) := by
  refine encodes_of_continues hwidth ?_
  rintro (_ | ⟨y,_ | ⟨z,front⟩⟩) b back hsplit hne
  · exact absurd rfl hne
  · simp only [List.cons_append, List.nil_append, List.cons.injEq] at hsplit
    obtain ⟨rfl,rfl,-⟩ := hsplit
    exact hsecond
  · simp only [List.cons_append, List.cons.injEq] at hsplit
    obtain ⟨-,-,hrest⟩ := hsplit
    exact continues_later _ _ _ (hlater b (by simp [hrest]))

lemma toNat_valid (c : Char) : c.val.toNat<0xD800 ∨ 0xDFFF<c.val.toNat ∧ c.val.toNat<0x110000 := by
  simpa [UInt32.isValidChar, Nat.isValidChar] using c.valid

lemma toNat_byte {n : ℕ} (h : n<256) : (UInt8.ofNat n).toNat = n := by
  rw [UInt8.toNat_ofNat', Nat.mod_eq_of_lt h]

/-- The encoding of a character, by the number of its bytes. -/
lemma encodes_utf8EncodeChar (c : Char) : Encodes (String.utf8EncodeChar c) c := by
  have hvalid := toNat_valid c
  have hof : Char.ofNat c.val.toNat = c := Char.ofNat_toNat c
  unfold String.utf8EncodeChar
  dsimp only
  generalize c.val.toNat = v at hvalid hof
  have htail : ∀ n, (UInt8.ofNat (n % 0x40+0x80)).toNat = n % 0x40+0x80 :=
    fun n => toNat_byte (by omega)
  have hrange : ∀ n, 0x80 ≤ (UInt8.ofNat (n % 0x40+0x80)).toNat ∧
      (UInt8.ofNat (n % 0x40+0x80)).toNat ≤ 0xBF := by
    intro n
    rw [htail]
    omega
  split_ifs with hone htwo hthree
  · have hfirst : (UInt8.ofNat v).toNat = v := toNat_byte (by omega)
    have h := @encodes_ascii (UInt8.ofNat v) (by omega)
    rwa [hfirst, hof] at h
  · have hfirst : (UInt8.ofNat (v/64 % 0x20+0xc0)).toNat = v/64 % 0x20+0xc0 := toNat_byte (by omega)
    have hscalar : (v/64 % 0x20+0xc0) % 0x20*0x40+(v % 0x40+0x80) % 0x40 = v := by omega
    have hwidth : width (UInt8.ofNat (v/64 % 0x20+0xc0)) = 2 := by
      unfold width
      rw [hfirst, if_neg (by omega), if_neg (by omega), if_pos (by omega)]
    have hsecond : continues [UInt8.ofNat (v/64 % 0x20+0xc0)] (UInt8.ofNat (v % 0x40+0x80)) = true := by
      unfold continues
      simp only [hfirst, htail, decide_eq_true_eq]
      split_ifs <;> omega
    have h := @encodes_of_second _ _ [] hwidth hsecond
      (List.forall_mem_nil _)
    rwa [scalar, hfirst, htail, hscalar, hof] at h
  · have hfirst : (UInt8.ofNat (v/4096 % 0x10+0xe0)).toNat = v/4096 % 0x10+0xe0 :=
      toNat_byte (by omega)
    have hscalar : ((v/4096 % 0x10+0xe0) % 0x10*0x40+(v/64 % 0x40+0x80) % 0x40)*0x40+
        (v % 0x40+0x80) % 0x40 = v := by omega
    have hwidth : width (UInt8.ofNat (v/4096 % 0x10+0xe0)) = 3 := by
      unfold width
      rw [hfirst, if_neg (by omega), if_neg (by omega), if_neg (by omega), if_pos (by omega)]
    have hsecond : continues [UInt8.ofNat (v/4096 % 0x10+0xe0)] (UInt8.ofNat (v/64 % 0x40+0x80)) =
        true := by
      unfold continues
      simp only [hfirst, htail, decide_eq_true_eq]
      split_ifs <;> omega
    have h := @encodes_of_second _ _ [UInt8.ofNat (v % 0x40+0x80)] hwidth hsecond
      (List.forall_mem_singleton.mpr (hrange _))
    rwa [scalar, hfirst, htail, htail, hscalar, hof] at h
  · have hfirst : (UInt8.ofNat (v/262144 % 0x08+0xf0)).toNat = v/262144 % 0x08+0xf0 :=
      toNat_byte (by omega)
    have hscalar : (((v/262144 % 0x08+0xf0) % 0x08*0x40+(v/4096 % 0x40+0x80) % 0x40)*0x40+
        (v/64 % 0x40+0x80) % 0x40)*0x40+(v % 0x40+0x80) % 0x40 = v := by omega
    have hwidth : width (UInt8.ofNat (v/262144 % 0x08+0xf0)) = 4 := by
      unfold width
      rw [hfirst, if_neg (by omega), if_neg (by omega), if_neg (by omega), if_neg (by omega),
        if_pos (by omega)]
    have hsecond : continues [UInt8.ofNat (v/262144 % 0x08+0xf0)] (UInt8.ofNat (v/4096 % 0x40+0x80)) =
        true := by
      unfold continues
      simp only [hfirst, htail, decide_eq_true_eq]
      split_ifs <;> omega
    have h := @encodes_of_second _ _ [UInt8.ofNat (v/64 % 0x40+0x80),UInt8.ofNat (v % 0x40+0x80)]
      hwidth hsecond
      (List.forall_mem_cons.mpr ⟨hrange _,List.forall_mem_singleton.mpr (hrange _)⟩)
    rwa [scalar, hfirst, htail, htail, htail, hscalar, hof] at h

/-- Text that is encoded decodes to itself. -/
lemma feedAll_encode (text : List Char) : feedAll [] (encode text) = (text,[]) := by
  induction text with
  | nil => rfl
  | cons c text ih =>
    have hsplit : encode (c::text) = String.utf8EncodeChar c++encode text := by simp [encode]
    rw [hsplit, feedAll_append, (encodes_utf8EncodeChar c).whole, ih]
    rfl

lemma lossy_encode (text : List Char) : lossy (encode text) = text := by
  simp [lossy, lossyFrom, feedAll_encode]

/-- A byte of a text stands in one of its characters. -/
lemma encode_split (text : List Char) : ∀ {front : List UInt8} {b : UInt8} {back : List UInt8},
    encode text = front++b::back → ∃ before c after k, text = before++c::after ∧
      k<(String.utf8EncodeChar c).length ∧
      front = encode before++(String.utf8EncodeChar c).take k := by
  induction text with
  | nil =>
    intro front b back h
    simp [encode] at h
  | cons c text ih =>
    intro front b back h
    have hsplit : encode (c::text) = String.utf8EncodeChar c++encode text := by simp [encode]
    rw [hsplit] at h
    obtain ⟨front',rfl,hrest⟩ | ⟨rest,hchar,hrest⟩ := List.append_eq_append_iff.mp h
    · obtain ⟨before,d,after,k,rfl,hk,rfl⟩ := ih hrest
      exact ⟨c::before,d,after,k,rfl,hk,by simp [encode]⟩
    · cases rest with
      | nil =>
        obtain ⟨before,d,after,k,rfl,hk,hnil⟩ := @ih [] b back hrest.symm
        refine ⟨c::before,d,after,k,rfl,hk,?_⟩
        have hfront : front = String.utf8EncodeChar c := by simpa using hchar.symm
        rw [hfront, ← List.append_nil (String.utf8EncodeChar c), hnil]
        simp [encode]
      | cons x rest =>
        refine ⟨[],c,text,front.length,rfl,?_,?_⟩
        · rw [hchar]
          simp
        · rw [hchar, List.take_left]
          rfl

end Encoding

section Cuts
variable {pending : List UInt8} {b : UInt8}

lemma flush_of_continues (h : continues pending b = true) : flush pending = [replacement] := by
  unfold flush
  refine if_neg fun hnil => ?_
  rw [hnil] at h
  cases h

/-- Behind a sequence that is over anyway, bytes decode as from the start. -/
lemma lossyFrom_of_not_continues {bytes : List UInt8}
    (h : ∀ b ∈ bytes.head?, continues pending b = false) :
    lossyFrom pending bytes = flush pending++lossyFrom [] bytes := by
  cases bytes with
  | nil => simp [lossyFrom]
  | cons b bytes =>
    rw [lossyFrom_cons, lossyFrom_cons, feed_of_not_continues (h b rfl), feed_nil]
    simp

/-- A sequence that is torn apart takes more characters. -/
lemma length_lossyFrom_cons_lt {bytes : List UInt8} (h : continues pending b = true)
    (hle : ∀ pending, (lossyFrom pending bytes).length ≤
      (flush pending++lossyFrom [] bytes).length) :
    (lossyFrom pending (b::bytes)).length<(flush pending++lossyFrom [] (b::bytes)).length := by
  rw [lossyFrom_cons, lossyFrom_cons, feed_nil, start_of_continues h, feed, if_pos h,
    flush_of_continues h]
  unfold settle
  split_ifs
  · simp
  · have hrest := hle (pending++[b])
    have hone := length_flush_le (pending++[b])
    simp only [List.length_append, List.length_cons, List.nil_append, List.length_nil] at hrest ⊢
    omega

/-- Decoding anew never takes fewer characters. -/
lemma length_lossyFrom_le (bytes : List UInt8) : ∀ pending,
    (lossyFrom pending bytes).length ≤ (flush pending++lossyFrom [] bytes).length := by
  induction bytes with
  | nil => simp [lossyFrom]
  | cons b bytes ih =>
    intro pending
    cases hcontinues : continues pending b with
    | true => exact (length_lossyFrom_cons_lt hcontinues ih).le
    | false =>
      rw [lossyFrom_of_not_continues (by simpa using hcontinues)]

end Cuts

end Utf8
