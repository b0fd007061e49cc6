import MicroExpertRouter.Gguf.Demands

/-! The sizes of tensors over the naturals, and what `parse` promises: it ends without a panic and
its byte lengths are these sizes, exactly when the machine admits what the header asks for. -/
namespace MicroExpertRouter.Gguf
open MicroExpertRouter.Parser (Ensures)

/-- How many elements and bytes a block has. -/
structure Block where
  elems : ℕ
  bytes : ℕ

def blockOf (code : ℕ) : Option Block :=
  if code = GgmlDtype.f32 then some ⟨1,4⟩
  else if code = GgmlDtype.f16 then some ⟨1,2⟩
  else if code = GgmlDtype.bf16 then some ⟨1,2⟩
  else if code = GgmlDtype.q4_0 then some ⟨32,18⟩
  else if code = GgmlDtype.q4K then some ⟨256,144⟩
  else if code = GgmlDtype.q5K then some ⟨256,176⟩
  else if code = GgmlDtype.q8_0 then some ⟨32,34⟩
  else if code = GgmlDtype.q6K then some ⟨256,210⟩
  else none

/-- The bytes of a tensor: as many whole blocks as its elements take. -/
def trueSize (code : ℕ) (shape : List ℕ) : Option ℕ :=
  (blockOf code).map fun block => (shape.prod ⌈/⌉ block.elems)*block.bytes

/-- Every dtype computes its blocks with one checked product. -/
lemma dtypeBytes_eq (code elems : ℕ) : dtypeBytes code elems =
    (blockOf code).bind fun block => checkedMul u64Max (elems ⌈/⌉ block.elems) block.bytes := by
  unfold dtypeBytes blockOf
  split_ifs <;> simp [blocksBytes, Nat.ceilDiv_eq_add_pred_div]

/-- Where overflow panics, the product is that of the naturals. -/
lemma elems_eq_prod {runtime : Runtime} (hchecks : runtime.overflowChecks = true) {shape : List ℕ}
    {n : ℕ} (h : elems runtime shape = .ok n) : n = shape.prod := by
  have hfold : ∀ (shape : List ℕ) (total n : ℕ), shape.foldlM (fun total d =>
      if total*d ≤ u64Max then Except.ok (total*d)
      else if runtime.overflowChecks then .error Failure.panic
      else .ok (total*d % 2^64)) total = .ok n → n = total*shape.prod := by
    intro shape
    induction shape with
    | nil =>
      intro total n h
      cases h
      simp
    | cons d shape ih =>
      intro total n h
      rw [List.foldlM_cons] at h
      by_cases hfits : total*d ≤ u64Max
      · rw [if_pos hfits] at h
        rw [ih _ _ h, List.prod_cons, Nat.mul_assoc]
      · rw [if_neg hfits, if_pos hchecks] at h
        cases h
  rw [hfold shape 1 n h, Nat.one_mul]

lemma ggmlTensorBytes_eq {runtime : Runtime} (hchecks : runtime.overflowChecks = true) {code : ℕ}
    {shape : List ℕ} {byteLen : ℕ} (h : ggmlTensorBytes runtime code shape = .ok (some byteLen)) :
    trueSize code shape = some byteLen := by
  obtain ⟨n,helems,hbytes⟩ := bind_eq_ok.mp h
  have hdtype := Except.ok.inj hbytes
  rw [elems_eq_prod hchecks helems, dtypeBytes_eq] at hdtype
  obtain ⟨block,hblock,hmul⟩ := Option.bind_eq_some_iff.mp hdtype
  unfold checkedMul at hmul
  split_ifs at hmul
  unfold trueSize
  rw [hblock, Option.map_some, hmul]

/-- Every tensor of the table has its size. -/
def Sized (tensors : Table GgufTensorInfo) : Prop := ∀ name info, (name,info) ∈ tensors →
  trueSize info.ggmlDtype info.shape = some info.byteLen

section Sizes
variable {runtime : Runtime} {version : ℕ}

lemma tensorBytes_ensures (hchecks : runtime.overflowChecks = true) (name : String) (code : ℕ)
    (shape : List ℕ) :
    Ensures (tensorBytes runtime name code shape) fun n => trueSize code shape = some n := by
  intro buf pos n next h
  unfold tensorBytes at h
  cases hbytes : ggmlTensorBytes runtime code shape with
  | error e =>
    rw [hbytes] at h
    cases h
  | ok byteLen =>
    rw [hbytes] at h
    cases byteLen with
    | none => cases h
    | some byteLen =>
      cases h
      exact ggmlTensorBytes_eq hchecks hbytes

lemma readTensor_ensures (hchecks : runtime.overflowChecks = true) (tensors : Table GgufTensorInfo)
    (h : Sized tensors) : Ensures (readTensor runtime version tensors) Sized := by
  refine .after _ fun name => .after _ fun nDims => .after _ fun _ => .after _ fun shape =>
    .after _ fun ggmlDtype => .after _ fun offset =>
      .bind (tensorBytes_ensures hchecks name ggmlDtype shape) fun byteLen hbytes => .pure ?_
  intro name' info hmem
  obtain hnew | ⟨hold,-⟩ := Lru.mem_put.mp hmem
  · cases hnew
    exact hbytes
  · exact h name' info hold

lemma readHeader_sized (hchecks : runtime.overflowChecks = true) :
    Ensures (readHeader runtime) fun header => Sized header.tensors := by
  refine .after _ fun _ => .after _ fun version => .after _ fun tensorCount => .after _ fun kvCount =>
    .after _ fun _ => .after _ fun metadata => .after _ fun _ => .bind
      (.loop (readTensor_ensures hchecks) tensorCount [] fun _ _ hmem => by cases hmem)
      fun tensors hsized => .pure hsized

end Sizes

/-- An integer that fits 64 bits. -/
def GgufValue.Fits (v : GgufValue) : Prop := ∀ n, v.asU64 = some n → n ≤ u64Max

section Alignment
variable {runtime : Runtime} {version : ℕ}

lemma fromLeBytes_lt (bytes : List UInt8) : fromLeBytes bytes<256^bytes.length := by
  induction bytes with
  | nil => exact Nat.one_pos
  | cons b bytes ih =>
    have hb : b.toNat<256 := b.toNat_lt
    change b.toNat+256*fromLeBytes bytes<256^(bytes.length+1)
    rw [Nat.pow_succ]
    omega

lemma readLe_ensures {bytes : ℕ} (h : bytes ≤ 8) : Ensures (readLe bytes) fun n => n ≤ u64Max := by
  intro buf pos n next hread
  obtain ⟨items,middle,hbytes,hpure⟩ := Parser.bind_eq_ok.mp hread
  obtain ⟨-,-,rfl,-⟩ := Parser.read_eq_ok.mp hbytes
  cases hpure
  have hlt := fromLeBytes_lt ((buf.drop pos).take bytes)
  have hlength : ((buf.drop pos).take bytes).length ≤ 8 := (List.length_take_le _ _).trans h
  have hpow : 256^((buf.drop pos).take bytes).length ≤ 256^8 :=
    Nat.pow_le_pow_right (by decide) hlength
  unfold u64Max
  omega

lemma toSigned_toNat_le (width n : ℕ) : (toSigned width n).toNat ≤ n := by
  unfold toSigned
  have hpow : (0 : ℤ) ≤ 2^width := by positivity
  split_ifs <;> omega

/-- A value that is read fits. -/
lemma readValueTyped_ensures (depth ty : ℕ) :
    Ensures (readValueTyped runtime version depth ty) GgufValue.Fits := by
  cases depth with
  | zero =>
    intro buf pos v next h
    cases h
  | succ depth =>
    unfold readValueTyped
    have hunsigned : ∀ (f : ℕ → GgufValue) (bytes : ℕ), bytes ≤ 8 →
        (∀ n m, (f n).asU64 = some m → m ≤ n) →
        Ensures (do return f (← readLe bytes) : Read GgufValue) GgufValue.Fits := by
      intro f bytes hbytes hf
      exact .bind (readLe_ensures hbytes) fun n hn => .pure fun m hm => (hf n m hm).trans hn
    have hsigned : ∀ (width n m : ℕ),
        (if 0 ≤ toSigned width n then some (toSigned width n).toNat else none) = some m → m ≤ n := by
      intro width n m h
      split_ifs at h
      cases h
      exact toSigned_toNat_le width n
    cases GgufType.ofCode ty with
    | none =>
      intro buf pos v next h
      cases h
    | some tag =>
      cases tag with
      | uint8 => exact hunsigned .u8 1 (by decide) fun n m h => (Option.some.inj h).ge
      | uint16 => exact hunsigned .u16 2 (by decide) fun n m h => (Option.some.inj h).ge
      | uint32 => exact hunsigned .u32 4 (by decide) fun n m h => (Option.some.inj h).ge
      | uint64 => exact hunsigned .u64 8 le_rfl fun n m h => (Option.some.inj h).ge
      | int8 => exact hunsigned (fun n => .i8 (toSigned 8 n)) 1 (by decide) (hsigned 8)
      | int16 => exact hunsigned (fun n => .i16 (toSigned 16 n)) 2 (by decide) (hsigned 16)
      | int32 => exact hunsigned (fun n => .i32 (toSigned 32 n)) 4 (by decide) (hsigned 32)
      | int64 => exact hunsigned (fun n => .i64 (toSigned 64 n)) 8 le_rfl (hsigned 64)
      | float32 => exact hunsigned .f32 4 (by decide) fun n m h => by cases h
      | float64 => exact hunsigned .f64 8 le_rfl fun n m h => by cases h
      | bool => exact hunsigned (fun n => .bool (decide (n ≠ 0))) 1 (by decide) fun n m h => by cases h
      | string => exact .after _ fun s => .pure fun n hn => by cases hn
      | array =>
        exact .after _ fun innerTy => .after _ fun n => .after _ fun _ => .after _ fun vs => .pure
          fun n hn => by cases hn

lemma readEntry_ensures (metadata : Table GgufValue) (h : ∀ key v, (key,v) ∈ metadata → v.Fits) :
    Ensures (readEntry runtime version metadata) fun table => ∀ key v, (key,v) ∈ table → v.Fits := by
  refine .after _ fun key => .bind (.after _ fun ty => readValueTyped_ensures runtime.stack ty)
    fun v hv => .pure ?_
  intro key' v' hmem
  obtain hnew | ⟨hold,-⟩ := Lru.mem_put.mp hmem
  · cases hnew
    exact hv
  · exact h key' v' hold

lemma readHeader_alignment : Ensures (readHeader runtime) fun header => header.alignment ≤ usizeMax := by
  refine .after _ fun _ => .after _ fun version => .after _ fun tensorCount => .after _ fun kvCount =>
    .after _ fun _ => .bind (.loop readEntry_ensures kvCount [] fun _ _ hmem => by cases hmem)
      fun metadata hfits => .after _ fun _ => .after _ fun tensors => .pure ?_
  have hone : 1 ≤ usizeMax := by decide
  refine max_le ?_ hone
  cases hvalue : (Lru.peek metadata "general.alignment").bind GgufValue.asU64 with
  | none => decide
  | some n =>
    obtain ⟨v,hpeek,hn⟩ := Option.bind_eq_some_iff.mp hvalue
    exact hfits _ v (Lru.peek_mem hpeek) n hn

end Alignment

/-- The bytes that the collections of a header take for a number of elements. -/
structure Footprint where
  metadata : ℕ → ℕ
  tensors : ℕ → ℕ
  shape : ℕ → ℕ
  values : ℕ → ℕ

/-- A machine that grants every request up to `isize::MAX` bytes and panics on overflow. -/
def Runtime.counting (footprint : Footprint) (stack : ℕ) : Runtime where
  overflowChecks := true
  metadata n := decide (footprint.metadata n ≤ isizeMax)
  tensors n := decide (footprint.tensors n ≤ isizeMax)
  shape n := decide (footprint.shape n ≤ isizeMax)
  values n := decide (footprint.values n ≤ isizeMax)
  stack := stack

namespace GgufFile

/-- The parser ends in a value or an error, no sum at its end overflows, and every tensor has its
size. -/
structure Sound (runtime : Runtime) (bytes : List UInt8) : Prop where
  ends : parse runtime bytes ≠ .error .panic
  start : bytes.length ≤ isizeMax → ∀ header afterHeader,
    readHeader runtime bytes 0 = .ok (header,afterHeader) →
      padded header.alignment afterHeader ≤ usizeMax
  sized : ∀ file, parse runtime bytes = .ok file → ∀ name info,
    Lru.peek file.tensors name = some info → trueSize info.ggmlDtype info.shape = some info.byteLen

lemma sound_iff {runtime : Runtime} (hchecks : runtime.overflowChecks = true) (bytes : List UInt8) :
    Sound runtime bytes ↔ parse runtime bytes ≠ .error .panic := by
  refine ⟨Sound.ends,fun hends => ⟨hends,fun hlength header afterHeader hread => ?_,
    fun file hparse name info hinfo => ?_⟩⟩
  · obtain ⟨-,hafter,-⟩ := (readHeader_stable runtime).ok (Nat.zero_le _) hread
    exact padded_le (readHeader_alignment bytes 0 header afterHeader hread) (hafter.trans hlength)
  · obtain ⟨header,afterHeader,hread,-,rfl⟩ := parse_eq_ok.mp hparse
    exact readHeader_sized hchecks bytes 0 header afterHeader hread name info (Lru.peek_mem hinfo)

/-- `parse` is sound on a file exactly when its header asks for no capacity beyond `isize::MAX`
bytes, no product beyond `u64` and no more nesting than the stack has room for. -/
theorem parse_sound_iff (footprint : Footprint) (stack : ℕ) (bytes : List UInt8) :
    Sound (.counting footprint stack) bytes ↔
      ∀ d ∈ demands stack bytes, (Runtime.counting footprint stack).admits d = true := by
  rw [sound_iff rfl, ne_eq, parse_eq_panic _ rfl, not_not]
  rfl

/-- One byte an element, which is less than any of the collections takes. -/
def oneByteEach : Footprint := ⟨id,id,id,id⟩

/-- A whole file: version 3, no tensors, and the largest number of metadata entries. -/
def manyEntries : List UInt8 :=
  ggufMagic++[3,0,0,0]++[0,0,0,0,0,0,0,0]++[0xFF,0xFF,0xFF,0xFF,0xFF,0xFF,0xFF,0xFF]

/-- One tensor of `2^32` times `2^32` bytes. -/
def wideTensor : List UInt8 :=
  ggufMagic++[3,0,0,0]++[1,0,0,0,0,0,0,0]++[0,0,0,0,0,0,0,0]++[1,0,0,0,0,0,0,0,0x77]++[2,0,0,0]++
    [0,0,0,0,1,0,0,0]++[0,0,0,0,1,0,0,0]++[0,0,0,0]++[0,0,0,0,0,0,0,0]

/-- The reservation for the entries panics, and so does the product of the dimensions. -/
theorem parse_panics :
    ¬ Sound (.counting oneByteEach 100) manyEntries ∧ ¬ Sound (.counting oneByteEach 100) wideTensor := by
  have hrefused : ∀ bytes, (¬ ∀ d ∈ demands 100 bytes,
      (Runtime.counting oneByteEach 100).admits d = true) → ¬ Sound (.counting oneByteEach 100) bytes :=
    fun bytes h hsound => hsound.ends ((parse_eq_panic _ rfl bytes).mpr h)
  exact ⟨hrefused _ (by decide +kernel),hrefused _ (by decide +kernel)⟩

end GgufFile

end MicroExpertRouter.Gguf
