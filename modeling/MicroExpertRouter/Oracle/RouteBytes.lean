import MicroExpertRouter.Lib.Fields
import MicroExpertRouter.Lib.PrefixCode
import MicroExpertRouter.Oracle.Simulation

/-! The bytes that `ordered_route_sequence_sha256` of `gpu_native_oracle_routes.rs` digests: they
determine the sequence of routes, and those of one sequence never begin those of another. -/
namespace MicroExpertRouter.Oracle
open PrefixCode (Splits)

structure OracleRouteRecord where
  position : ℕ
  layerIndex : ℕ
  orderedSelectedExpertIds : List UInt32
  deriving DecidableEq, Repr

/-- `try_from` of a `usize` with an error of this detail. -/
def countFits (top : ℕ) (detail : String) (n : ℕ) : Except OracleTraceError ℕ :=
  if n ≤ top then .ok n else .error ⟨"route-count-overflow",detail⟩

/-- `b"mer.gpu-native-oracle-route-sequence.v1\0"`. -/
def routeSequenceTag : List UInt8 :=
  ("mer.gpu-native-oracle-route-sequence.v1".toList.map fun c => UInt8.ofNat c.toNat)++[0]

/-- One turn of the loop over the records. -/
def appendRecord (bytes : List UInt8) (record : OracleRouteRecord) :
    Except OracleTraceError (List UInt8) := do
  let position ← countFits u64Max "position does not fit u64" record.position
  let layer ← countFits u32Max "layer index does not fit u32" record.layerIndex
  let selectedCount ← countFits u32Max "top-k count does not fit u32"
    record.orderedSelectedExpertIds.length
  return record.orderedSelectedExpertIds.foldl (fun bytes expertId => bytes++Le.encode 4 expertId.toNat)
    (bytes++Le.encode 8 position++Le.encode 4 layer++Le.encode 4 selectedCount)

def canonicalRouteBytes (records : List OracleRouteRecord) : Except OracleTraceError (List UInt8) := do
  let recordCount ← countFits u64Max "record count does not fit u64" records.length
  records.foldlM appendRecord (routeSequenceTag++Le.encode 8 recordCount)

section Code

/-- The numbers of a record fit their widths. -/
def OracleRouteRecord.Fits (record : OracleRouteRecord) : Prop :=
  record.position ≤ u64Max ∧ record.layerIndex ≤ u32Max ∧
    record.orderedSelectedExpertIds.length ≤ u32Max

def expertIdBytes (expertId : UInt32) : List UInt8 := Le.encode 4 expertId.toNat

/-- Each list comes after its length. -/
def recordBytes (record : OracleRouteRecord) : List UInt8 :=
  Le.encode 8 record.position++(Le.encode 4 record.layerIndex++
    (Le.encode 4 record.orderedSelectedExpertIds.length++
      record.orderedSelectedExpertIds.flatMap expertIdBytes))

lemma splits_encode (k : ℕ) : Splits (·<256^k) (Le.encode k) := by
  refine Splits.of_length (Le.length_encode k) fun a b ha hb heq => ?_
  rw [← Le.decode_encode k ha, heq, Le.decode_encode k hb]

lemma splits_expertIdBytes : Splits (fun _ => True) expertIdBytes :=
  (splits_encode 4).comap UInt32.toNat (fun _ _ h => UInt32.toNat_inj.mp h)
    (fun id _ => id.toNat_lt) fun _ => rfl

lemma splits_recordBytes : Splits OracleRouteRecord.Fits recordBytes := by
  have hids : Splits (fun ids : List UInt32 => ids.length<256^4 ∧ ∀ id ∈ ids, True)
      fun ids => Le.encode 4 ids.length++ids.flatMap expertIdBytes :=
    (splits_encode 4).counted splits_expertIdBytes
  have hrest := (splits_encode 4).bind fun _ _ => hids
  have hall := (splits_encode 8).bind fun _ _ => hrest
  refine hall.comap (fun record =>
    (record.position,record.layerIndex,record.orderedSelectedExpertIds)) ?_ ?_ fun _ => rfl
  · rintro ⟨p,l,ids⟩ ⟨p',l',ids'⟩ heq
    cases heq
    rfl
  · rintro record ⟨hposition,hlayer,hcount⟩
    unfold u64Max at hposition
    unfold u32Max at hlayer hcount
    refine ⟨?_,?_,?_,fun _ _ => trivial⟩
    · dsimp only
      omega
    · dsimp only
      omega
    · dsimp only
      omega

end Code

section Bytes
variable {records : List OracleRouteRecord} {bytes : List UInt8}

lemma countFits_eq_ok {top n m : ℕ} {detail : String} :
    countFits top detail n = .ok m ↔ n ≤ top ∧ m = n := by
  unfold countFits
  split_ifs with h
  · simp [h, eq_comm]
  · simp [h]

/-- A turn appends the bytes of a record that fits. -/
lemma appendRecord_eq_ok {record : OracleRouteRecord} {next : List UInt8}
    (h : appendRecord bytes record = .ok next) : record.Fits ∧ next = bytes++recordBytes record := by
  obtain ⟨position,hposition,h⟩ := bind_eq_ok.mp h
  obtain ⟨layer,hlayer,h⟩ := bind_eq_ok.mp h
  obtain ⟨count,hcount,h⟩ := bind_eq_ok.mp h
  obtain ⟨hpositionFits,rfl⟩ := countFits_eq_ok.mp hposition
  obtain ⟨hlayerFits,rfl⟩ := countFits_eq_ok.mp hlayer
  obtain ⟨hcountFits,rfl⟩ := countFits_eq_ok.mp hcount
  refine ⟨⟨hpositionFits,hlayerFits,hcountFits⟩,?_⟩
  rw [← Except.ok.inj h, List.foldl_append_eq_append, recordBytes, List.flatMap_def]
  simp only [List.append_assoc]
  rfl

lemma foldlM_appendRecord : ∀ {records : List OracleRouteRecord} {bytes next : List UInt8},
    records.foldlM appendRecord bytes = .ok next →
      (∀ record ∈ records, record.Fits) ∧ next = bytes++records.flatMap recordBytes := by
  intro records
  induction records with
  | nil =>
    intro bytes next h
    cases h
    simp
  | cons record records ih =>
    intro bytes next h
    rw [List.foldlM_cons] at h
    obtain ⟨middle,hmiddle,h⟩ := bind_eq_ok.mp h
    obtain ⟨hfits,rfl⟩ := appendRecord_eq_ok hmiddle
    obtain ⟨hall,rfl⟩ := ih h
    refine ⟨List.forall_mem_cons.mpr ⟨hfits,hall⟩,?_⟩
    rw [List.flatMap_cons, List.append_assoc]

/-- The bytes are the tag, the number of records and the records. -/
lemma canonicalRouteBytes_eq_ok (h : canonicalRouteBytes records = .ok bytes) :
    (records.length<256^8 ∧ ∀ record ∈ records, record.Fits) ∧
      bytes = routeSequenceTag++(Le.encode 8 records.length++records.flatMap recordBytes) := by
  obtain ⟨count,hcount,h⟩ := bind_eq_ok.mp h
  obtain ⟨hcountFits,rfl⟩ := countFits_eq_ok.mp hcount
  obtain ⟨hall,rfl⟩ := foldlM_appendRecord h
  unfold u64Max at hcountFits
  exact ⟨⟨by omega,hall⟩,List.append_assoc _ _ _⟩

/-- Bytes that begin the bytes of a sequence of routes are those of the same sequence. -/
theorem records_eq_of_begins {others : List OracleRouteRecord} {otherBytes : List UInt8}
    (h : canonicalRouteBytes records = .ok bytes)
    (hother : canonicalRouteBytes others = .ok otherBytes) (hbegins : bytes <+: otherBytes) :
    records = others := by
  obtain ⟨hfits,rfl⟩ := canonicalRouteBytes_eq_ok h
  obtain ⟨hfits',rfl⟩ := canonicalRouteBytes_eq_ok hother
  exact ((splits_encode 8).counted splits_recordBytes).eq_of_begins hfits hfits'
    ((List.prefix_append_right_inj _).mp hbegins)

/-- Equal bytes are those of one sequence, and the bytes of two sequences never begin one another. -/
theorem canonicalRouteBytes_identifies {others : List OracleRouteRecord} {otherBytes : List UInt8}
    (h : canonicalRouteBytes records = .ok bytes)
    (hother : canonicalRouteBytes others = .ok otherBytes) :
    (bytes = otherBytes → records = others) ∧
      (records ≠ others → ¬ bytes <+: otherBytes ∧ ¬ otherBytes <+: bytes) := by
  refine ⟨fun heq => ?_,fun hne => ⟨fun hbegins => ?_,fun hbegins => ?_⟩⟩
  · exact records_eq_of_begins h hother (heq ▸ List.prefix_refl bytes)
  · exact hne (records_eq_of_begins h hother hbegins)
  · exact hne (records_eq_of_begins hother h hbegins).symm

theorem canonicalRouteBytes_identifies_two :
    ([⟨0,0,[1]⟩] ≠ ([⟨0,0,[]⟩,⟨1,0,[]⟩] : List OracleRouteRecord)) ∧
      ¬ (routeSequenceTag++(Le.encode 8 1++recordBytes ⟨0,0,[1]⟩)) <+:
        (routeSequenceTag++(Le.encode 8 2++(recordBytes ⟨0,0,[]⟩++recordBytes ⟨1,0,[]⟩))) :=
  ⟨by decide,((@canonicalRouteBytes_identifies [⟨0,0,[1]⟩] _ [⟨0,0,[]⟩,⟨1,0,[]⟩] _ rfl rfl).2
    (by decide)).1⟩

end Bytes

end MicroExpertRouter.Oracle
