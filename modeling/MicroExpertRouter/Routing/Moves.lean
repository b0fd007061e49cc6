import MicroExpertRouter.Routing.Dispatch
import MicroExpertRouter.Routing.Entries

/-! What one step of a call can do to its own place and to the addressable entries. -/
namespace MicroExpertRouter.Routing
open PhysicalRegistry (PhysicalExpertKey PhysicalInstallPermit Entry Keyed)
variable {δ : Type}

def Outcome.admission? : Outcome δ → Option (Admission δ)
  | .dispatched admission _ => some admission
  | .stale admission => some admission
  | .failed _ => none

def Outcome.entry? : Outcome δ → Option (Entry (Upload δ))
  | .dispatched _ entry => some entry
  | .stale _ => none
  | .failed _ => none

namespace Call

/-- The admission that a call has read. -/
def admission? : Call δ → Option (Admission δ)
  | .read _ => none
  | .retireMiss _ => none
  | .lookUp admission => some admission
  | .plan admission => some admission
  | .acquire admission _ => some admission
  | .recheckPermit admission _ => some admission
  | .build admission _ => some admission
  | .recheckBuilt admission _ => some admission
  | .install admission _ => some admission
  | .recheck admission _ => some admission
  | .retire admission _ => some admission
  | .dispatch admission _ => some admission
  | .discard admission _ => some admission
  | .cancel _ outcome => outcome.admission?
  | .release _ outcome => outcome.admission?
  | .finished outcome => outcome.admission?

/-- The permit with which a call builds. -/
def permit? : Call δ → Option PhysicalInstallPermit
  | .recheckPermit _ permit => some permit
  | .build _ permit => some permit
  | .recheckBuilt _ permit => some permit
  | .install _ permit => some permit
  | _ => none

/-- The entry that a call has obtained, unless it found it stale and has retired its key. -/
def entry? : Call δ → Option (Entry (Upload δ))
  | .recheck _ entry => some entry
  | .retire _ entry => some entry
  | .dispatch _ entry => some entry
  | .cancel _ outcome => outcome.entry?
  | .release _ outcome => outcome.entry?
  | .finished outcome => outcome.entry?
  | _ => none

/-- A call has passed its last check. -/
def passed : Call δ → Bool
  | .dispatch _ _ => true
  | .cancel _ outcome => outcome.entry?.isSome
  | .release _ outcome => outcome.entry?.isSome
  | .finished outcome => outcome.entry?.isSome
  | _ => false

end Call

/-- A step of a call, with the registry after it. -/
inductive Move (self : Backend δ) (c : ℕ) (physical : PhysicalRegistry.System (Upload δ)) :
    Call δ → Call δ → Prop
  | read {expertId : ℕ} {admission : GpuCache.GpuAdmission} (hphysical : physical = self.physical)
    (hcurrent : self.logical.cache.currentAdmission expertId = some admission) :
    Move self c physical (.read expertId)
      (.lookUp (self.admission ⟨expertId,admission.generation⟩))
  | advance {call next : Call δ}
    (hsub : physical.entries.Subperm self.physical.entries)
    (hadmission : next.admission? = call.admission? ∨
      next.admission? = none ∧ call.entry? = none)
    (hpermit : ∀ permit, next.permit? = some permit →
      ∃ other, call.permit? = some other ∧ permit.key = other.key)
    (hentry : next.entry? = call.entry?) (hpassed : next.passed = call.passed) :
    Move self c physical call next
  | find {call : Call δ} {admission : Admission δ} {entry : Entry (Upload δ)}
    (hsub : physical.entries.Subperm self.physical.entries)
    (hadmission : call.admission? = some admission) (hentry : call.entry? = none)
    (hkey : entry.physicalKey = admission.key)
    (hmem : (admission.key.expertId,entry) ∈ self.physical.entries) :
    Move self c physical call (.recheck admission entry)
  | reserve {admission : Admission δ} {bytes : ℕ} {permit : PhysicalInstallPermit}
    (hsub : physical.entries.Subperm self.physical.entries) (hkey : permit.key = admission.key) :
    Move self c physical (.acquire admission bytes) (.recheckPermit admission permit)
  | install {admission : Admission δ} {permit : PhysicalInstallPermit} {entry : Entry (Upload δ)}
    (hkey : entry.physicalKey = permit.key) (hpayload : entry.payload = ⟨c,admission.data⟩)
    (hentries : physical.entries = Lru.put self.physical.entries permit.key.expertId entry) :
    Move self c physical (.install admission permit) (.recheck admission entry)
  | check {admission : Admission δ} {entry : Entry (Upload δ)}
    (hphysical : physical = self.physical) (hcurrent : self.isCurrent admission.key = true) :
    Move self c physical (.recheck admission entry) (.dispatch admission entry)
  | retire {admission : Admission δ} {entry : Entry (Upload δ)}
    (hsub : physical.entries.Subperm self.physical.entries)
    (hgone : ∀ slot ∈ physical.entries, slot.2.physicalKey ≠ admission.key) :
    Move self c physical (.retire admission entry) (.release entry.serial (.stale admission))

section Advance
variable {self next : Backend δ} {c : ℕ} {choice : Choice} {call : Call δ}

/-- A step that fails or goes on without an entry. -/
lemma Move.aside {physical : PhysicalRegistry.System (Upload δ)} {next : Call δ}
    (hsub : physical.entries.Subperm self.physical.entries)
    (hadmission : next.admission? = call.admission? ∨ next.admission? = none)
    (hpermit : next.permit? = none) (hentry : call.entry? = none) (hentry' : next.entry? = none)
    (hpassed : next.passed = call.passed) : Move self c physical call next := by
  refine .advance hsub (hadmission.imp_right fun h => ⟨h,hentry⟩) (fun permit heq => ?_)
    (hentry'.trans hentry.symm) hpassed
  rw [hpermit] at heq
  cases heq

lemma advance_move (hkeyed : Keyed self.physical.entries) (hcall : self.calls[c]? = some call)
    (h : self.advance c choice call = some next) :
    ∃ physical call', next = { self with physical, calls := self.calls.set c call' } ∧
      Move self c physical call call' := by
  cases call with
  | read expertId =>
    rw [Backend.advance] at h
    split_ifs at h with hlost
    · cases h
      exact ⟨_,_,rfl,.aside (.refl _) (.inl rfl) rfl rfl rfl rfl⟩
    · split at h
      · cases h
        exact ⟨_,_,rfl,.aside (.refl _) (.inl rfl) rfl rfl rfl rfl⟩
      · rename_i admission hcurrent
        cases h
        exact ⟨_,_,rfl,.read rfl hcurrent⟩
  | retireMiss expertId =>
    obtain ⟨physical,hretire,h⟩ := Option.bind_eq_some_iff.mp h
    cases h
    exact ⟨_,_,rfl,.aside (PhysicalRegistry.retireLogicalMiss_entries hretire) (.inl rfl) rfl rfl rfl
      rfl⟩
  | lookUp admission =>
    obtain ⟨⟨physical,found⟩,hlookup,h⟩ := Option.bind_eq_some_iff.mp h
    obtain ⟨hsub,hfinds⟩ := PhysicalRegistry.lookupCurrentLocked_entries hkeyed hlookup
    cases hfinds with
    | hit hkey hmem =>
      cases h
      exact ⟨_,_,rfl,.find hsub rfl rfl hkey hmem⟩
    | miss =>
      cases h
      exact ⟨_,_,rfl,.aside hsub (.inl rfl) rfl rfl rfl rfl⟩
    | staleRequester =>
      cases h
      exact ⟨_,_,rfl,.aside hsub (.inr rfl) rfl rfl rfl rfl⟩
  | plan admission =>
    rw [Backend.advance] at h
    split at h
    · cases h
      exact ⟨_,_,rfl,.aside (.refl _) (.inr rfl) rfl rfl rfl rfl⟩
    · cases h
      exact ⟨_,_,rfl,.aside (.refl _) (.inl rfl) rfl rfl rfl rfl⟩
  | acquire admission bytes =>
    obtain ⟨⟨physical,result⟩,hacquire,h⟩ := Option.bind_eq_some_iff.mp h
    obtain ⟨hsub,hacquires⟩ := PhysicalRegistry.acquireOrReserve_entries hkeyed hacquire
    cases hacquires with
    | error e =>
      cases h
      exact ⟨_,_,rfl,.aside hsub (.inr rfl) rfl rfl rfl rfl⟩
    | hit hkey hmem =>
      cases h
      exact ⟨_,_,rfl,.find hsub rfl rfl hkey hmem⟩
    | install hkey =>
      cases h
      exact ⟨_,_,rfl,.reserve hsub hkey⟩
    | staleRequester =>
      cases h
      exact ⟨_,_,rfl,.aside hsub (.inr rfl) rfl rfl rfl rfl⟩
    | waits =>
      cases h
      obtain ⟨hlt,hcall⟩ := List.getElem?_eq_some_iff.mp hcall
      refine ⟨physical,.acquire admission bytes,?_,.aside hsub (.inl rfl) rfl rfl rfl rfl⟩
      rw [← hcall, List.set_getElem_self]
  | recheckPermit admission permit =>
    rw [Backend.advance] at h
    split_ifs at h
    · cases h
      exact ⟨_,_,rfl,.advance (.refl _) (.inl rfl) (fun other heq => ⟨other,heq,rfl⟩) rfl rfl⟩
    · cases h
      exact ⟨_,_,rfl,.aside (.refl _) (.inl rfl) rfl rfl rfl rfl⟩
  | build admission permit =>
    have hsub : (self.physical.chargeAllocation permit).1.entries.Subperm self.physical.entries :=
      (List.Perm.of_eq (PhysicalRegistry.chargeAllocation_entries _ _)).subperm
    rw [Backend.advance] at h
    split_ifs at h
    · cases h
      exact ⟨_,_,rfl,.aside (.refl _) (.inr rfl) rfl rfl rfl rfl⟩
    · split at h
      · rename_i physical e hcharge
        rw [hcharge] at hsub
        cases h
        exact ⟨_,_,rfl,.aside hsub (.inr rfl) rfl rfl rfl rfl⟩
      · rename_i physical lease hcharge
        rw [hcharge] at hsub
        cases h
        refine ⟨_,_,rfl,.advance hsub (.inl rfl) (fun other heq => ⟨permit,rfl,?_⟩) rfl rfl⟩
        cases heq
        rfl
  | recheckBuilt admission permit =>
    rw [Backend.advance] at h
    split_ifs at h
    · cases h
      exact ⟨_,_,rfl,.advance (.refl _) (.inl rfl) (fun other heq => ⟨other,heq,rfl⟩) rfl rfl⟩
    · cases h
      exact ⟨_,_,rfl,.aside (.refl _) (.inl rfl) rfl rfl rfl rfl⟩
  | install admission permit =>
    obtain ⟨⟨physical,result⟩,hinstall,h⟩ := Option.bind_eq_some_iff.mp h
    rcases PhysicalRegistry.install_entries hinstall with
      ⟨e,rfl,hentries⟩ | ⟨rfl,hkey,hentries⟩
    · cases h
      exact ⟨_,_,rfl,.aside (List.Perm.of_eq hentries).subperm (.inr rfl) rfl rfl rfl rfl⟩
    · cases h
      exact ⟨_,_,rfl,.install hkey rfl hentries⟩
  | recheck admission entry =>
    rw [Backend.advance] at h
    split_ifs at h with hcurrent
    · cases h
      exact ⟨_,_,rfl,.check rfl hcurrent⟩
    · cases h
      exact ⟨_,_,rfl,.advance (.refl _) (.inl rfl) (fun permit heq => by cases heq) rfl rfl⟩
  | retire admission entry =>
    obtain ⟨physical,hretire,h⟩ := Option.bind_eq_some_iff.mp h
    obtain ⟨hsub,hgone,-⟩ := PhysicalRegistry.retireKeyIfPresent_entries hkeyed hretire
    cases h
    exact ⟨_,_,rfl,.retire hsub hgone⟩
  | dispatch admission entry =>
    cases h
    exact ⟨_,_,rfl,.advance (.refl _) (.inl rfl) (fun permit heq => by cases heq) rfl rfl⟩
  | discard admission permit =>
    obtain ⟨physical,hdrop,h⟩ := Option.bind_eq_some_iff.mp h
    have hsub := (List.Perm.of_eq (PhysicalRegistry.dropBuilt_entries hdrop)).subperm
    cases h
    exact ⟨_,_,rfl,.aside hsub (.inl rfl) rfl rfl rfl rfl⟩
  | cancel permit outcome =>
    obtain ⟨physical,hdrop,h⟩ := Option.bind_eq_some_iff.mp h
    have hsub := (List.Perm.of_eq (PhysicalRegistry.dropPermit_entries hdrop)).subperm
    cases h
    exact ⟨_,_,rfl,.advance hsub (.inl rfl) (fun permit heq => by cases heq) rfl rfl⟩
  | release serial outcome =>
    obtain ⟨physical,hdrop,h⟩ := Option.bind_eq_some_iff.mp h
    have hsub := (List.Perm.of_eq (PhysicalRegistry.dropHandle_entries hdrop)).subperm
    cases h
    exact ⟨_,_,rfl,.advance hsub (.inl rfl) (fun permit heq => by cases heq) rfl rfl⟩
  | finished outcome => cases h

end Advance

end MicroExpertRouter.Routing
