import MicroExpertRouter.Arena.System

/-! Stale expert bytes are never executable. The physical write of a permit happens outside the
arena lock, so a slot may be reused before a late write lands. The epoch word keeps the shader
from executing such bytes: every reservation of a slot has an epoch of its own. -/
namespace MicroExpertRouter.Arena

/-- What releases leave behind. -/
structure Recedes (a b : ExpertArena) : Prop where
  capacity : b.state.slotCapacity = a.state.slotCapacity
  geometry : b.geometry = a.geometry
  location : ∀ t, (b.state.slots t).location = (a.state.slots t).location
  epoch : ∀ t, (b.state.slots t).lastEpoch = (a.state.slots t).lastEpoch
  owner : ∀ t, b.state.owner t = a.state.owner t ∨ b.state.owner t = .free
  latest : ∀ e g, a.state.latestGenerations e = some g →
    ∃ g', g ≤ g' ∧ b.state.latestGenerations e = some g'

namespace Recedes
variable {a b c : ExpertArena}

lemma refl (a : ExpertArena) : Recedes a a :=
  ⟨rfl,rfl,fun _ => rfl,fun _ => rfl,fun _ => .inl rfl,fun _ g h => ⟨g,le_rfl,h⟩⟩

lemma trans (h : Recedes a b) (h' : Recedes b c) : Recedes a c := by
  refine ⟨h'.capacity.trans h.capacity,h'.geometry.trans h.geometry,
    fun t => (h'.location t).trans (h.location t),fun t => (h'.epoch t).trans (h.epoch t),
    fun t => ?_,fun e g hg => ?_⟩
  · rcases h'.owner t with hc | hc
    · rw [hc]
      exact h.owner t
    · exact .inr hc
  · obtain ⟨g₁,hle,hg₁⟩ := h.latest e g hg
    obtain ⟨g₂,hle',hg₂⟩ := h'.latest e g₁ hg₁
    exact ⟨g₂,hle.trans hle',hg₂⟩

/-- Freeing one slot. -/
lemma frame {flat e : ℕ} (h : Frame a b flat e)
    (hslot : b.state.slots flat = { a.state.slots flat with owner := .free }) : Recedes a b := by
  refine ⟨h.capacity,h.geometry,h.locations,fun t => ?_,fun t => ?_,fun e g hg => ⟨g,le_rfl,?_⟩⟩
  · by_cases ht : t = flat
    · rw [ht, hslot]
    · rw [h.slots t ht]
  · by_cases ht : t = flat
    · right
      rw [ht, ArenaState.owner, hslot]
    · left
      exact h.owner ht
  · rw [h.latest]
    exact hg

lemma of_release (h : Release a b) : Recedes a b := by
  cases h with
  | reject => exact ⟨rfl,rfl,fun _ => rfl,fun _ => rfl,fun _ => .inl rfl,fun _ g h => ⟨g,le_rfl,h⟩⟩
  | @retire flat residency owner =>
    exact frame (a.retireSlot_frame flat _) (a.slots_release flat residency.key.expertId)
  | @cancel flat slotEpoch ticket key owner =>
    exact frame (a.cancelSlot_frame flat _) (a.slots_release flat key.expertId)
  | @raise key logical newer =>
    refine ⟨rfl,rfl,fun _ => rfl,fun _ => rfl,fun _ => .inl rfl,fun e g hg => ?_⟩
    by_cases he : e = key.expertId
    · subst he
      exact ⟨key.logicalGeneration,newer g hg,Function.update_self _ _ _⟩
    · refine ⟨g,le_rfl,?_⟩
      change Function.update a.state.latestGenerations key.expertId _ e = _
      rw [Function.update_of_ne he]
      exact hg

lemma of_releases (h : Releases a b) : Recedes a b := by
  induction h with
  | refl => exact refl a
  | tail _ hrelease ih => exact ih.trans (of_release hrelease)

end Recedes

/-- Location and epoch of a reservation. -/
def ExpertResidency.place (residency : ExpertResidency) : ExpertLocation × ℕ :=
  (residency.location,residency.slotEpoch)

/-- Phases before the physical write. -/
def Phase.Unwritten : Phase → Prop
  | .reserved => True
  | .staging _ _ => True
  | _ => False

/-- The histories of a system agree with its tables and with the contents of the slots. -/
structure Histories {ρ : Type} (s : System ρ) : Prop where
  issued : ∀ residency ∈ s.reservations, ∃ t, t<s.arena.state.slotCapacity ∧
    (s.arena.state.slots t).location = residency.location ∧
      residency.slotEpoch ≤ (s.arena.state.slots t).lastEpoch
  unique : (s.reservations.map ExpertResidency.place).Nodup
  held : ∀ r requester, s.pool r = some requester → requester.permit.residency ∈ s.reservations
  apart : ∀ r r' requester requester', s.pool r = some requester → s.pool r' = some requester' →
    requester.permit.residency.place = requester'.permit.residency.place → r = r'
  staged : ∀ entry ∈ s.staged, entry.1 ∈ s.reservations ∧
    s.arena.geometry.logicalExpertBytes ≤ entry.2.length
  once : (s.staged.map (fun entry => entry.1.place)).Nodup
  unwritten : ∀ r requester, s.pool r = some requester → requester.phase.Unwritten →
    ∀ entry ∈ s.staged, entry.1.place ≠ requester.permit.residency.place
  prepared : ∀ r permit entry, s.pool r = some ⟨permit,.prepared entry⟩ →
    ∃ payload, (permit.residency,payload) ∈ s.staged
  resident : ∀ t residency, s.arena.state.owner t = .resident residency →
    ∃ payload, (residency,payload) ∈ s.staged
  memory : ∀ entry ∈ s.staged, ∃ last ∈ s.staged, last.1.location = entry.1.location ∧
    s.memory entry.1.location = slotBytes s.arena.geometry last.1.slotEpoch last.2

namespace Histories
variable {ρ : Type} {s : System ρ}

lemma arena (h : Histories s) {arena : ExpertArena} (hrecedes : Recedes s.arena arena) :
    Histories { s with arena := arena } := by
  refine ⟨fun residency hmem => ?_,h.unique,h.held,h.apart,fun entry hmem => ?_,h.once,h.unwritten,
    h.prepared,fun t residency howner => ?_,fun entry hmem => ?_⟩
  · obtain ⟨t,ht,hlocation,hepoch⟩ := h.issued residency hmem
    refine ⟨t,hrecedes.capacity ▸ ht,?_,?_⟩
    · rw [hrecedes.location]
      exact hlocation
    · rw [hrecedes.epoch]
      exact hepoch
  · dsimp only
    rw [hrecedes.geometry]
    exact h.staged entry hmem
  · rcases hrecedes.owner t with hsame | hfree
    · exact h.resident t residency (hsame.symm.trans howner)
    · cases hfree.symm.trans howner
  · dsimp only
    rw [hrecedes.geometry]
    exact h.memory entry hmem

lemma publish (h : Histories s) {permit : InstallPermit} {entry : MappingEntry}
    (hstaged : ∃ payload, (permit.residency,payload) ∈ s.staged) :
    Histories { s with arena := s.arena.publish permit entry } := by
  have hframe := s.arena.publish_frame permit entry
  refine ⟨fun residency hmem => ?_,h.unique,h.held,h.apart,h.staged,h.once,h.unwritten,
    h.prepared,fun t residency howner => ?_,h.memory⟩
  · obtain ⟨t,ht,hlocation,hepoch⟩ := h.issued residency hmem
    refine ⟨t,ht,?_,?_⟩
    · rw [hframe.locations]
      exact hlocation
    · by_cases hflat : t = permit.flatSlot
      · subst hflat
        rw [s.arena.slots_publish]
        exact hepoch
      · rw [hframe.slots t hflat]
        exact hepoch
  · by_cases hflat : t = permit.flatSlot
    · subst hflat
      rw [ArenaState.owner, s.arena.slots_publish] at howner
      cases howner
      exact hstaged
    · rw [hframe.owner hflat] at howner
      exact h.resident t residency howner

lemma recordPublication (h : Histories s) (key : ExpertKey) :
    Histories (s.recordPublication key) :=
  ⟨h.issued,h.unique,h.held,h.apart,h.staged,h.once,h.unwritten,h.prepared,h.resident,h.memory⟩

variable [DecidableEq ρ]

/-- A requester goes on with the permit it holds, or without one. -/
lemma replace (h : Histories s) {r : ρ} {old : Requester} {next : Option Requester}
    (hpool : s.pool r = some old)
    (hnext : ∀ requester, next = some requester → requester.permit = old.permit ∧
      (requester.phase.Unwritten → old.phase.Unwritten) ∧
      ∀ entry, requester.phase = .prepared entry →
        ∃ payload, (requester.permit.residency,payload) ∈ s.staged) :
    Histories (s.enter s.arena r next) := by
  have hcases : ∀ x requester, (s.enter s.arena r next).pool x = some requester →
      ∃ before, s.pool x = some before ∧ requester.permit = before.permit ∧
        (requester.phase.Unwritten → before.phase.Unwritten) ∧
        ∀ entry, requester.phase = .prepared entry →
          ∃ payload, (requester.permit.residency,payload) ∈ s.staged := by
    intro x requester hx
    change Function.update s.pool r next x = some requester at hx
    rw [Function.update_apply] at hx
    split_ifs at hx with heq
    · subst heq
      exact ⟨old,hpool,hnext requester hx⟩
    · refine ⟨requester,hx,rfl,id,fun entry hphase => ?_⟩
      refine h.prepared x requester.permit entry ?_
      rw [hx, ← hphase]
  refine ⟨h.issued,h.unique,fun x requester hx => ?_,fun x y requester requester' hx hy hplace => ?_,
    h.staged,h.once,fun x requester hx hunwritten => ?_,fun x permit entry hx => ?_,
    h.resident,h.memory⟩
  · obtain ⟨before,hbefore,hpermit,-⟩ := hcases x requester hx
    rw [hpermit]
    exact h.held x before hbefore
  · obtain ⟨before,hbefore,hpermit,-⟩ := hcases x requester hx
    obtain ⟨before',hbefore',hpermit',-⟩ := hcases y requester' hy
    rw [hpermit, hpermit'] at hplace
    exact h.apart x y before before' hbefore hbefore' hplace
  · obtain ⟨before,hbefore,hpermit,hphase,-⟩ := hcases x requester hx
    rw [hpermit]
    exact h.unwritten x before hbefore (hphase hunwritten)
  · obtain ⟨before,-,-,-,hprepared⟩ := hcases x ⟨permit,.prepared entry⟩ hx
    exact hprepared entry rfl

/-- A physical write by a permit that has not written yet, late or not. -/
lemma write (h : Histories s) {r : ρ} {old : Requester} {payload : List UInt8}
    {next : Option Requester} (hpool : s.pool r = some old) (hunwritten : old.phase.Unwritten)
    (hpayload : s.arena.geometry.logicalExpertBytes ≤ payload.length)
    (hnext : ∀ requester, next = some requester → requester.permit = old.permit ∧
      ¬ requester.phase.Unwritten) :
    Histories ((s.written old.permit.residency payload).enter s.arena r next) := by
  set residency := old.permit.residency with hresidency
  have hheld := h.held r old hpool
  have hfresh := h.unwritten r old hpool hunwritten
  have hcases : ∀ x requester,
      ((s.written residency payload).enter s.arena r next).pool x = some requester →
      x = r ∧ requester.permit = old.permit ∧ ¬ requester.phase.Unwritten ∨
        x ≠ r ∧ s.pool x = some requester := by
    intro x requester hx
    change Function.update s.pool r next x = some requester at hx
    rw [Function.update_apply] at hx
    split_ifs at hx with heq
    · exact .inl ⟨heq,hnext requester hx⟩
    · exact .inr ⟨heq,hx⟩
  have hkept : ∀ x requester,
      ((s.written residency payload).enter s.arena r next).pool x = some requester →
      ∃ before, s.pool x = some before ∧ requester.permit = before.permit := by
    intro x requester hx
    rcases hcases x requester hx with ⟨rfl,hpermit,-⟩ | ⟨-,hsame⟩
    · exact ⟨old,hpool,hpermit⟩
    · exact ⟨requester,hsame,rfl⟩
  refine ⟨h.issued,h.unique,fun x requester hx => ?_,fun x y requester requester' hx hy hplace => ?_,
    fun entry hmem => ?_,?_,fun x requester hx hphase entry hmem => ?_,
    fun x permit entry hx => ?_,fun t resident howner => ?_,fun entry hmem => ?_⟩
  · obtain ⟨before,hbefore,hpermit⟩ := hkept x requester hx
    rw [hpermit]
    exact h.held x before hbefore
  · obtain ⟨before,hbefore,hpermit⟩ := hkept x requester hx
    obtain ⟨before',hbefore',hpermit'⟩ := hkept y requester' hy
    rw [hpermit, hpermit'] at hplace
    exact h.apart x y before before' hbefore hbefore' hplace
  · rcases List.mem_cons.mp hmem with rfl | hmem
    · exact ⟨hheld,hpayload⟩
    · exact h.staged entry hmem
  · change ((residency,payload)::s.staged |>.map (fun entry => entry.1.place)).Nodup
    rw [List.map_cons, List.nodup_cons]
    refine ⟨fun hmem => ?_,h.once⟩
    obtain ⟨entry,hentry,hplace⟩ := List.mem_map.mp hmem
    exact hfresh entry hentry hplace
  · rcases hcases x requester hx with ⟨-,-,hwritten⟩ | ⟨hne,hsame⟩
    · exact absurd hphase hwritten
    · rcases List.mem_cons.mp hmem with rfl | hmem
      · intro hplace
        exact hne (h.apart r x old requester hpool hsame hplace).symm
      · exact h.unwritten x requester hsame hphase entry hmem
  · rcases hcases x ⟨permit,.prepared entry⟩ hx with ⟨-,hpermit,-⟩ | ⟨-,hsame⟩
    · change permit = old.permit at hpermit
      exact ⟨payload,by rw [hpermit]; exact List.mem_cons_self⟩
    · obtain ⟨earlier,hearlier⟩ := h.prepared x permit entry hsame
      exact ⟨earlier,List.mem_cons_of_mem _ hearlier⟩
  · obtain ⟨earlier,hearlier⟩ := h.resident t resident howner
    exact ⟨earlier,List.mem_cons_of_mem _ hearlier⟩
  · change ∃ last ∈ (residency,payload)::s.staged, last.1.location = entry.1.location ∧
      Function.update s.memory residency.location _ entry.1.location = _
    by_cases hlocation : entry.1.location = residency.location
    · refine ⟨(residency,payload),List.mem_cons_self,hlocation.symm,?_⟩
      rw [hlocation, Function.update_self]
      rfl
    · rw [Function.update_of_ne hlocation]
      rcases List.mem_cons.mp hmem with rfl | hmem
      · exact absurd rfl hlocation
      · obtain ⟨last,hlast,hsame,hbytes⟩ := h.memory entry hmem
        exact ⟨last,List.mem_cons_of_mem _ hlast,hsame,hbytes⟩

/-- A new reservation has a place of its own: its epoch is above all earlier ones of the slot. -/
lemma reserve (h : Histories s) (htables : Tables s.arena) {r : ρ} {flat : ℕ} {key : ExpertKey}
    (hidle : s.pool r = none) (hguard : Reservable s.arena flat key) :
    Histories ((s.enter (s.arena.occupy flat key) r
      (some ⟨s.arena.permitFor flat key,.reserved⟩)).reserved
        (s.arena.permitFor flat key).residency) := by
  set residency := (s.arena.permitFor flat key).residency with hresidency
  have hframe := s.arena.occupy_frame flat key
  have hfresh : ∀ earlier ∈ s.reservations, earlier.place ≠ residency.place := by
    intro earlier hmem hplace
    obtain ⟨t,ht,hlocation,hepoch⟩ := h.issued earlier hmem
    obtain ⟨hsame,hlast⟩ := Prod.mk.inj hplace
    have hflat : t = flat := htables.distinct t flat ht hguard.capacity (hlocation.trans hsame)
    subst hflat
    change earlier.slotEpoch = (s.arena.state.slots t).lastEpoch+1 at hlast
    omega
  have hcases : ∀ x requester, Function.update s.pool r
      (some ⟨s.arena.permitFor flat key,.reserved⟩) x = some requester →
      x = r ∧ requester = ⟨s.arena.permitFor flat key,.reserved⟩ ∨
        x ≠ r ∧ s.pool x = some requester := by
    intro x requester hx
    rw [Function.update_apply] at hx
    split_ifs at hx with heq
    · exact .inl ⟨heq,(Option.some.inj hx).symm⟩
    · exact .inr ⟨heq,hx⟩
  refine ⟨fun earlier hmem => ?_,?_,fun x requester hx => ?_,
    fun x y requester requester' hx hy hplace => ?_,fun entry hmem => ?_,h.once,
    fun x requester hx hphase entry hmem => ?_,fun x permit entry hx => ?_,
    fun t resident howner => ?_,h.memory⟩
  · rcases List.mem_cons.mp hmem with rfl | hmem
    · refine ⟨flat,hguard.capacity,hframe.location,?_⟩
      change (s.arena.state.slots flat).lastEpoch+1 ≤
        ((s.arena.occupy flat key).state.slots flat).lastEpoch
      rw [s.arena.slots_occupy]
    · obtain ⟨t,ht,hlocation,hepoch⟩ := h.issued earlier hmem
      refine ⟨t,ht,(hframe.locations t).trans hlocation,hepoch.trans ?_⟩
      change _ ≤ ((s.arena.occupy flat key).state.slots t).lastEpoch
      by_cases ht : t = flat
      · rw [ht, s.arena.slots_occupy]
        exact Nat.le_succ _
      · rw [hframe.slots t ht]
  · change ((residency::s.reservations).map ExpertResidency.place).Nodup
    rw [List.map_cons, List.nodup_cons]
    refine ⟨fun hmem => ?_,h.unique⟩
    obtain ⟨earlier,hearlier,hplace⟩ := List.mem_map.mp hmem
    exact hfresh earlier hearlier hplace
  · rcases hcases x requester hx with ⟨-,rfl⟩ | ⟨-,hsame⟩
    · exact List.mem_cons_self
    · exact List.mem_cons_of_mem _ (h.held x requester hsame)
  · rcases hcases x requester hx with ⟨rfl,rfl⟩ | ⟨hx',hsame⟩
    · rcases hcases y requester' hy with ⟨rfl,-⟩ | ⟨-,hsame'⟩
      · rfl
      · exact absurd hplace.symm (hfresh _ (h.held y requester' hsame'))
    · rcases hcases y requester' hy with ⟨-,rfl⟩ | ⟨-,hsame'⟩
      · exact absurd hplace (hfresh _ (h.held x requester hsame))
      · exact h.apart x y requester requester' hsame hsame' hplace
  · exact ⟨List.mem_cons_of_mem _ (h.staged entry hmem).1,(h.staged entry hmem).2⟩
  · rcases hcases x requester hx with ⟨-,rfl⟩ | ⟨-,hsame⟩
    · exact hfresh _ (h.staged entry hmem).1
    · exact h.unwritten x requester hsame hphase entry hmem
  · rcases hcases x _ hx with ⟨-,heq⟩ | ⟨-,hsame⟩
    · cases heq
    · exact h.prepared x permit entry hsame
  · by_cases ht : t = flat
    · subst ht
      change (s.arena.occupy t key).state.owner t = _ at howner
      rw [ArenaState.owner, s.arena.slots_occupy] at howner
      cases howner
    · exact h.resident t resident ((hframe.owner ht).symm.trans howner)

theorem effect {s' : System ρ} (h : Histories s) (hok : SystemOk s) (heffect : Effect s s') :
    Histories s' := by
  cases heffect with
  | arena moves => exact h.arena (.of_releases moves)
  | @reserve r b flat key idle moves guard =>
    have hreleased := h.arena (.of_releases moves)
    exact hreleased.reserve (hok.tables.moves moves.moves) idle guard
  | check holds entry_ok payload_ok =>
    refine h.replace holds ?_
    rintro _ ⟨⟩
    exact ⟨rfl,fun _ => trivial,nofun⟩
  | write holds =>
    refine h.write holds trivial (hok.phases _ _ holds).2 ?_
    rintro _ ⟨⟩
    exact ⟨rfl,id⟩
  | @publish r permit entry holds current =>
    have hpublished := @publish ρ s h permit entry (h.prepared _ _ _ holds)
    have hgone : Histories (s.enter (s.arena.publish permit entry) r none) :=
      hpublished.replace holds nofun
    exact hgone.recordPublication _
  | @install r permit payload entry holds entry_ok payload_ok current =>
    have hwritten : Histories ((s.written permit.residency payload).enter s.arena r none) :=
      h.write holds trivial payload_ok nofun
    have hstaged : ∃ bytes, (permit.residency,bytes) ∈
        ((s.written permit.residency payload).enter s.arena r none).staged :=
      ⟨payload,List.mem_cons_self⟩
    exact (@publish ρ _ hwritten permit entry hstaged).recordPublication _
  | @fail r requester arena next holds moves gone =>
    have hreleased := h.arena (.of_releases moves)
    refine hreleased.replace holds ?_
    rintro _ rfl
    rcases gone with gone | gone
    · cases gone
    · cases gone
      exact ⟨rfl,False.elim,nofun⟩

end Histories

/-- Uploaded slots hold the uploaded bytes; the locations of uploads differ. -/
lemma foldl_update_mem {α β : Type*} [DecidableEq α] {writes : List (α × β)} {x : α} {y : β}
    (hnodup : (writes.map Prod.fst).Nodup) (hmem : (x,y) ∈ writes) (f : α → β) :
    writes.foldl (fun f write => Function.update f write.1 write.2) f x = y := by
  induction writes generalizing f with
  | nil => cases hmem
  | cons first writes ih =>
    rw [List.map_cons, List.nodup_cons] at hnodup
    rw [List.foldl_cons]
    rcases List.mem_cons.mp hmem with rfl | hmem
    · have hkeep : ∀ (rest : List (α × β)) (g : α → β), x ∉ rest.map Prod.fst →
          rest.foldl (fun f write => Function.update f write.1 write.2) g x = g x := by
        intro rest
        induction rest with
        | nil => exact fun _ _ => rfl
        | cons head rest ih =>
          intro g hnot
          rw [List.map_cons, List.mem_cons, not_or] at hnot
          rw [List.foldl_cons, ih _ hnot.2, Function.update_of_ne hnot.1]
      rw [hkeep writes _ hnodup.1, Function.update_self]
    · exact ih hnodup.2 hmem _

theorem Histories.initial {ρ : Type} {layerIndex : ℕ} {geometry : ExpertGeometry}
    {layout : ArenaLayout} {memory : ExpertLocation → List UInt8} {uploads : List Upload}
    {prepared : PreparedUploads} (hlayout : layout.WellFormed)
    (h : validateUploads layerIndex geometry layout uploads = .ok prepared) :
    Histories (System.initial ρ layerIndex geometry memory uploads prepared) := by
  obtain ⟨⟨used,hloaded⟩,-⟩ := validateUploads_loaded hlayout h
  have hplaces : (uploads.map fun upload => (upload.residency layerIndex).place).Nodup := by
    have hpairs : (uploads.map fun upload => (upload.residency layerIndex).place) =
        (uploads.map Upload.location).map (fun location => (location,1)) := by
      rw [List.map_map]
      rfl
    rw [hpairs]
    exact hloaded.places.map fun a b hab => (Prod.mk.inj hab).1
  refine ⟨fun residency hmem => ?_,?_,nofun,nofun,fun entry hmem => ?_,?_,nofun,nofun,
    fun t residency howner => ?_,fun entry hmem => ?_⟩
  · obtain ⟨upload,hupload,rfl⟩ := List.mem_map.mp hmem
    obtain ⟨t,ht,hlocation,howner⟩ := hloaded.placed upload hupload
    refine ⟨t,hloaded.capacity ▸ ht,hlocation,?_⟩
    have hepoch := (hloaded.tables.slot t).epoch 1 (by
      change (prepared.state.owner t).epoch? = _
      rw [howner]
      rfl)
    exact hepoch.le
  · change ((uploads.map (Upload.residency · layerIndex)).map ExpertResidency.place).Nodup
    rw [List.map_map]
    exact hplaces
  · obtain ⟨upload,hupload,rfl⟩ := List.mem_map.mp hmem
    exact ⟨List.mem_map_of_mem hupload,hloaded.payloads upload hupload⟩
  · change ((uploads.map fun upload => (upload.residency layerIndex,upload.payload)).map
      (fun entry => entry.1.place)).Nodup
    rw [List.map_map]
    exact hplaces
  · change prepared.state.owner t = _ at howner
    rcases hloaded.owners t with hfree | ⟨upload,hupload,hresident⟩
    · rw [hfree] at howner
      cases howner
    · rw [hresident] at howner
      cases howner
      exact ⟨upload.payload,List.mem_map.mpr ⟨upload,hupload,rfl⟩⟩
  · obtain ⟨upload,hupload,rfl⟩ := List.mem_map.mp hmem
    refine ⟨_,hmem,rfl,?_⟩
    change prepared.physicalSlots.foldl _ memory upload.location = _
    rw [hloaded.bytes]
    apply foldl_update_mem
    · rw [List.map_map]
      exact hloaded.places
    · exact List.mem_map.mpr ⟨upload,hupload,rfl⟩

/-- Generations become resident in order. -/
structure Ordered {ρ : Type} (s : System ρ) : Prop where
  latest : ∀ key ∈ s.published, ∃ generation, key.logicalGeneration ≤ generation ∧
    s.arena.state.latestGenerations key.expertId = some generation
  sorted : s.published.Pairwise fun newer older => newer.expertId = older.expertId →
    older.logicalGeneration ≤ newer.logicalGeneration

namespace Ordered
variable {ρ : Type} {s s' : System ρ}

lemma recedes (h : Ordered s) (hrecedes : Recedes s.arena s'.arena)
    (hpublished : s'.published = s.published) : Ordered s' := by
  refine ⟨fun key hmem => ?_,by rw [hpublished]; exact h.sorted⟩
  rw [hpublished] at hmem
  obtain ⟨generation,hle,hlatest⟩ := h.latest key hmem
  obtain ⟨later,hlater,hsome⟩ := hrecedes.latest _ _ hlatest
  exact ⟨later,hle.trans hlater,hsome⟩

lemma publish (h : Ordered s) {key : ExpertKey}
    (hcurrent : s.arena.state.latestGenerations key.expertId = some key.logicalGeneration)
    (hlatest : s'.arena.state.latestGenerations = s.arena.state.latestGenerations)
    (hpublished : s'.published = key::s.published) : Ordered s' := by
  refine ⟨fun other hmem => ?_,?_⟩
  · rw [hpublished] at hmem
    rw [hlatest]
    rcases List.mem_cons.mp hmem with rfl | hmem
    · exact ⟨_,le_rfl,hcurrent⟩
    · exact h.latest other hmem
  · rw [hpublished, List.pairwise_cons]
    refine ⟨fun older hmem heq => ?_,h.sorted⟩
    obtain ⟨generation,hle,hsome⟩ := h.latest older hmem
    rw [← heq, hcurrent] at hsome
    exact hle.trans (Option.some.inj hsome).ge

variable [DecidableEq ρ]

theorem effect (h : Ordered s) (heffect : Effect s s') : Ordered s' := by
  cases heffect with
  | arena moves => exact h.recedes (.of_releases moves) rfl
  | reserve idle moves guard =>
    have hreleased := Recedes.of_releases moves
    refine ⟨fun key hmem => ?_,h.sorted⟩
    obtain ⟨generation,hle,hlatest⟩ := h.latest key hmem
    obtain ⟨later,hlater,hsome⟩ := hreleased.latest _ _ hlatest
    exact ⟨later,hle.trans hlater,hsome⟩
  | check holds entry_ok payload_ok => exact ⟨h.latest,h.sorted⟩
  | write holds => exact ⟨h.latest,h.sorted⟩
  | publish holds current => exact h.publish current.1 rfl rfl
  | install holds entry_ok payload_ok current => exact h.publish current.1 rfl rfl
  | fail holds moves gone => exact h.recedes (.of_releases moves) rfl

end Ordered

theorem Ordered.initial {ρ : Type} {layerIndex : ℕ} {geometry : ExpertGeometry}
    {layout : ArenaLayout} {memory : ExpertLocation → List UInt8} {uploads : List Upload}
    {prepared : PreparedUploads} (hlayout : layout.WellFormed)
    (h : validateUploads layerIndex geometry layout uploads = .ok prepared) :
    Ordered (System.initial ρ layerIndex geometry memory uploads prepared) := by
  obtain ⟨⟨used,hloaded⟩,-⟩ := validateUploads_loaded hlayout h
  refine ⟨fun key hmem => ?_,?_⟩
  · obtain ⟨upload,hupload,rfl⟩ := List.mem_map.mp hmem
    obtain ⟨t,-,-,howner⟩ := hloaded.placed upload hupload
    refine ⟨_,le_rfl,(hloaded.tables.slot t).latest (upload.residency layerIndex).key ?_⟩
    change (prepared.state.owner t).key? = _
    rw [howner]
    rfl
  · change (uploads.map fun upload => (upload.residency layerIndex).key).Pairwise _
    rw [List.pairwise_map]
    have hexperts := hloaded.experts
    rw [List.Nodup, List.pairwise_map] at hexperts
    exact hexperts.imp fun hne heq => absurd heq hne

/-- The slot of a permit is no longer installing for it. -/
def Lost (arena : ExpertArena) (permit : InstallPermit) : Prop :=
  arena.state.owner permit.flatSlot ≠
    .installing permit.key permit.residency.slotEpoch permit.installTicket

lemma reservationCurrent_iff_not_lost {arena : ExpertArena} {permit : InstallPermit}
    (h : Tables arena) : permit.reservationCurrent arena.state ↔ ¬ Lost arena permit := by
  unfold Lost
  rw [not_not]
  exact ⟨fun hcurrent => hcurrent.2.2,h.current⟩

/-- A lost reservation stays lost: a slot reserved again has a larger epoch. -/
lemma Lost.move {a b : ExpertArena} {permit : InstallPermit} (h : Lost a permit)
    (hpermit : PermitOk a permit) (hmove : Move a b) : Lost b permit := by
  intro howner
  cases hmove with
  | release release =>
    rcases (Recedes.of_release release).owner permit.flatSlot with hsame | hfree
    · exact h (hsame.symm.trans howner)
    · cases hfree.symm.trans howner
  | @occupy flat key guard =>
    by_cases hflat : permit.flatSlot = flat
    · subst hflat
      rw [ArenaState.owner, a.slots_occupy] at howner
      have hepoch := (SlotOwner.installing.inj howner).2.1
      have hle := hpermit.epoch
      omega
    · exact h (((a.occupy_frame flat key).owner hflat).symm.trans howner)
  | @publish other entry guard =>
    by_cases hflat : permit.flatSlot = other.flatSlot
    · rw [hflat, ArenaState.owner, a.slots_publish] at howner
      cases howner
    · exact h (((a.publish_frame other entry).owner hflat).symm.trans howner)

lemma Lost.moves {a b : ExpertArena} {permit : InstallPermit} (h : Lost a permit)
    (hpermit : PermitOk a permit) (hmoves : Moves a b) : Lost b permit := by
  induction hmoves with
  | refl => exact h
  | tail hmoves hmove ih => exact ih.move (hpermit.moves hmoves) hmove

/-- The arena of a step has made moves. -/
lemma Effect.moves {ρ : Type} [DecidableEq ρ] {s s' : System ρ} (h : SystemOk s)
    (heffect : Effect s s') : Moves s.arena s'.arena := by
  cases heffect with
  | arena moves => exact moves.moves
  | reserve idle moves guard => exact moves.moves.tail (.occupy guard)
  | check holds entry_ok payload_ok => exact .refl
  | write holds => exact .refl
  | publish holds current =>
    exact .single (.publish (h.publishable holds (h.phases _ _ holds) current))
  | install holds entry_ok payload_ok current =>
    exact .single (.publish (h.publishable holds entry_ok current))
  | fail holds moves gone => exact moves.moves

lemma SystemOk.run_moves {ρ : Type} [DecidableEq ρ] {s s' : System ρ} (h : SystemOk s)
    {actions : List (Action ρ)} (hrun : s.run actions = some s') : Moves s.arena s'.arena := by
  induction actions generalizing s with
  | nil =>
    obtain rfl := Option.some.inj hrun
    exact .refl
  | cons action actions ih =>
    obtain ⟨next,hnext,hrun⟩ := Option.bind_eq_some_iff.mp hrun
    exact (Effect.moves h (System.step_effect h.tables hnext)).trans (ih (h.step hnext) hrun)

/-- The requester that takes a step; retirement needs no permit. -/
def Action.actor {ρ : Type} : Action ρ → Option ρ
  | .acquire r _ => some r
  | .stage r _ => some r
  | .write r _ => some r
  | .commit r => some r
  | .install r _ _ => some r
  | .drop r => some r
  | .retire _ => none

/-- The steps that cancel a permit, retire its key or supersede its generation. -/
def Action.Withdraws {ρ : Type} (r : ρ) (layerIndex : ℕ) (permit : InstallPermit) :
    Action ρ → Prop
  | .drop x => x = r
  | .retire key => key = permit.key
  | .acquire _ key => key.layerIndex = layerIndex ∧ key.expertId = permit.key.expertId ∧
      permit.key.logicalGeneration<key.logicalGeneration
  | _ => False

/-- The step published nothing and left slots, logical slots and mapping alone. -/
structure Untouched {ρ : Type} (s s' : System ρ) : Prop where
  slots : s'.arena.state.slots = s.arena.state.slots
  logicalSlots : s'.arena.state.logicalSlots = s.arena.state.logicalSlots
  mapping : s'.arena.mapping = s.arena.mapping
  published : s'.published = s.published

namespace ExpertArena
variable {arena : ExpertArena} {permit : InstallPermit}

lemma stageCheck_arena (arena : ExpertArena) (permit : InstallPermit) (payload : List UInt8) :
    (arena.stageCheck permit payload).1 = arena ∨
      (arena.stageCheck permit payload).1 = arena.rejectStale := by
  unfold stageCheck
  split
  · exact .inl rfl
  · split
    · exact .inl rfl
    · split_ifs
      · exact .inl rfl
      · exact .inr rfl

/-- Dropping a permit whose slot has gone to another ticket does nothing. -/
lemma cancelInstall_lost (hpermit : PermitOk arena permit) (hlost : Lost arena permit) :
    arena.cancelInstall permit.flatSlot permit.installTicket = arena := by
  unfold cancelInstall
  split
  · rename_i key slotEpoch current howner
    split_ifs with hticket
    · subst hticket
      obtain ⟨rfl,rfl⟩ := hpermit.owner key slotEpoch howner
      exact absurd howner hlost
    · rfl
  · rfl

/-- A freed slot installs for nobody. -/
lemma cancelSlot_lost (arena : ExpertArena) (permit : InstallPermit) :
    Lost (arena.cancelSlot permit.flatSlot permit.key.expertId) permit := by
  unfold Lost
  change (((arena.state.release permit.flatSlot permit.key.expertId).slots
    permit.flatSlot).owner) ≠ _
  rw [arena.slots_release]
  nofun

lemma retire_current (h : Tables arena) (hcurrent : permit.reservationCurrent arena.state) :
    Lost (arena.retire permit.key).1 permit := by
  have hkey : (arena.state.owner permit.flatSlot).key? = some permit.key := by
    rw [hcurrent.2.2]
    rfl
  rw [(retire_owned h hkey).2 _ _ _ hcurrent.2.2]
  exact arena.cancelSlot_lost permit

lemma reserve_latest (arena : ExpertArena) (key : ExpertKey) :
    (arena.reserve key).1.state.latestGenerations key.expertId = some key.logicalGeneration := by
  have hraised : (arena.raiseGeneration key).state.latestGenerations key.expertId =
      some key.logicalGeneration := Function.update_self _ _ _
  unfold reserve
  dsimp only
  split
  · split
    · exact hraised
    · exact hraised
  · split_ifs
    · exact hraised
    · exact hraised

/-- Asking for a generation leaves no older one as the latest. -/
lemma acquire_latest (h : Tables arena) {key : ExpertKey}
    (hlayer : key.layerIndex = arena.layerIndex) (hrange : key.expertId<arena.geometry.numExperts)
    (hpositive : 0<key.logicalGeneration) : ∃ generation, key.logicalGeneration ≤ generation ∧
      (arena.acquire key).1.state.latestGenerations key.expertId = some generation := by
  unfold acquire
  rw [if_neg (not_not.mpr hlayer), if_neg (Nat.not_le.mpr hrange),
    if_neg (Nat.pos_iff_ne_zero.mp hpositive)]
  have hreserve : ∀ other : ExpertArena, ∃ generation, key.logicalGeneration ≤ generation ∧
      (other.reserve key).1.state.latestGenerations key.expertId = some generation :=
    fun other => ⟨_,le_rfl,other.reserve_latest key⟩
  cases hlatest : arena.state.latestGenerations key.expertId with
  | none => exact hreserve arena
  | some latest =>
    dsimp only
    by_cases hstale : key.logicalGeneration<latest
    · rw [if_pos hstale]
      exact ⟨latest,hstale.le,hlatest⟩
    rw [if_neg hstale]
    cases hlogical : arena.state.logicalSlots key.expertId with
    | none => exact hreserve arena
    | some flat =>
      obtain ⟨owned,howned,-⟩ := owner_of_logical h hlogical
      dsimp only
      by_cases hequal : key.logicalGeneration = latest
      · rw [if_pos hequal]
        exact ⟨latest,hequal.le,hlatest⟩
      · rw [if_neg hequal]
        cases howner : arena.state.owner flat with
        | free =>
          rw [howner] at howned
          cases howned
        | installing installing slotEpoch ticket => exact hreserve _
        | resident residency => exact hreserve _

end ExpertArena

namespace SystemOk
variable {ρ : Type} [DecidableEq ρ] {s s' : System ρ} {r : ρ} {permit : InstallPermit}
  {phase : Phase}

lemma stepAcquire_arena {x : ρ} {key : ExpertKey} (hstep : s.stepAcquire x key = some s') :
    s'.arena = (s.arena.acquire key).1 := by
  unfold System.stepAcquire at hstep
  split at hstep
  · cases hstep
  · split at hstep
    · rename_i arena other hacquire
      obtain rfl := Option.some.inj hstep
      rw [hacquire]
      rfl
    · rename_i arena result _ hacquire
      obtain rfl := Option.some.inj hstep
      rw [hacquire]

/-- Cancelling, retiring or superseding a reservation loses it. -/
theorem withdraw_lost (h : SystemOk s) (hpool : s.pool r = some ⟨permit,phase⟩)
    {action : Action ρ} (hwithdraws : action.Withdraws r s.arena.layerIndex permit)
    (hstep : s.step action = some s') : Lost s'.arena permit := by
  have hpermit := h.permits r _ hpool
  by_cases hlost : Lost s.arena permit
  · exact hlost.moves hpermit (Effect.moves h (System.step_effect h.tables hstep))
  have hcurrent := (reservationCurrent_iff_not_lost h.tables).mpr hlost
  cases action with
  | acquire x key =>
    obtain ⟨hlayer,hexpert,hnewer⟩ := hwithdraws
    have hkey : (s.arena.state.owner permit.flatSlot).key? = some permit.key := by
      rw [hcurrent.2.2]
      rfl
    have hrange := (h.tables.slot _).range _ hkey
    rw [← hexpert] at hrange
    obtain ⟨generation,hle,hlatest⟩ :=
      ExpertArena.acquire_latest h.tables hlayer hrange (Nat.zero_lt_of_lt hnewer)
    rw [← stepAcquire_arena hstep, hexpert] at hlatest
    by_contra hheld
    have hstill := ((reservationCurrent_iff_not_lost (h.step hstep).tables).mpr hheld).1
    rw [hlatest] at hstill
    have hequal := Option.some.inj hstill
    omega
  | stage x payload => exact hwithdraws.elim
  | write x result => exact hwithdraws.elim
  | commit x => exact hwithdraws.elim
  | install x payload write => exact hwithdraws.elim
  | drop x =>
    obtain rfl : x = r := hwithdraws
    change s.stepDrop x = some s' at hstep
    unfold System.stepDrop at hstep
    rw [hpool] at hstep
    obtain rfl := Option.some.inj hstep
    dsimp only
    change Lost (s.arena.cancelInstall permit.flatSlot permit.installTicket) permit
    rw [ExpertArena.cancelInstall_eq hcurrent]
    exact s.arena.cancelSlot_lost permit
  | retire key =>
    obtain rfl : key = permit.key := hwithdraws
    obtain rfl := Option.some.inj hstep
    exact ExpertArena.retire_current h.tables hcurrent

/-- The reservation check changes counters only. -/
lemma stepStage_untouched {payload : List UInt8} (hstep : s.stepStage r payload = some s') :
    Untouched s s' := by
  unfold System.stepStage at hstep
  split at hstep
  · rename_i permit hpool
    have harena := s.arena.stageCheck_arena permit payload
    split at hstep
    · rename_i arena entry hcheck
      obtain rfl := Option.some.inj hstep
      rw [hcheck] at harena
      rcases harena with rfl | rfl <;> exact ⟨rfl,rfl,rfl,rfl⟩
    · rename_i arena error hcheck
      obtain rfl := Option.some.inj hstep
      rw [hcheck] at harena
      rcases harena with rfl | rfl <;> exact ⟨rfl,rfl,rfl,rfl⟩
  · cases hstep

lemma stepWrite_untouched {result : Except BootstrapError Unit}
    (hstep : s.stepWrite r result = some s') : Untouched s s' := by
  unfold System.stepWrite at hstep
  split at hstep
  · split at hstep
    · obtain rfl := Option.some.inj hstep
      exact ⟨rfl,rfl,rfl,rfl⟩
    · obtain rfl := Option.some.inj hstep
      exact ⟨rfl,rfl,rfl,rfl⟩
  · cases hstep

lemma stepCommit_stale (hpool : s.pool r = some ⟨permit,phase⟩)
    (hstale : ¬ permit.reservationCurrent s.arena.state) (hstep : s.stepCommit r = some s') :
    Untouched s s' := by
  unfold System.stepCommit ExpertArena.commit at hstep
  split at hstep
  · rename_i other entry hother
    rw [hpool] at hother
    cases hother
    rw [if_neg hstale] at hstep
    obtain rfl := Option.some.inj hstep
    exact ⟨rfl,rfl,rfl,rfl⟩
  · cases hstep

lemma stepInstall_stale (hpool : s.pool r = some ⟨permit,phase⟩)
    (hstale : ¬ permit.reservationCurrent s.arena.state) {payload : List UInt8}
    {write : Except BootstrapError Unit} (hstep : s.stepInstall r payload write = some s') :
    Untouched s s' := by
  unfold System.stepInstall ExpertArena.install at hstep
  split at hstep
  · rename_i other hother
    rw [hpool] at hother
    cases hother
    split at hstep
    · obtain rfl := Option.some.inj hstep
      exact ⟨rfl,rfl,rfl,rfl⟩
    · cases hentry : permit.residency.mappingEntry with
      | error e =>
        rw [hentry] at hstep
        obtain rfl := Option.some.inj hstep
        exact ⟨rfl,rfl,rfl,rfl⟩
      | ok entry =>
        rw [hentry] at hstep
        dsimp only at hstep
        rw [if_neg hstale] at hstep
        obtain rfl := Option.some.inj hstep
        exact ⟨rfl,rfl,rfl,rfl⟩
  · cases hstep

lemma stepDrop_lost (hpool : s.pool r = some ⟨permit,phase⟩) (hpermit : PermitOk s.arena permit)
    (hlost : Lost s.arena permit) (hstep : s.stepDrop r = some s') : Untouched s s' := by
  unfold System.stepDrop at hstep
  rw [hpool] at hstep
  obtain rfl := Option.some.inj hstep
  dsimp only
  rw [ExpertArena.cancelInstall_lost hpermit hlost]
  exact ⟨rfl,rfl,rfl,rfl⟩

/-- Whatever the holder of a lost reservation does, it publishes nothing. -/
theorem lost_untouched (h : SystemOk s) (hpool : s.pool r = some ⟨permit,phase⟩)
    (hlost : Lost s.arena permit) {action : Action ρ} (hactor : action.actor = some r)
    (hstep : s.step action = some s') : Untouched s s' := by
  have hstale : ¬ permit.reservationCurrent s.arena.state := by
    rw [reservationCurrent_iff_not_lost h.tables]
    exact not_not.mpr hlost
  cases action with
  | acquire x key =>
    -- The holder of a permit asks for no other.
    obtain rfl := Option.some.inj hactor
    change s.stepAcquire x key = some s' at hstep
    unfold System.stepAcquire at hstep
    rw [hpool] at hstep
    cases hstep
  | stage x payload => exact stepStage_untouched hstep
  | write x result => exact stepWrite_untouched hstep
  | commit x =>
    obtain rfl := Option.some.inj hactor
    exact stepCommit_stale hpool hstale hstep
  | install x payload write =>
    obtain rfl := Option.some.inj hactor
    exact stepInstall_stale hpool hstale hstep
  | drop x =>
    obtain rfl := Option.some.inj hactor
    exact stepDrop_lost hpool (h.permits x _ hpool) hlost hstep
  | retire key => cases hactor

end SystemOk

namespace Histories
variable {ρ : Type} {s : System ρ}

/-- Payloads written for the same location and epoch are one. -/
lemma staged_eq (h : Histories s) {x y : ExpertResidency × List UInt8} (hx : x ∈ s.staged)
    (hy : y ∈ s.staged) (hplace : x.1.place = y.1.place) : x = y :=
  List.inj_on_of_nodup_map h.once hx hy hplace

/-- An epoch word that matches the mapping means the bytes of the resident's own write. -/
theorem executable (h : Histories s) (htables : Tables s.arena) {e packed epoch : ℕ}
    {location : ExpertLocation} (hpack : location.pack = .ok packed)
    (hmapping : s.arena.mapping e = ⟨packed,epoch⟩)
    (hword : headWord (s.memory location) = epoch) :
    ∃ slot residency payload, s.arena.state.logicalSlots e = some slot ∧
      s.arena.state.owner slot = .resident residency ∧ residency.location = location ∧
      residency.slotEpoch = epoch ∧ (residency,payload) ∈ s.staged ∧
      (∀ other ∈ s.staged, other.1.place = residency.place → other = (residency,payload)) ∧
      s.memory location = slotBytes s.arena.geometry epoch payload ∧
      slotPayload s.arena.geometry (s.memory location) =
        payload.take s.arena.geometry.logicalExpertBytes := by
  have hmapped : ∃ slot residency, s.arena.state.owner slot = .resident residency ∧
      residency.key.expertId = e := by
    by_contra hnone
    have hunmapped := htables.unmapped e fun slot residency howner hkey =>
      hnone ⟨slot,residency,howner,hkey⟩
    rw [hmapping] at hunmapped
    exact ExpertLocation.pack_ne_unmapped hpack (congrArg MappingEntry.location hunmapped)
  obtain ⟨slot,residency,howner,hkey⟩ := hmapped
  obtain ⟨hlocated,hepoch,-⟩ :=
    ExpertResidency.mappingEntry_eq_ok (htables.mapped slot residency howner)
  rw [hkey, hmapping] at hlocated hepoch
  obtain rfl : residency.location = location := ExpertLocation.pack_injective hlocated hpack
  obtain rfl : epoch = residency.slotEpoch := hepoch
  obtain ⟨payload,hstaged⟩ := h.resident slot residency howner
  obtain ⟨last,hlast,hsame,hbytes⟩ := h.memory (residency,payload) hstaged
  -- The last write at the location has the epoch the word shows, so it is this one.
  have hbound : last.1.slotEpoch ≤ u32Max := by
    obtain ⟨t,-,-,hle⟩ := h.issued _ (h.staged last hlast).1
    exact hle.trans (htables.slot t).bound
  have hlastEpoch : last.1.slotEpoch = residency.slotEpoch := by
    rw [← hword]
    change _ = headWord (s.memory (residency,payload).1.location)
    rw [hbytes, headWord_slotBytes _ hbound]
  have hplace : last.1.place = residency.place := by
    rw [ExpertResidency.place, ExpertResidency.place, hlastEpoch, hsame]
  obtain rfl := h.staged_eq hlast hstaged hplace
  refine ⟨slot,residency,payload,?_,howner,rfl,rfl,hstaged,?_,hbytes,?_⟩
  · exact (htables.logical e slot).mpr ⟨residency.key,by rw [howner]; rfl,hkey⟩
  · exact fun other hother hplace => h.staged_eq hother hstaged hplace
  · change s.memory residency.location = _ at hbytes
    rw [hbytes, slotPayload_slotBytes _ _ (h.staged _ hstaged).2]

variable [DecidableEq ρ]

theorem run {s' : System ρ} (h : Histories s) (hok : SystemOk s) {actions : List (Action ρ)}
    (hrun : s.run actions = some s') : Histories s' := by
  induction actions generalizing s with
  | nil =>
    obtain rfl := Option.some.inj hrun
    exact h
  | cons action actions ih =>
    obtain ⟨next,hnext,hrun⟩ := Option.bind_eq_some_iff.mp hrun
    exact ih (h.effect hok (System.step_effect hok.tables hnext)) (hok.step hnext) hrun

end Histories

theorem Ordered.run {ρ : Type} [DecidableEq ρ] {s s' : System ρ} (h : Ordered s) (hok : SystemOk s)
    {actions : List (Action ρ)} (hrun : s.run actions = some s') : Ordered s' := by
  induction actions generalizing s with
  | nil =>
    obtain rfl := Option.some.inj hrun
    exact h
  | cons action actions ih =>
    obtain ⟨next,hnext,hrun⟩ := Option.bind_eq_some_iff.mp hrun
    exact ih (h.effect (System.step_effect hok.tables hnext)) (hok.step hnext) hrun

/-- What keeps stale bytes from being executed. -/
structure NeverStale {ρ : Type} [DecidableEq ρ] (s : System ρ) : Prop where
  /-- A permit that was cancelled, retired or superseded never publishes: whatever its holder
  does later leaves slots, logical slots and mapping alone. -/
  withdrawn : ∀ r permit phase, s.pool r = some ⟨permit,phase⟩ →
    ∀ withdrawal later s₁ s₂ phase₂ action s₃,
      withdrawal.Withdraws r s.arena.layerIndex permit → s.step withdrawal = some s₁ →
      s₁.run later = some s₂ → s₂.pool r = some ⟨permit,phase₂⟩ →
      action.actor = some r → s₂.step action = some s₃ → Untouched s₂ s₃
  /-- No location and epoch is reserved twice. -/
  reservations : (s.reservations.map ExpertResidency.place).Nodup
  /-- The generations of an expert become resident in order. -/
  generations : s.published.Pairwise fun newer older => newer.expertId = older.expertId →
    older.logicalGeneration ≤ newer.logicalGeneration
  /-- Where the mapping of an expert and the epoch word in its slot agree, the slot holds what
  was written for the owner of the slot. -/
  executable : ∀ e location packed epoch, location.pack = .ok packed →
    s.arena.mapping e = ⟨packed,epoch⟩ → headWord (s.memory location) = epoch →
    ∃ slot residency payload, s.arena.state.logicalSlots e = some slot ∧
      s.arena.state.owner slot = .resident residency ∧ residency.location = location ∧
      residency.slotEpoch = epoch ∧ (residency,payload) ∈ s.staged ∧
      (∀ other ∈ s.staged, other.1.place = residency.place → other = (residency,payload)) ∧
      s.memory location = slotBytes s.arena.geometry epoch payload ∧
      slotPayload s.arena.geometry (s.memory location) =
        payload.take s.arena.geometry.logicalExpertBytes

/-- Stale expert bytes are never executable, in any interleaving of any number of requesters. -/
theorem run_neverStale {ρ : Type} [DecidableEq ρ] {layerIndex slotCapacity : ℕ}
    {geometry : ExpertGeometry} {limits : DeviceLimits} {layout : ArenaLayout}
    {memory : ExpertLocation → List UInt8} {uploads : List Upload} {prepared : PreparedUploads}
    {actions : List (Action ρ)} {s : System ρ}
    (hlayout : ArenaLayout.tryNew geometry slotCapacity limits = .ok layout)
    (huploads : validateUploads layerIndex geometry layout uploads = .ok prepared)
    (hrun : (System.initial ρ layerIndex geometry memory uploads prepared).run actions = some s) :
    NeverStale s := by
  have hwellFormed := (ArenaLayout.tryNew_wellFormed hlayout).1
  have hstart : SystemOk (System.initial ρ layerIndex geometry memory uploads prepared) :=
    .initial hwellFormed huploads
  have hok := hstart.run hrun
  have hhistories := (Histories.initial hwellFormed huploads).run hstart hrun
  have hordered := (Ordered.initial hwellFormed huploads).run hstart hrun
  refine ⟨?_,hhistories.unique,hordered.sorted,
    fun e location packed epoch hpack => hhistories.executable hok.tables hpack⟩
  intro r permit phase hpool withdrawal later s₁ s₂ phase₂ action s₃ hwithdraws hstep hlater
    hheld hactor haction
  have hok₁ := hok.step hstep
  have hlost₁ := hok.withdraw_lost hpool hwithdraws hstep
  have hpermit₁ := (hok.permits r _ hpool).moves
    (Effect.moves hok (System.step_effect hok.tables hstep))
  have hlost₂ := hlost₁.moves hpermit₁ (hok₁.run_moves hlater)
  exact (hok₁.run hlater).lost_untouched hheld hlost₂ hactor haction

/-- The late write of the superseded permit lands on the slot its successor has filled. -/
theorem run_neverStale_superseded :
    ∃ layout prepared s, ArenaLayout.tryNew smallGeometry 1 ⟨64,64⟩ = .ok layout ∧
      validateUploads 0 smallGeometry layout [smallUpload] = .ok prepared ∧
      (System.initial ℕ 0 smallGeometry (fun _ => []) [smallUpload] prepared).run supersededRun =
        some s ∧ headWord (s.memory ⟨0,0⟩) = 2 ∧ (s.arena.mapping 1).slotEpoch = 3 ∧
      NeverStale s :=
  ⟨_,_,_,rfl,rfl,rfl,rfl,rfl,@run_neverStale ℕ _ 0 1 smallGeometry ⟨64,64⟩ _ (fun _ => [])
    [smallUpload] _ supersededRun _ rfl rfl rfl⟩

end MicroExpertRouter.Arena
