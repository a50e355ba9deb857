import Pagewright.Proofs.LastShape
import Pagewright.Proofs.SlotSteps
import Pagewright.Proofs.Updates

/-!
# Histories of slots

The slots of a page change by calls: a slot is set or cleared, a shape is installed, updates are
applied (`SlotCall`). Any of these but an installation may fail, updates half-way. Whatever calls were
made, the slots that describe the source file are as they were at the start, and every other slot
has a lawful name or is a default of the shape installed last (`PageSlots.HeldIn`). One call keeps
this (`HeldIn.perform`): an installation starts the page anew, and any other call only writes
slots that may be written (`perform_eq`). Lawful names are not all that there is, since an
installation takes a default up under any name that describes no source file. Calls are carried out
step by step, so that one which fails leaves what its steps have done until then.
-/

namespace Pagewright

/-! ## Calls -/

/-- A call that changes the slots of a page. -/
inductive SlotCall where
  | set (slot value : String)
  | clear (slot : String)
  | install (s : Shape)
  /-- Updates in JSON. -/
  | update (json : String)

/-- The shape that a page has after a call, when it had `s` before. -/
def SlotCall.shape (s : Shape) : SlotCall → Shape
  | .install s' => s'
  | _ => s

/-- The steps of a call. -/
def SlotCall.steps : SlotCall → SlotSteps ScriptError Unit
  | .set slot value => ExceptT.adapt .slot (SlotSteps.set slot value)
  | .clear slot => ExceptT.adapt .slot (SlotSteps.clear slot)
  | .install s => SlotSteps.install s
  | .update json => SlotSteps.updateFrom json

/-- The write that a call asks for, when it is for one slot. -/
def SlotCall.write? : SlotCall → Option SlotWrite
  | .set slot value => some ⟨slot, some value⟩
  | .clear slot => some ⟨slot, none⟩
  | _ => none

/-- The shape that is installed last. -/
def activeShape (s : Shape) (calls : List SlotCall) : Shape :=
  calls.foldl SlotCall.shape s

namespace PageSlots

/-- The slots after the steps of a call, and how these ended. -/
def perform (ps : PageSlots) (call : SlotCall) : ScriptOutcome :=
  Prod.swap (call.steps.run.run ps)

/-- The slots after calls, however each of them ended. -/
def performAll (ps : PageSlots) (calls : List SlotCall) : PageSlots :=
  calls.foldl (fun ps call => (ps.perform call).1) ps

/-- Slots of a page of a source file whose shape was installed last. -/
structure HeldIn (ps : PageSlots) (s : Shape) (path : Path) : Prop where
  shape : ps.shape = s.name
  source : ps.source = .ofPath path
  described : ∀ slot, isSourceSlot slot = true →
    ps.get? slot = (sourceSlots (.ofPath path))[slot]?
  named : ∀ slot, (ps.get? slot).isSome = true →
    isSourceSlot slot = true ∨ namesSlot slot = true ∨ slot ∈ s.defaults

end PageSlots

/-! ## What a call writes -/

theorem SlotWrite.isWritable_of_ofUpdate {slot : String} {value : Json} {w : SlotWrite}
    (h : ofUpdate slot value = .ok w) : IsWritable w.slot := by
  have hpermit : ∀ text? : Option String,
      ((PageSlots.permit slot).mapError ScriptError.slot).map (fun _ => SlotWrite.mk slot text?) =
        .ok w → IsWritable w.slot := by
    intro text? hw
    cases hslot : PageSlots.permit slot with
    | ok u =>
      rw [hslot] at hw
      obtain rfl := Except.ok.inj hw
      exact PageSlots.permit_eq_ok_iff.1 hslot
    | error refusal => rw [hslot] at hw; cases hw
  cases value with
  | null => exact hpermit none h
  | string text => exact hpermit (some text) h
  | bool _ => cases h
  | number _ => cases h
  | array _ => cases h
  | object _ => cases h

/-- Updates only write slots that may be written, also when they fail. -/
theorem SlotWrite.isWritable_of_mem_ofUpdates {members : List (String × Json)} :
    ∀ w ∈ (ofUpdates members).1, IsWritable w.slot := by
  induction members with
  | nil =>
    intro w hw
    cases hw
  | cons member members ih =>
    obtain ⟨slot, value⟩ := member
    intro w hw
    rw [ofUpdates] at hw
    cases hupdate : ofUpdate slot value with
    | error e => rw [hupdate] at hw; cases hw
    | ok w' =>
      rw [hupdate] at hw
      rcases List.mem_cons.1 hw with rfl | hw
      · exact isWritable_of_ofUpdate hupdate
      · exact ih w hw

theorem SlotWrite.isWritable_of_mem_ofJson {json : String} :
    ∀ w ∈ (ofJson json).1, IsWritable w.slot := by
  rw [ofJson]
  cases Json.parseObject json with
  | ok members => exact isWritable_of_mem_ofUpdates
  | error fault =>
    intro w hw
    cases hw

namespace PageSlots

variable {ps : PageSlots} {s : Shape} {path : Path} {call : SlotCall} {w : SlotWrite}

/-- A call for one slot makes its write when the slot may be written, and nothing otherwise. -/
theorem perform_of_write? (ps : PageSlots) (h : call.write? = some w) :
    ps.perform call = match permit w.slot with
      | .ok _ => (ps.write w, .ok ())
      | .error refusal => (ps, .error (.slot refusal)) := by
  cases call with
  | set slot value =>
    obtain rfl := Option.some.inj h
    rw [perform, SlotCall.steps, SlotSteps.run_adapt_wholly (SlotSteps.run_set value), set]
    cases permit slot <;> rfl
  | clear slot =>
    obtain rfl := Option.some.inj h
    rw [perform, SlotCall.steps, SlotSteps.run_adapt_wholly SlotSteps.run_clear, clear]
    cases permit slot <;> rfl
  | install s => cases h
  | update json => cases h

theorem perform_update (ps : PageSlots) (json : String) :
    ps.perform (.update json) = ps.updateFrom json := by
  rw [perform, SlotCall.steps, SlotSteps.run_updateFrom, Prod.swap_swap]

theorem exists_writeAll_of_write? (ps : PageSlots) (h : call.write? = some w) :
    ∃ ws, (∀ v ∈ ws, IsWritable v.slot) ∧ (ps.perform call).1 = ps.writeAll ws := by
  rw [perform_of_write? ps h]
  cases hpermit : permit w.slot with
  | ok u => exact ⟨[w], List.forall_mem_singleton.2 (permit_eq_ok_iff.1 hpermit), rfl⟩
  | error refusal => exact ⟨[], nofun, rfl⟩

/-- **A call** installs a shape or writes slots that may be written. -/
theorem perform_eq (ps : PageSlots) (call : SlotCall) :
    (∃ s, call = .install s ∧ (ps.perform call).1 = ps.install s) ∨
      (∀ s, call.shape s = s) ∧
        ∃ ws, (∀ w ∈ ws, IsWritable w.slot) ∧ (ps.perform call).1 = ps.writeAll ws := by
  cases call with
  | install s => exact .inl ⟨s, rfl, rfl⟩
  | set slot value => exact .inr ⟨fun _ => rfl, exists_writeAll_of_write? ps rfl⟩
  | clear slot => exact .inr ⟨fun _ => rfl, exists_writeAll_of_write? ps rfl⟩
  | update json =>
    refine .inr ⟨fun _ => rfl, (SlotWrite.ofJson json).1, SlotWrite.isWritable_of_mem_ofJson, ?_⟩
    rw [perform_update, updateFrom_eq]

/-- A call for one slot succeeds exactly when the slot may be written; a failing one leaves all
slots as they were. -/
theorem perform_of_write?_iff (ps : PageSlots) (h : call.write? = some w) :
    ((ps.perform call).2 = .ok () ↔ IsWritable w.slot) ∧
      ∀ e, (ps.perform call).2 = .error e → (ps.perform call).1 = ps := by
  rw [perform_of_write? ps h]
  cases hpermit : permit w.slot with
  | ok u => exact ⟨iff_of_true rfl (permit_eq_ok_iff.1 hpermit), nofun⟩
  | error refusal =>
    refine ⟨iff_of_false nofun fun hw => ?_, fun _ _ => rfl⟩
    rw [permit_eq_ok_iff.2 hw] at hpermit
    cases hpermit

/-! ## What calls keep -/

/-- Slots of a source file become those of a new page when a shape is installed. -/
theorem install_eq_new (hsource : ps.source = .ofPath path) (s : Shape) :
    ps.install s = .new s path := by
  rw [install, hsource]
  rfl

theorem heldIn_new (s : Shape) (path : Path) : (new s path).HeldIn s path where
  shape := rfl
  source := rfl
  described := fun _ hslot => getElem?_startingSlots_of_isSourceSlot hslot
  named := fun _ hslot => (isSome_get?_new_iff.1 hslot).imp_right .inr

theorem HeldIn.install (h : ps.HeldIn s path) (s' : Shape) : (ps.install s').HeldIn s' path := by
  rw [install_eq_new h.source]
  exact heldIn_new s' path

theorem HeldIn.write (h : ps.HeldIn s path) (hw : IsWritable w.slot) :
    (ps.write w).HeldIn s path := by
  obtain ⟨hsource, hname⟩ := hw
  refine ⟨by rw [shape_write, h.shape], by rw [source_write, h.source], ?_, ?_⟩
  · intro slot hslot
    have hne : w.slot ≠ slot := by
      rintro rfl
      rw [hsource] at hslot
      cases hslot
    rw [get?, getElem?_write, if_neg hne]
    exact h.described slot hslot
  · intro slot hslot
    rw [get?, getElem?_write] at hslot
    split at hslot
    · next heq => exact .inr (.inl (heq ▸ hname))
    · exact h.named slot hslot

theorem HeldIn.writeAll {ws : List SlotWrite} (h : ps.HeldIn s path)
    (hws : ∀ w ∈ ws, IsWritable w.slot) : (ps.writeAll ws).HeldIn s path := by
  induction ws generalizing ps with
  | nil => exact h
  | cons w ws ih =>
    rw [writeAll_cons]
    exact ih (h.write (hws w List.mem_cons_self)) fun v hv => hws v (List.mem_cons_of_mem _ hv)

/-- **One call** keeps what holds of slots, for the shape that is then the last. -/
theorem HeldIn.perform (h : ps.HeldIn s path) (call : SlotCall) :
    (ps.perform call).1.HeldIn (call.shape s) path := by
  rcases perform_eq ps call with ⟨s', rfl, hinstall⟩ | ⟨hshape, ws, hws, hwrites⟩
  · rw [hinstall]
    exact h.install s'
  · rw [hwrites, hshape]
    exact h.writeAll hws

theorem HeldIn.performAll (h : ps.HeldIn s path) (calls : List SlotCall) :
    (ps.performAll calls).HeldIn (activeShape s calls) path := by
  induction calls generalizing ps s with
  | nil => exact h
  | cons call calls ih => exact ih (h.perform call)

/-- **The slots of a page after any calls**, failing ones too. The slots that describe the source
file have the values of the start, and every other slot has a lawful name or is a default of the
shape installed last. At any such time a call for one slot that fails changes nothing, and it fails
exactly when the slot may not be written: its steps end as setting and clearing a slot do, with the
slots as they were when these fail. Updates leave what was done before the one that fails. -/
theorem performAll_new (s : Shape) (path : Path) (calls : List SlotCall) :
    let ps := (new s path).performAll calls
    ps.get? pathSlot = some path.text ∧
      ps.get? directorySlot = some ((path.parent?.map Path.text).getD "") ∧
      ps.get? fileNameSlot = some (path.fileName?.getD "") ∧
      ps.shape = (activeShape s calls).name ∧
      (∀ slot, (ps.get? slot).isSome = true → isSourceSlot slot = true ∨
        namesSlot slot = true ∨ slot ∈ (activeShape s calls).defaults) ∧
      (∀ call w, call.write? = some w → ((ps.perform call).2 = .ok () ↔ IsWritable w.slot) ∧
        ∀ e, (ps.perform call).2 = .error e → (ps.perform call).1 = ps) ∧
      (∀ slot value, (SlotSteps.set slot value).run.run ps = ps.wholly (ps.set slot value)) ∧
      (∀ slot, (SlotSteps.clear slot).run.run ps = ps.wholly (ps.clear slot)) ∧
      ∀ json, (SlotSteps.updateFrom json).run.run ps = (ps.updateFrom json).swap := by
  intro ps
  have hheld : ps.HeldIn (activeShape s calls) path := (heldIn_new s path).performAll calls
  refine ⟨?_, ?_, ?_, hheld.shape, hheld.named, fun call w hw => perform_of_write?_iff ps hw,
    fun slot value => SlotSteps.run_set value, fun slot => SlotSteps.run_clear,
    SlotSteps.run_updateFrom⟩
  · rw [hheld.described pathSlot rfl]
    rfl
  · rw [hheld.described directorySlot rfl]
    rfl
  · rw [hheld.described fileNameSlot rfl]
    rfl

end PageSlots

end Pagewright
