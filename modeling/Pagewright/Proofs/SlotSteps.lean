import Pagewright.Script.Executor

/-!
# Changing slots step by step

Here a slot is set or cleared in two steps: its name is checked, and the slots are changed. Updates
are such steps one after another. A step that fails keeps what the steps before it have done
(`SlotSteps`), so it is for their order alone that a refused call changes nothing. Setting and
clearing a slot end as the functions say, with the slots as they were when they fail (`run_set`,
`run_clear`); updates end with what was done before the one that fails (`run_updateFrom`).
-/

namespace Pagewright

/-- Steps on the slots of a page. A failure keeps what was done before it. -/
abbrev SlotSteps (ε : Type) := ExceptT ε (StateM PageSlots)

/-! ## Steps one after another -/

section Bind

variable {σ ε ε' α β : Type} {m : ExceptT ε (StateM σ) α} {f : α → ExceptT ε (StateM σ) β}
  {s s' : σ}

theorem run_bind_of_ok {a : α} (h : m.run.run s = (.ok a, s')) :
    (m >>= f).run.run s = (f a).run.run s' := by
  rw [ExceptT.run_bind, StateT.run_bind, h]
  rfl

theorem run_bind_of_error {e : ε} (h : m.run.run s = (.error e, s')) :
    (m >>= f).run.run s = (.error e, s') := by
  rw [ExceptT.run_bind, StateT.run_bind, h]
  rfl

/-- Steps whose failure is told in other words leave the same. -/
theorem run_adapt {g : ε → ε'} {result : Except ε α} (h : m.run.run s = (result, s')) :
    (ExceptT.adapt g m).run.run s = (result.mapError g, s') := by
  change (Except.mapError g <$> m.run).run s = _
  rw [StateT.run_map, h]
  rfl

end Bind

/-! ## The steps -/

namespace SlotSteps

/-- Fails for a slot that may not be written. -/
def checkWritable (slot : String) : SlotSteps SlotRefusal Unit :=
  if isSourceSlot slot then throw (.describesSource slot)
  else if namesSlot slot then return ()
  else throw (.unlawfulName slot)

/-- Changes the texts of slots for a call that names a slot. -/
def change (slot : String) (f : SlotValues → SlotValues) : SlotSteps SlotRefusal Unit := do
  checkWritable slot
  modify fun ps => { ps with values := f ps.values }

def set (slot value : String) : SlotSteps SlotRefusal Unit :=
  change slot (·.insert slot value)

def clear (slot : String) : SlotSteps SlotRefusal Unit :=
  change slot (·.erase slot)

/-- Installs a shape, which never fails. -/
def install (s : Shape) : SlotSteps ScriptError Unit :=
  modify (·.install s)

def update (slot : String) : Json → SlotSteps ScriptError Unit
  | .null => ExceptT.adapt .slot (clear slot)
  | .string text => ExceptT.adapt .slot (set slot text)
  | value => throw (.badValue slot value)

def updateAll : List (String × Json) → SlotSteps ScriptError Unit
  | [] => return ()
  | (slot, value) :: rest => do
    update slot value
    updateAll rest

def updateFrom (json : String) : SlotSteps ScriptError Unit :=
  match Json.parseObject json with
  | .ok members => updateAll members
  | .error fault => throw (.json fault)

end SlotSteps

/-! ## How the steps end -/

/-- How steps end that start from slots: with other slots, or with those when they fail. -/
def PageSlots.wholly {ε : Type} (ps : PageSlots) : Except ε PageSlots → Except ε Unit × PageSlots
  | .ok qs => (.ok (), qs)
  | .error e => (.error e, ps)

namespace SlotSteps

variable {ps : PageSlots} {slot : String}

/-- A name is checked before anything changes. -/
theorem run_checkWritable : (checkWritable slot).run.run ps = (PageSlots.permit slot, ps) := by
  unfold checkWritable PageSlots.permit
  cases isSourceSlot slot <;> cases namesSlot slot <;> rfl

/-- A call that names a slot changes nothing when it fails. -/
theorem run_change (f : SlotValues → SlotValues) : (change slot f).run.run ps =
    ps.wholly ((PageSlots.permit slot).map fun _ => { ps with values := f ps.values }) := by
  have hcheck : (checkWritable slot).run.run ps = (PageSlots.permit slot, ps) := run_checkWritable
  unfold change
  cases hpermit : PageSlots.permit slot with
  | ok u => exact run_bind_of_ok (hcheck.trans (by rw [hpermit]))
  | error refusal => exact run_bind_of_error (hcheck.trans (by rw [hpermit]))

/-- **Setting a slot** leaves all slots as they were when it fails. -/
theorem run_set (value : String) : (set slot value).run.run ps = ps.wholly (ps.set slot value) :=
  run_change _

/-- **Clearing a slot** leaves all slots as they were when it fails. -/
theorem run_clear : (clear slot).run.run ps = ps.wholly (ps.clear slot) :=
  run_change _

theorem run_adapt_wholly {ε ε' : Type} {g : ε → ε'} {m : SlotSteps ε Unit}
    {result : Except ε PageSlots} (h : m.run.run ps = ps.wholly result) :
    (ExceptT.adapt g m).run.run ps = ps.wholly (result.mapError g) := by
  cases result with
  | ok qs => exact run_adapt h
  | error e => exact run_adapt h

theorem run_update (value : Json) :
    (update slot value).run.run ps = ps.wholly (ps.update slot value) := by
  cases value with
  | null => exact run_adapt_wholly run_clear
  | string text => exact run_adapt_wholly (run_set text)
  | bool _ => rfl
  | number _ => rfl
  | array _ => rfl
  | object _ => rfl

/-- **Updates** are made up to the first that fails, and what was done before it stays. -/
theorem run_updateAll (members : List (String × Json)) :
    (updateAll members).run.run ps = (ps.updateAll members).swap := by
  induction members generalizing ps with
  | nil => rfl
  | cons member members ih =>
    obtain ⟨slot, value⟩ := member
    have hupdate : (update slot value).run.run ps = ps.wholly (ps.update slot value) :=
      run_update value
    rw [updateAll, PageSlots.updateAll]
    cases hresult : ps.update slot value with
    | ok qs => exact (run_bind_of_ok (hupdate.trans (by rw [hresult]; rfl))).trans ih
    | error e => exact run_bind_of_error (hupdate.trans (by rw [hresult]; rfl))

theorem run_updateFrom (json : String) :
    (updateFrom json).run.run ps = (ps.updateFrom json).swap := by
  unfold updateFrom PageSlots.updateFrom
  cases Json.parseObject json with
  | ok members => exact run_updateAll members
  | error fault => rfl

end SlotSteps

end Pagewright
