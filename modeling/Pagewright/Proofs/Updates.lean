import Pagewright.Proofs.SlotWrites
import Pagewright.Script.Executor

/-!
# Updates as writes

Updates make writes until one of them fails, and which writes these are does not depend on the slots
that they are applied to (`PageSlots.updateFrom_eq`). So scripts that are taken as their own updates
have the same effect on all pages: their sources alone say which writes they make and how their run
ends (`Document.runScripts_updates`).
-/

namespace Pagewright

namespace SlotWrite

/-- The write that an update of a slot makes. -/
def ofUpdate (slot : String) : Json → Except ScriptError SlotWrite
  | .null => ((PageSlots.permit slot).mapError .slot).map fun _ => ⟨slot, none⟩
  | .string text => ((PageSlots.permit slot).mapError .slot).map fun _ => ⟨slot, some text⟩
  | value => .error (.badValue slot value)

/-- The writes that updates make up to the first that fails, and how they end. -/
def ofUpdates : List (String × Json) → List SlotWrite × Except ScriptError Unit
  | [] => ([], .ok ())
  | (slot, value) :: rest =>
    match ofUpdate slot value with
    | .ok w => (w :: (ofUpdates rest).1, (ofUpdates rest).2)
    | .error e => ([], .error e)

/-- The writes that a text in JSON asks for. -/
def ofJson (json : String) : List SlotWrite × Except ScriptError Unit :=
  match Json.parseObject json with
  | .ok members => ofUpdates members
  | .error fault => ([], .error (.json fault))

/-- The writes of scripts that are their own updates, up to the failure of one of them. -/
def ofScripts : List PendingScript → List SlotWrite × Except ScriptFailure Unit
  | [] => ([], .ok ())
  | script :: rest =>
    match ofJson script.source with
    | (ws, .ok _) => (ws ++ (ofScripts rest).1, (ofScripts rest).2)
    | (ws, .error cause) => (ws, .error ⟨script.line, cause⟩)

/-- Scripts that succeed write the same wherever they stand: their lines only name a failure. -/
theorem ofScripts_eq_of_sources {ss ss' : List PendingScript}
    (hsources : ss'.map PendingScript.source = ss.map PendingScript.source)
    (hok : (ofScripts ss).2 = .ok ()) : ofScripts ss' = ofScripts ss := by
  induction ss generalizing ss' with
  | nil => rw [List.map_eq_nil_iff.1 hsources]
  | cons s ss ih =>
    obtain ⟨s', rest, rfl, hs, hrest⟩ := List.map_eq_cons_iff.1 hsources
    rw [ofScripts] at hok
    rw [ofScripts, ofScripts, hs]
    cases hjson : ofJson s.source with
    | mk ws result =>
      rw [hjson] at hok
      cases result with
      | ok u => simp only [ih hrest hok]
      | error cause => cases hok

end SlotWrite

namespace PageSlots

theorem update_eq (ps : PageSlots) (slot : String) (value : Json) :
    ps.update slot value = (SlotWrite.ofUpdate slot value).map ps.write := by
  cases value with
  | null =>
    rw [update, clear, SlotWrite.ofUpdate]
    cases permit slot <;> rfl
  | string text =>
    rw [update, set, SlotWrite.ofUpdate]
    cases permit slot <;> rfl
  | bool _ => rfl
  | number _ => rfl
  | array _ => rfl
  | object _ => rfl

theorem updateAll_eq (ps : PageSlots) (members : List (String × Json)) :
    ps.updateAll members =
      (ps.writeAll (SlotWrite.ofUpdates members).1, (SlotWrite.ofUpdates members).2) := by
  induction members generalizing ps with
  | nil => rfl
  | cons member members ih =>
    obtain ⟨slot, value⟩ := member
    rw [updateAll, update_eq, SlotWrite.ofUpdates]
    cases SlotWrite.ofUpdate slot value with
    | ok w => exact ih (ps.write w)
    | error e => rfl

theorem updateFrom_eq (ps : PageSlots) (json : String) :
    ps.updateFrom json = (ps.writeAll (SlotWrite.ofJson json).1, (SlotWrite.ofJson json).2) := by
  rw [updateFrom, SlotWrite.ofJson]
  cases Json.parseObject json with
  | ok members => exact updateAll_eq ps members
  | error fault => rfl

end PageSlots

theorem Executor.runAll_updates (ps : PageSlots) (scripts : List PendingScript) :
    Executor.runAll .updates ps scripts =
      pure (ps.writeAll (SlotWrite.ofScripts scripts).1, (SlotWrite.ofScripts scripts).2) := by
  induction scripts generalizing ps with
  | nil => rfl
  | cons script scripts ih =>
    rw [runAll_cons, updates, PageSlots.updateFrom_eq, SlotWrite.ofScripts]
    cases SlotWrite.ofJson script.source with
    | mk ws result =>
      cases result with
      | ok u =>
        rw [PageSlots.writeAll_append]
        exact ih (ps.writeAll ws)
      | error cause => rfl

/-- **A run of scripts that are their own updates** makes the writes that their sources ask for,
whatever the slots of the document are, and touches no file. -/
theorem Document.runScripts_updates (doc : Document) :
    doc.runScripts .updates =
      pure (doc.withSlots (doc.slots.writeAll (SlotWrite.ofScripts doc.scripts).1),
        (SlotWrite.ofScripts doc.scripts).2) := by
  rw [runScripts_eq, Executor.runAll_updates]
  rfl

end Pagewright
