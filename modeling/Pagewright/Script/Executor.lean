import Pagewright.Document.Basic
import Pagewright.File.Program
import Pagewright.Json.Reader
import Pagewright.Script.ExitStatus

/-!
# Running scripts

The library does not interpret scripts: it hands them, in document order, to an `Executor` with the
number of their first line and the slots of the page. An executor may have a state of its own that
goes on from script to script (`Executor.Stateful`); those defined here have none. The first failure
ends the run; what the scripts before it and the failing one itself did to the slots stays. A script
may write its effect in JSON (`PageSlots.updateFrom`): an object whose members give slots their new
texts, or take them away by `null`, one after another in increasing order of the names.
-/

namespace Pagewright

open Text

/-- Why a script failed. -/
inductive ScriptError where
  | noInterpreter
  | json (fault : Json.Fault)
  | slot (error : SlotRefusal)
  /-- An update is neither a string nor `null`. -/
  | badValue (name : String) (value : Json)
  | file (error : FileError)
  /-- The interpreter ended with a failure. -/
  | exited (program : String) (status : ExitStatus) (complaint : String)
  | notUtf8 (fault : Utf8.Fault)
  | other (message : String)
  deriving Repr

/-- The wording of a script error; a refused JSON text has none of its own. -/
def ScriptError.message? : ScriptError → Option String
  | .noInterpreter => some "no script interpreter is configured"
  | .json _ => none
  | .slot error => some error.message
  | .badValue name value =>
    some ("slot " ++ quoted name ++ " must be a string or null, got " ++ value.compact)
  | .file error => some error.message
  | .exited program status complaint =>
    some (program ++ " exited with " ++ status.message ++ ": " ++ complaint)
  | .notUtf8 fault => some fault.message
  | .other message => some message

/-- The slots after a script, and how the script ended. -/
abbrev ScriptOutcome := PageSlots × Except ScriptError Unit

/-- Runs one script on the slots of a page. -/
abbrev Executor := PendingScript → PageSlots → FileProgram ScriptOutcome

/-- Runs one script on the slots of a page, in a state that the scripts before it have left. -/
abbrev Executor.Stateful (σ : Type) :=
  σ → PendingScript → PageSlots → FileProgram (ScriptOutcome × σ)

structure ScriptFailure where
  line : Nat
  cause : ScriptError
  deriving Repr

def ScriptFailure.message? (f : ScriptFailure) : Option String :=
  f.cause.message?.map fun m => "script at line " ++ toString f.line ++ " failed: " ++ m

namespace PageSlots

/-- Applies one update to a slot. -/
def update (ps : PageSlots) (slot : String) (value : Json) : Except ScriptError PageSlots :=
  match value with
  | .null => (ps.clear slot).mapError .slot
  | .string text => (ps.set slot text).mapError .slot
  | value => .error (.badValue slot value)

/-- Applies updates in order, up to the first that fails. -/
def updateAll (ps : PageSlots) : List (String × Json) → ScriptOutcome
  | [] => (ps, .ok ())
  | (slot, value) :: rest =>
    match ps.update slot value with
    | .ok ps => ps.updateAll rest
    | .error e => (ps, .error e)

def updateFrom (ps : PageSlots) (json : String) : ScriptOutcome :=
  match Json.parseObject json with
  | .ok members => ps.updateAll members
  | .error fault => (ps, .error (.json fault))

end PageSlots

namespace Executor

/-- Refuses every script. -/
def none : Executor := fun _ ps => return (ps, .error .noInterpreter)

/-- Takes the source of a script as its updates. -/
def updates : Executor := fun script ps => return ps.updateFrom script.source

/-- Runs scripts in order, up to the first that fails. -/
def Stateful.runAll {σ : Type} (run : Stateful σ) (state : σ) (ps : PageSlots) :
    List PendingScript → FileProgram (PageSlots × Except ScriptFailure Unit)
  | [] => return (ps, .ok ())
  | script :: rest => do
    match ← run state script ps with
    | ((ps, .ok _), state) => runAll run state ps rest
    | ((ps, .error cause), _) => return (ps, .error ⟨script.line, cause⟩)

/-- An executor without a state. -/
def stateful (run : Executor) : Stateful Unit := fun _ script ps => return (← run script ps, ())

def runAll (run : Executor) (ps : PageSlots) (scripts : List PendingScript) :
    FileProgram (PageSlots × Except ScriptFailure Unit) :=
  run.stateful.runAll () ps scripts

theorem runAll_cons (run : Executor) (ps : PageSlots) (script : PendingScript)
    (rest : List PendingScript) : run.runAll ps (script :: rest) = (do
      match ← run script ps with
      | (ps, .ok _) => run.runAll ps rest
      | (ps, .error cause) => return (ps, .error ⟨script.line, cause⟩)) := by
  rw [runAll, Stateful.runAll, stateful, bind_assoc]
  refine bind_congr fun outcome => ?_
  obtain ⟨ps, result⟩ := outcome
  cases result with
  | ok _ => rfl
  | error cause => rfl

end Executor

/-- Runs the scripts of a document by an executor that starts in a state. -/
def Document.runScriptsFrom {σ : Type} (doc : Document) (run : Executor.Stateful σ) (state : σ) :
    FileProgram (Document × Except ScriptFailure Unit) := do
  let (ps, result) ← run.runAll state doc.slots doc.scripts
  return (doc.withSlots ps, result)

def Document.runScripts (doc : Document) (run : Executor) :
    FileProgram (Document × Except ScriptFailure Unit) :=
  doc.runScriptsFrom run.stateful ()

theorem Document.runScripts_eq (doc : Document) (run : Executor) : doc.runScripts run = (do
    let (ps, result) ← run.runAll doc.slots doc.scripts
    return (doc.withSlots ps, result)) := rfl

end Pagewright
