import Pagewright.Script.Executor
import Pagewright.Script.Interpreter
import Pagewright.Shell.Run
import Pagewright.Text.Blank

/-!
# Running scripts through an interpreter

`Interpreter.run` gives a script to a program on its standard input, with the slots of the page in
the environment, and applies the slot updates that the program writes. A program that fails fails
the script, with what it complained about; one that writes nothing changes nothing. The programs are
the shell and the tools that it knows.
-/

namespace Pagewright

open Text Shell

def Shell.Program.run (p : Program) (call : ToolCall) : FileProgram Finished := do
  match p with
  | .shell => runShell call
  | .environment => runEnvironment call
  | .tool t =>
    let reply ← t call
    return {
      status := .code reply.status
      output := reply.output
      complaints := rawBytes reply.complaint }

namespace Interpreter

/-- The greatest size of an argument or an environment variable, with the character that ends it. -/
def textLimit : Nat := 131072

def baseEnvironment : List (String × String) :=
  [("PATH", "/usr/local/sbin:/usr/local/bin:/usr/sbin:/usr/bin:/sbin:/bin"), ("HOME", "/root")]

/-- The slots of a page as an interpreter gets them: an object of all slots with their values. -/
def slotsText (ps : PageSlots) : String :=
  (Json.object (ps.toList.map fun (slot, value) => (slot, .string value))).compact

/-- The environment of a script: the state of the page and the line of the script beside what every
program has, in the order of their names. What a name has behind an equals sign belongs to the
value. -/
def environment (i : Interpreter) (script : PendingScript) (state : String) :
    List (String × String) :=
  let given := [(i.stateVariable, state), (lineVariable, toString script.line)]
  let kept := baseEnvironment.filter fun (name, _) => name != i.stateVariable
  let given := given.drop (if i.stateVariable = lineVariable then 1 else 0)
  ((kept ++ given).mergeSort (·.1 ≤ ·.1)).map fun (name, value) =>
    let entry := (name ++ "=" ++ value).toList
    (String.ofList (entry.takeWhile (· != '=')),
      String.ofList ((entry.dropWhile (· != '=')).drop 1))

def start (i : Interpreter) (script : PendingScript) (ps : PageSlots) :
    FileProgram (Except FileError Finished) := do
  let state := slotsText ps
  let directory := i.directory.getD ⟨ps.value directorySlot⟩
  let texts := [i.program] ++ i.args ++ [i.stateVariable, directory.text]
  if texts.any fun t => t.toList.contains '\x00' then return .error .nulInData
  match ← FileProgram.enter directory with
  | .error e => return .error e
  | .ok _ =>
    let sizes := (i.program :: i.args).map String.utf8ByteSize ++
      [i.stateVariable.utf8ByteSize + 1 + state.utf8ByteSize]
    let call : ToolCall := {
      name := toRaw i.program
      args := i.args.map toRaw
      input := Utf8.encode (script.source ++ "\n")
      directory := (← FileProgram.workingDirectory).arrive directory.text
      environment := (i.environment script state).map fun (n, v) => (toRaw n, toRaw v) }
    if call.name.isEmpty then return .error .notFound
    let searched := (Session.ofCall call).searchPath
    match ← Program.find call.directory searched call.name with
    | .error e => return .error e
    | .ok (_, p) =>
      if sizes.any (· ≥ textLimit) then return .error .argumentsTooLong
      return .ok (← p.run call)

def run (i : Interpreter) : Executor := fun script ps => do
  match ← i.start script ps with
  | .error e => return (ps, .error (.file e))
  | .ok finished =>
    if !finished.status.isSuccess then
      let complaint := trim (Utf8.decodeLossy finished.complaints)
      return (ps, .error (.exited i.program finished.status complaint))
    match Utf8.decode? finished.output with
    | .error fault => return (ps, .error (.notUtf8 fault))
    | .ok output =>
      return if (trim output).isEmpty then (ps, .ok ()) else ps.updateFrom output

end Interpreter

end Pagewright
