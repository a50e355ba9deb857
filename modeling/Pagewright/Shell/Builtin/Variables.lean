import Pagewright.Shell.Builtin.Basic
import Pagewright.Shell.InputLine

/-!
# Built-in commands for variables

The built-in commands that set, list, hide and remove variables and positional parameters.
-/

namespace Pagewright.Shell

open Text

namespace Builtin

/-- The name and the new value in an argument, which has to be a name at least. -/
def readBinding (argument : String) : Run (String × Option String) := do
  let name := String.ofList (argument.toList.takeWhile (· != '='))
  if !isName name then Run.die (name ++ ": bad variable name")
  return match argument.toList.dropWhile (· != '=') with
    | [] => (name, none)
    | _ :: value => (name, some (String.ofList value))

/-- Lists some of the variables by the start of the commands that set them. -/
def listVariables (start : String) (which : Variable → Bool) : Run Unit := do
  let chosen := ((← get).bindings.filter (which ·.2)).mergeSort (·.1 ≤ ·.1)
  for (name, v) in chosen do
    let value := (v.value.map fun t => "=" ++ singleQuoted t).getD ""
    Run.say (start ++ name ++ value ++ "\n")

/-- Gives variables new values, if there are any, and marks them; or lists the marked ones. -/
def declare (command : String) (isMarked : Variable → Bool) (mark : Variable → Variable) :
    Action := fun args => do
  let (told, names) ← options ['p'] [] args
  if !told.isEmpty || names.isEmpty then listVariables (command ++ " ") isMarked
  for a in if told.isEmpty then names else [] do
    let (name, value) ← readBinding a
    if let some value := value then Run.assign name value
    modify fun s => s.update name fun old => some (mark (old.getD {}))
  Run.settle 0

/-- Hides variables until the running function ends. -/
def hide : Action := fun args => do
  let s ← get
  if s.hidden.isNone then Run.die "not in a function"
  for a in args do
    let caller := if a.toList.contains '=' then none else s.caller
    let (name, value) ← Run.asCaller caller (readBinding a)
    modify fun s => { s with hidden := s.hidden.map ((name, s.lookup? name) :: ·) }
    if let some value := value then Run.assign name value
  Run.settle 0

def unset : Action := fun args => do
  let forFunctions := args.contains "-f"
  for a in ← operands ['f', 'v'] args do
    if forFunctions then
      modify fun s => { s with functions := s.functions.filter (·.1 != a) }
    else
      if !isName a then Run.die (a ++ ": bad variable name")
      if ((← get).lookup? a).any Variable.fixed then Run.die (a ++ ": is read only")
      if a = "OPTIND" then Run.die "Illegal number: "
      modify fun s => s.update a fun _ => none
  Run.settle 0

def shift : Action := fun args => do
  let count := args.headD "1"
  let some n := status? count | Run.die ("Illegal number: " ++ count)
  let s ← get
  if n ≤ s.parameters.length then
    set (s.withParameters (s.parameters.drop n))
    Run.settle 0
  else Run.die "can't shift that many"

def setOptions : Action := fun args => do
  if args.isEmpty then listVariables "" fun v => v.value.isSome
  match OptionArguments.read [] (← get).options args with
  | .error option => Run.die ("Illegal option " ++ option)
  | .ok told =>
    Run.say told.listing
    modify fun s =>
      let s := { s with options := told.options }
      (told.operands.map s.withParameters).getD s
    Run.settle 0

def getopts : Action := fun args => do
  match ← operands [] args with
  | known :: name :: given =>
    let s ← get
    let list := if given.isEmpty then s.parameters else given
    let scan := if s.scan.next > list.length + 1 then {} else s.scan
    let step := scan.step known.toList list
    if let some message := step.complaint then Run.emit 2 (rawBytes (message ++ "\n"))
    match step.value with
    | none => pure ()
    | some none => modify fun s => s.update "OPTARG" fun _ => none
    | some (some value) => Run.store "OPTARG" value
    Run.store "OPTIND" (toString step.after.next)
    if !isName name then Run.die (name ++ ": bad variable name")
    Run.assign name (String.singleton step.letter)
    modify fun s => { s with scan := step.after }
    Run.settle (if step.isEnd then 1 else 0)
  | _ => Run.die "Usage: getopts optstring var [arg...]"

/-- Gives variables the fields of a line in turn; those without a field become empty. -/
def assignFields : List String → List Bytes → Run Unit
  | [], _ => return ()
  | name :: names, fields => do
    if !isName name then Run.die (name ++ ": bad variable name")
    Run.assign name (rawText (fields.headD []))
    assignFields names fields.tail

/-- Reads a line into variables; the last one takes what is left of it. -/
def read : Action := fun args => do
  let (told, names) ← options ['r'] ['p'] args
  if names.isEmpty then Run.die "arg count"
  let s ← get
  let content := ((s.input? 0).map Input.content).getD []
  let line := InputLine.take (told.any (·.1 == 'r')) false content
  set (s.withLeft 0 line.rest)
  let separators := bytesOf s.separators
  assignFields names (InputLine.fields separators names.length line.items)
  Run.settle (if line.isWhole then 0 else 1)

end Builtin

end Pagewright.Shell
