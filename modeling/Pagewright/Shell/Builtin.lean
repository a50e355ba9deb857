import Pagewright.Shell.Builtin.Names
import Pagewright.Shell.Builtin.Signals
import Pagewright.Shell.Builtin.Variables
import Pagewright.Shell.Condition

/-!
# Built-in commands

The commands that a shell carries out itself, apart from those that carry out other commands.
-/

namespace Pagewright.Shell

open Text

namespace Builtin

def exit : Action := fun args => do
  match args with
  | [] =>
    let s ← get
    throw (.exit (.code (s.statusBefore.getD s.status)))
  | a :: _ =>
    match status? a with
    | some n => throw (.exit (.code (n % 256)))
    | none => Run.die ("Illegal number: " ++ a)

/-- Leaves or continues loops, at most those that are open. -/
def jump (stop : Nat → Stop) : Action := fun args => do
  let count := args.headD "1"
  match (status? count).filter (0 < ·) with
  | none => Run.die ("Illegal number: " ++ count)
  | some n =>
    let s ← get
    Run.settle 0
    if s.loops != 0 then throw (stop (min n s.loops))

def back : Action := fun args => do
  if let some a := args.head? then
    match status? a with
    | some n => Run.settle n
    | none => Run.die ("Illegal number: " ++ a)
  throw .back

def echo : Action := fun args => do
  let (isOpen, args) := match args with
    | "-n" :: args => (true, args)
    | args => (false, args)
  let text := " ".intercalate args
  let (bytes, ended) := unescape true (text.length + 1) text.toList
  Run.emit 1 (if isOpen || ended then bytes else bytes ++ [0x0A])
  Run.settle 0

def faultMessage (arg : String) : NumberFault → String
  | .noNumber => arg ++ ": expected numeric value"
  | .notWhole => arg ++ ": not completely converted"
  | .outOfRange => arg ++ ": Numerical result out of range"

def printf : Action := fun args => do
  match ← operands [] args with
  | [] => Run.die "usage: printf format [arg ...]"
  | form :: args =>
    let formatted := format form args
    for (arg, fault) in formatted.faults do Run.complain (faultMessage arg fault)
    Run.emit 1 formatted.output
    match formatted.halt with
    | some (.badConversion text) => Run.die (text ++ ": invalid directive")
    | some .noLetter => Run.die "missing format character"
    | _ => Run.settle (if formatted.faults.isEmpty then 0 else 1)

def pwd : Action := fun args => do
  let _ ← operands ['L', 'P'] args
  Run.say (toRaw (← get).directory.text ++ "\n")
  Run.settle 0

/-- Where a directory is found that is told by a path without a dot or a slash in front: in the
first of some directories that has it, if any. -/
def foundAlong (directory : Path) (target : String) : List String → FileProgram (Option String)
  | [] => return none
  | d :: ds => do
    let path := if d.isEmpty then target else d ++ "/" ++ target
    if (← FileProgram.inspect (fileIn directory path)) == some .directory then return some path
    else foundAlong directory target ds

/-- Changes the directory. One that is found elsewhere, or that was left before, is shown. -/
def cd : Action := fun args => do
  let args ← operands ['L', 'P'] args
  let s ← get
  let target := match args with
    | [] => (s.get? "HOME").getD ""
    | "-" :: _ => (s.get? "OLDPWD").getD ""
    | a :: _ => a
  let target := if target.isEmpty then "." else target
  let isPlaced := ["/", "./", "../"].any fun front => (target ++ "/").startsWith front
  let along := if isPlaced then [] else ((s.get? "CDPATH").map fun t => t.splitOn ":").getD []
  let found ← (foundAlong s.directory target along : FileProgram _)
  let path := found.getD target
  if (← (FileProgram.inspect (fileIn s.directory path) : FileProgram _)) == some .directory then
    let there := s.directory.arrive (ofRaw path)
    let after := { s with directory := there }.exportValue "OLDPWD" (toRaw s.directory.text)
    set (after.exportValue "PWD" (toRaw there.text))
    if args.head? == some "-" || path != target then Run.say (toRaw there.text ++ "\n")
    Run.settle 0
  else
    Run.complain ("can't cd to " ++ target)
    Run.settle 2

def test (name : String) : Action := fun args => do
  let refuse (message : String) : Run Unit := do
    Run.complain message
    Run.settle 2
  if name = "[" && args.getLast? != some "]" then refuse "missing ]"
  else
    let args := if name = "[" then args.dropLast else args
    match ← ((Condition.decide (← get).directory args).run : FileProgram _) with
    | .ok b => Run.settle (if b then 0 else 1)
    | .error message => refuse message

def umask : Action := fun args => do
  let (told, names) ← options ['S'] [] args
  let mask := (← get).mask
  match names with
  | [] => Run.say ((if told.isEmpty then mask.octal else mask.inWords) ++ "\n")
  | a :: _ =>
    if a.toList.head?.any Char.isDigit then
      match FileMask.ofOctal? a with
      | some mask => modify fun s => { s with mask }
      | none => Run.die ("Illegal number: " ++ a)
    else
      match mask.changed? a with
      | some mask => modify fun s => { s with mask }
      | none => Run.die ("Illegal mode: " ++ a)
  Run.settle 0

/-- Shows a limit of the system, of which none is set. -/
def limit : Action := fun args => do
  match ← operands "HSatfdscmlpnvwr".toList args with
  | [] => Run.say "unlimited\n"
  | [a] => if a != "unlimited" && (status? a).isNone then Run.die "bad number"
  | _ => Run.die "too many arguments"
  Run.settle 0

/-- Shows how much time was spent, which is none. -/
def times : Action := fun _ => do
  for _ in [0, 1] do Run.say "0m0.000000s 0m0.000000s\n"
  Run.settle 0

/-- The built-in commands that carry out other commands. -/
def runners : List String := [".", "command", "eval", "exec", "type"]

/-- The built-in commands by name, apart from those that need to know the others. -/
def most : List (String × Action) :=
  [(":", fun _ => Run.settle 0), ("true", fun _ => Run.settle 0), ("false", fun _ => Run.settle 1),
    ("exit", exit), ("break", jump .leave), ("continue", jump .next), ("return", back),
    ("echo", echo), ("printf", printf), ("pwd", pwd), ("cd", cd), ("chdir", cd),
    ("export", declare "export" Variable.exported fun v => { v with exported := true }),
    ("readonly", declare "readonly" Variable.fixed fun v => { v with fixed := true }),
    ("local", hide), ("unset", unset), ("shift", shift), ("set", setOptions), ("kill", kill),
    ("read", read), ("test", test "test"), ("[", test "["), ("trap", trap), ("wait", wait),
    ("umask", umask), ("alias", setAliases), ("unalias", removeAliases), ("times", times),
    ("getopts", getopts), ("jobs", listJobs), ("fg", resume), ("bg", resume), ("ulimit", limit)]

def isKnown (name : String) : Bool :=
  name = "hash" || most.any (·.1 == name) || runners.contains name

def all : List (String × Action) :=
  ("hash", remember isKnown) :: most

def find? (name : String) : Option Action :=
  (all.find? (·.1 == name)).map Prod.snd

end Builtin

end Pagewright.Shell
