import Pagewright.Shell.Builtin.Basic

/-!
# Built-in commands for signals and jobs

The built-in commands that send signals, say what is done on them, and wait for commands in the
background.
-/

namespace Pagewright.Shell

open Text

namespace Builtin

/-- The name that scripts have for a signal. Of those that are free for any use the name tells the
distance from the nearer end. -/
def signalName (n : Nat) : String :=
  if n = 0 then "EXIT"
  else if n = Signal.firstFree then "RTMIN"
  else if n = Signal.last then "RTMAX"
  else if Signal.firstFree < n ∧ n < 50 then "RTMIN+" ++ toString (n - Signal.firstFree)
  else if 50 ≤ n then "RTMAX-" ++ toString (Signal.last - n)
  else if n = 16 then "16"
  else ((Signal.find? n).map Signal.name).getD (toString n)

/-- The number of a signal that is given by a number, or by a name in letters of either case. -/
def signal? (s : String) : Option Nat :=
  match status? s with
  | some n => if n ≤ Signal.last then some n else none
  | none =>
    (List.range (Signal.last + 1)).find? fun n => signalName n == s.map Char.toUpper

/-- Sends a signal to the script itself, which it ends unless the script has said what is done
instead. -/
def deliver (n : Nat) : Run Unit := do
  let s ← get
  let traps := s.scriptTraps.getD s.traps
  match (traps.find? (·.1 == n)).filter fun _ => n != 9 && n != 19 with
  | some (_, action) => modify fun s => { s with pending := s.pending ++ [action] }
  | none => if !Signal.isHarmless n then throw (.exit (.signal n))

/-- Sends a signal to processes, of which only the script itself is known. -/
def send (n : Nat) (targets : List String) : Run Unit := do
  Run.settle 0
  for target in targets do
    let number := if target.startsWith "-" then String.ofList (target.toList.drop 1) else target
    if (status? number).isNone then Run.die ("Illegal number: " ++ number)
    if target = toString Session.processNumber then deliver n
    else
      Run.complain "No such process\n"
      Run.settle 1

/-- Tells the names of signals: of all of them, or of the one that a status stands for. -/
def listSignals : Action := fun args => do
  match args with
  | [] =>
    Run.say "0\n"
    for n in (List.range (Signal.last + 1)).drop 1 do Run.say (signalName n ++ "\n")
  | a :: _ =>
    let some n := status? a | Run.die ("Illegal number: " ++ a)
    let signal := if 128 < n then n - 128 else n
    if signal = 0 || Signal.last < signal then
      Run.die ("invalid signal number or exit status: " ++ a)
    Run.say (signalName signal ++ "\n")
  Run.settle 0

def kill : Action := fun args => do
  let usage : Run Unit := Run.die
    "Usage: kill [-s sigspec | -signum | -sigspec] [pid | job]... or\nkill -l [exitstatus]"
  let named := args.head?.bind fun a =>
    if a.startsWith "-" then signal? (String.ofList (a.toList.drop 1)) else none
  match named.filter fun n => n != 0 || args.head? != some "-EXIT" with
  | some n => if args.tail.isEmpty then usage else send n args.tail
  | none =>
    let (told, targets) ← options ['l'] ['s'] args
    let mut chosen : Option Nat := none
    for (letter, name) in told do
      if letter = 's' then
        chosen := signal? name
        if chosen.isNone then Run.die ("invalid signal number or name: " ++ name)
    if told.any (·.1 == 'l') then
      if chosen.isSome && !targets.isEmpty then usage else listSignals targets
    else if targets.isEmpty then usage
    else send (chosen.getD 15) targets

def setTraps (action : Option String) : Action
  | [] => Run.settle 0
  | name :: names => do
    match signal? name with
    | none =>
      Run.emit 2 (rawBytes ("trap: " ++ name ++ ": bad trap\n"))
      Run.settle 1
    | some n =>
      modify fun s =>
        { s with traps := action.toList.map (n, ·) ++ s.traps.filter (·.1 != n) }
      setTraps action names

def trap : Action := fun args => do
  match ← operands [] args with
  | [] =>
    for n in List.range (Signal.last + 1) do
      if let some (_, action) := (← get).traps.find? (·.1 == n) then
        Run.say ("trap -- " ++ singleQuoted action ++ " " ++ signalName n ++ "\n")
    Run.settle 0
  | [name] => setTraps none [name]
  | action :: names =>
    if ((status? action).bind fun _ => signal? action).isSome then setTraps none (action :: names)
    else setTraps (if action = "-" then none else some action) names

/-- The status of a command in the background, which is told by its process or by its place among
them; all of them have ended by now. -/
def jobStatus? (s : Session) (a : String) : Option Nat :=
  match a.toList with
  | '%' :: place =>
    (status? (String.ofList place)).bind fun n => if n = 0 then none else s.jobs[n - 1]?
  | _ =>
    (status? a).map fun id =>
      if Session.processNumber < id then s.jobs.getD (id - Session.processNumber - 1) 127 else 127

def refuseJob (a : String) : Run Unit :=
  if (status? a).isSome || a.startsWith "%" then Run.die ("No such job: " ++ a)
  else Run.die ("Illegal number: " ++ a)

def wait : Action := fun args => do
  let s ← get
  let args ← operands [] args
  if let some id := args.find? fun a => (jobStatus? s a).isNone then refuseJob id
  Run.settle ((args.getLast?.bind (jobStatus? s)).getD 0)

/-- Tells about commands in the background, of which none is still running. -/
def listJobs : Action := fun args => do
  let s ← get
  let args ← operands ['l', 'p'] args
  let isJob (a : String) : Bool := a.startsWith "%" && (jobStatus? s a).isSome
  if let some id := args.find? fun a => !isJob a then Run.die ("No such job: " ++ id)
  Run.settle 0

/-- Brings a command in the background back, which takes one that is still running. -/
def resume : Action := fun args => do
  match ← operands [] args with
  | [] => Run.die "No current job"
  | id :: _ => Run.die ("No such job: " ++ id)

end Builtin

end Pagewright.Shell
