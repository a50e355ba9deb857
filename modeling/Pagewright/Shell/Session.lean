import Pagewright.Script.ExitStatus
import Pagewright.Shell.Command
import Pagewright.Shell.FileMask
import Pagewright.Shell.OptionScan
import Pagewright.Shell.Options
import Pagewright.Shell.Program

/-!
# Shell sessions

The state that a script runs in: variables, functions, positional parameters, the directory, and the
streams. All texts are raw. What is written goes into buffers, of which the first two are the output
and the complaints of the whole script; further ones hold the output of commands that other commands
take in. What is read comes from inputs, of which the first one is standard input of the whole
script; streams that have one input share how far it has been read. `Run` is a part of a run: it
changes the session, may touch files and may be stopped.
-/

namespace Pagewright.Shell

open Text

inductive Channel where
  | nowhere
  /-- The stream is closed: it can neither be written nor read. -/
  | closed
  | buffer (id : Nat)
  | file (p : Path)
  | input (id : Nat)
  /-- A file that is written, and read as an input. -/
  | both (p : Path) (id : Nat)
  deriving DecidableEq, Repr

structure Input where
  content : Bytes := []
  /-- The file that it comes from. -/
  file : Option Path := none
  deriving DecidableEq, Repr

structure Variable where
  value : Option String := none
  /-- Programs get the value. -/
  exported : Bool := false
  /-- The value stays as it is. -/
  fixed : Bool := false
  deriving DecidableEq, Repr

/-- The state of a script. -/
structure Session where
  name : String
  /-- The line of the command that is carried out. -/
  line : Nat := 1
  /-- The line up to which the script has been read. -/
  ahead : Nat := 1
  /-- The built-in command that is at work, which complaints name. -/
  caller : Option String := none
  bindings : List (String × Variable) := []
  functions : List (String × Command) := []
  aliases : List (String × String) := []
  parameters : List String := []
  /-- How far options have been looked for among arguments. -/
  scan : OptionScan := {}
  directory : Path
  located : List (String × String) := []
  mask : FileMask := {}
  status : Nat := 0
  /-- The status of the last command whose output was taken in by the running one. -/
  outputStatus : Nat := 0
  options : Options := {}
  depth : Nat := 0
  /-- In a function, what it has hidden by variables of its own, the last one first. -/
  hidden : Option (List (String × Option Variable)) := none
  /-- What is done on a signal, or at the end of the script, whose number is 0. -/
  traps : List (Nat × String) := []
  /-- In a part that runs apart, what the script itself does on a signal. -/
  scriptTraps : Option (List (Nat × String)) := none
  /-- While something is done on a signal, the status from before. -/
  statusBefore : Option Nat := none
  /-- What the script is still to do on signals, after the running command. -/
  pending : List String := []
  loops : Nat := 0
  /-- The statuses of the commands in the background. -/
  jobs : List Nat := []
  /-- Something could not be written, as the stream is closed. -/
  isBlocked : Bool := false
  streams : List (Nat × Channel) := [(0, .input 0), (1, .buffer 0), (2, .buffer 1)]
  inputs : List Input := [{}]
  /-- What was written, the last part first. -/
  buffers : List (List Bytes) := [[], []]

/-- Why a part of a script is not carried on. -/
inductive Stop where
  | exit (status : ExitStatus)
  /-- An error that ends the script, unless a built-in command goes on after it. -/
  | failed
  | leave (loops : Nat)
  | next (loops : Nat)
  | back

abbrev Run := ExceptT Stop (StateT Session FileProgram)

namespace Session

/-- The number that stands for the process of the script; the commands in the background have those
after it. -/
def processNumber : Nat := 4242

def lookup? (s : Session) (name : String) : Option Variable :=
  (s.bindings.find? (·.1 == name)).map Prod.snd

def get? (s : Session) (name : String) : Option String :=
  (s.lookup? name).bind Variable.value

def update (s : Session) (name : String) (f : Option Variable → Option Variable) : Session :=
  let others := s.bindings.filter (·.1 != name)
  { s with bindings := match f (s.lookup? name) with
      | some v => (name, v) :: others
      | none => others }

def set (s : Session) (name value : String) : Session :=
  s.update name fun old => some { old.getD {} with value := some value }

/-- The session with a variable set for programs too. -/
def exportValue (s : Session) (name value : String) : Session :=
  s.update name fun old => some { old.getD {} with value := some value, exported := true }

def environment (s : Session) : List (String × String) :=
  s.bindings.filterMap fun (name, v) => if v.exported then v.value.map (name, ·) else none

/-- The session with the variables that a shell starts with: its own, then those of its environment
that have names, and last those that start in the same way whatever the environment says. -/
def withEnvironment (s : Session) (environment : List (String × String)) : Session :=
  let path := "/usr/local/sbin:/usr/local/bin:/usr/sbin:/usr/bin:/sbin:/bin"
  let own := [("PATH", path), ("PS1", "# "), ("PS2", "> "), ("PS4", "+ ")]
  let given := environment.filter fun (name, _) => isName name
  let settled := [("IFS", " \t\n"), ("OPTIND", "1"), ("PPID", toString (processNumber - 1))]
  let s := own.foldl (fun s (name, v) => s.set name v) { s with bindings := [] }
  let s := given.foldl (fun s (name, v) => s.exportValue name v) s
  let s := settled.foldl (fun s (name, v) => s.set name v) s
  s.exportValue "PWD" (toRaw s.directory.text)

def ofCall (call : ToolCall) : Session :=
  let inputs := [{ content := call.input }]
  { name := call.name, directory := call.directory, inputs : Session }.withEnvironment
    call.environment

/-- The session of a shell that is started from here under some name. -/
def fresh (s : Session) (name : String) : Session :=
  { s with
    name
    line := 1
    caller := none
    functions := []
    aliases := []
    parameters := []
    scan := {}
    located := []
    status := 0
    options := {}
    depth := 0
    hidden := none
    scriptTraps := none
    statusBefore := none
    pending := []
    loops := 0
    jobs := [] }.withEnvironment s.environment

def separators (s : Session) : List Char :=
  ((s.get? "IFS").getD " \t\n").toList

def channel (s : Session) (stream : Nat) : Channel :=
  ((s.streams.find? (·.1 == stream)).map Prod.snd).getD .closed

def withChannel (s : Session) (stream : Nat) (channel : Channel) : Session :=
  { s with streams := (stream, channel) :: s.streams.filter (·.1 != stream) }

def inputId? (s : Session) (stream : Nat) : Option Nat :=
  match s.channel stream with
  | .input id => some id
  | .both _ id => some id
  | _ => none

def input? (s : Session) (stream : Nat) : Option Input :=
  (s.inputId? stream).bind (s.inputs[·]?)

/-- The session after a stream has been read up to where only some content is left. -/
def withLeft (s : Session) (stream : Nat) (content : Bytes) : Session :=
  match s.inputId? stream with
  | some id => { s with inputs := s.inputs.modify id ({ · with content }) }
  | none => s

def reading (s : Session) (stream : Nat) (input : Input) : Session :=
  { s with inputs := s.inputs ++ [input] }.withChannel stream (.input s.inputs.length)

def written (s : Session) (id : Nat) : Bytes :=
  ((s.buffers[id]?).getD []).reverse.flatten

def searchPath (s : Session) : List String :=
  match s.get? "PATH" with
  | some path => path.splitOn ":"
  | none => []

/-- The session with other positional parameters, among which no options have been looked for. -/
def withParameters (s : Session) (parameters : List String) : Session :=
  { s with parameters, scan := {} }

end Session

namespace Run

def settle (status : Nat) : Run Unit :=
  modify fun s => { s with status }

/-- Writes to where a stream goes. -/
def emitTo (channel : Channel) (content : Bytes) : Run Unit := do
  let append (p : Path) : Run Unit := do
    let old : Bytes := ((← (FileProgram.read p : FileProgram _)).toOption).getD []
    let _ ← (FileProgram.write p (old ++ content) : FileProgram _)
  match channel with
  | .nowhere => return ()
  | .closed | .input _ => if !content.isEmpty then modify fun s => { s with isBlocked := true }
  | .buffer id => modify fun s => { s with buffers := s.buffers.modify id (content :: ·) }
  | .file p | .both p _ => append p

def emit (stream : Nat) (content : Bytes) : Run Unit := do
  emitTo ((← get).channel stream) content
  if stream = 2 then modify fun s => { s with isBlocked := false }

def say (text : String) : Run Unit :=
  emit 1 (rawBytes text)

def complain (message : String) : Run Unit := do
  let s ← get
  let parts := [s.name, toString s.line] ++ s.caller.toList ++ [message]
  emit 2 (rawBytes (": ".intercalate parts ++ "\n"))

def die {α : Type} (message : String) : Run α := do
  complain message
  throw .failed

/-- Gives a variable a value, unless it is fixed. -/
def store (name value : String) : Run Unit := do
  let s ← get
  if (s.lookup? name).any Variable.fixed then die (name ++ ": is read only")
  set (if s.options.exportsAll then s.exportValue name value else s.set name value)

/-- Gives a variable a value that counts at once: programs are looked for anew along another path,
and options are looked for from the argument of another number on. -/
def assign (name value : String) : Run Unit := do
  if name = "PATH" then modify fun s => { s with located := [] }
  if name = "OPTIND" && !((← get).lookup? name).any Variable.fixed then
    if value.isEmpty || !value.all Char.isDigit then die ("Illegal number: " ++ value)
    modify fun s => { s with scan := { next := max 1 (value.toNat?.getD 1) } }
  store name value

/-- Finds a program. One that is found by its name is remembered. -/
def locate (name : String) : Run (Except FileError (String × Program)) := do
  let s ← get
  match ← (Program.find s.directory s.searchPath name : FileProgram _) with
  | .error e => return .error e
  | .ok (path, p) =>
    if !name.toList.contains '/' && !s.located.any (·.1 == name) then
      set { s with located := s.located ++ [(name, path)] }
    return .ok (path, p)

/-- Does something after a part, whether or not the part was stopped. -/
def thenRestoring (body restore : Run Unit) : Run Unit := do
  try body catch stop =>
    restore
    throw stop
  restore

def asCaller {α : Type} (caller : Option String) (body : Run α) : Run α := do
  let before := (← get).caller
  modify fun s => { s with caller }
  let restore : Run Unit := modify fun s => { s with caller := before }
  let a ← try body catch stop =>
    restore
    throw stop
  restore
  return a

def checkingOutput (body : Run Unit) : Run Unit := do
  body
  let s ← get
  if s.isBlocked then
    set { s with isBlocked := false }
    complain ((s.caller.map (· ++ ": ")).getD "" ++ "I/O error")
    settle 1

/-- Runs a part in a copy of the session: only what it writes, reads and its status last. -/
def apart (body : Run Unit) : Run Unit := do
  let before ← get
  set { before with
    traps := before.traps.filter (·.2.isEmpty)
    scriptTraps := some (before.scriptTraps.getD before.traps) }
  let restore : Run Unit := modify fun after =>
    { before with
      buffers := after.buffers
      inputs := after.inputs
      status := after.status
      pending := after.pending }
  try body catch
    | .exit (.code n) => settle n
    | .exit status =>
      restore
      throw (.exit status)
    | .failed => settle 2
    | _ => pure ()
  restore

def capture (body : Run Unit) : Run Bytes := do
  let id := (← get).buffers.length
  apart do
    modify fun s => { s with buffers := s.buffers ++ [[]] }.withChannel 1 (.buffer id)
    body
  let s ← get
  set { s with buffers := s.buffers.take id }
  return s.written id

end Run

end Pagewright.Shell
