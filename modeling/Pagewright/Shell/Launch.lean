import Pagewright.Shell.Builtin

/-!
# Starting programs

What a name stands for when it is called as a command, and how tools and programs of their own are
run.
-/

namespace Pagewright.Shell

open Text

def readScript (s : Session) (file : String) : FileProgram (Option String) := do
  if file = "/dev/null" then return some ""
  match ← FileProgram.read (fileIn s.directory file) with
  | .ok content => return some (rawText content)
  | .error _ => return none

/-- What the program `env` is told: how it changes the environment, and the command that it starts
there. -/
structure EnvironmentArguments where
  isBare : Bool := false
  /-- The variables that are set, or removed, in order. -/
  changes : List (String × Option String) := []
  command : List String := []
  deriving DecidableEq, Repr

namespace EnvironmentArguments

def readChanges (told : EnvironmentArguments) : List String → EnvironmentArguments
  | [] => told
  | a :: rest =>
    let name := a.toList.takeWhile (· != '=')
    match a.toList.drop name.length with
    | [] => { told with command := a :: rest }
    | _ :: value =>
      let change := (String.ofList name, some (String.ofList value))
      readChanges { told with changes := told.changes ++ [change] } rest

/-- Reads options, and then the assignments and the command behind them. -/
def readFrom (told : EnvironmentArguments) : List String → Except String EnvironmentArguments
  | [] => .ok told
  | "--" :: rest => .ok (told.readChanges rest)
  | "-" :: rest => readFrom { told with isBare := true } rest
  | "-u" :: name :: rest => readFrom { told with changes := told.changes ++ [(name, none)] } rest
  | a :: rest =>
    if a.startsWith "-" then do
      let more ← ToolArguments.read
        { letters := ['i'], valued := ['u'],
          names := [("ignore-environment", 'i'), ("unset", 'u')] }
        [a]
      let removed := more.given.filterMap fun (c, name) =>
        if c = 'u' then some (name, none) else none
      readFrom { told with
        isBare := told.isBare || more.has 'i'
        changes := told.changes ++ removed } rest
    else .ok (told.readChanges (a :: rest))

def read (args : List String) : Except String EnvironmentArguments :=
  readFrom {} args

def apply (told : EnvironmentArguments) (s : Session) : Session :=
  let exported := s.bindings.filter (·.2.exported)
  told.changes.foldl (fun s (name, value) =>
      match value with
      | some value => s.exportValue name value
      | none => s.update name fun _ => none)
    { s with bindings := if told.isBare then [] else exported }

end EnvironmentArguments

namespace Run

def callTool (tool : Tool) (name : String) (args : List String) : Run Unit := do
  let s ← get
  let input? := s.input? 0
  let call : ToolCall :=
    { name
      args
      input := (input?.map Input.content).getD []
      hasInput := input?.isSome
      isFromFile := input?.any (·.file.isSome)
      directory := s.directory
      environment := s.environment }
  let reply ← (tool call : FileProgram ToolReply)
  if let some left := reply.left then set (s.withLeft 0 left)
  emit 1 reply.output
  let isBlocked := (← get).isBlocked
  emit 2 (rawBytes reply.complaint)
  if isBlocked then
    let stream := if name = "cat" then "standard output" else "write error"
    emit 2 (rawBytes (name ++ ": " ++ stream ++ ": Bad file descriptor\n"))
  settle (if isBlocked then 1 else reply.status)

/-- What is said about a program that a signal has ended; nothing when the user or a reader has
ended it. -/
def signalText (n : Nat) : Option String :=
  if n = 2 ∨ n = 13 then none
  else
    match Signal.find? n with
    | some s => some s.description
    | none =>
      if n < Signal.firstFree then some ("Unknown signal " ++ toString n)
      else some ("Real-time signal " ++ toString (n - Signal.firstFree))

/-- Runs a part as a program of its own, which a signal may end. -/
def asProgram (body : Run Unit) : Run Unit := do
  let pending := (← get).pending
  try apart body catch
    | .exit (.signal n) =>
      if let some text := signalText n then emit 2 (rawBytes (text ++ "\n"))
      settle (128 + n)
    | stop => throw stop
  modify fun s => { s with pending }

def describe (inFull : Bool) (name : String) : Run Unit := do
  let s ← get
  let answer (short kind : String) : Run Unit := do
    say ((if inFull then name ++ " is " ++ kind else short) ++ "\n")
    settle 0
  let aliased := s.aliases.find? (·.1 == name)
  if keywords.contains name then answer name "a shell keyword"
  else if let some (_, text) := aliased then
    answer ("alias " ++ Builtin.aliasText name text) ("an alias for " ++ text)
  else if s.functions.any (·.1 == name) then answer name "a shell function"
  else if specialBuiltins.contains name then answer name "a special shell builtin"
  else if Builtin.isKnown name then answer name "a shell builtin"
  else
    let isLocated := s.located.any (·.1 == name)
    match ← locate name with
    | .ok (path, _) => answer path ((if isLocated then "a tracked alias for " else "") ++ path)
    | .error _ =>
      if inFull then say (name ++ ": not found\n")
      settle 127

end Run

end Pagewright.Shell
