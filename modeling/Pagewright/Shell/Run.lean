import Pagewright.Shell.Home
import Pagewright.Shell.Launch
import Pagewright.Shell.Pathname
import Pagewright.Shell.Reader
import Pagewright.Shell.Redirect

/-!
# Running scripts of the shell

Words are expanded, commands carried out, and a script is run line by line, each line being read
only after the ones before it have been run. All of it spends fuel, which bounds the depth of the
commands and the number of rounds of a loop together.
-/

namespace Pagewright.Shell

open Text

namespace Run

inductive Origin where
  | argument
  | file
  /-- Standard input, whose lines may be shown, and which may have been replaced in the end. -/
  | input
  deriving DecidableEq

def takeInput : Run String := do
  let s ← get
  set (s.withLeft 0 [])
  return rawText (((s.input? 0).map Input.content).getD [])

/-- Output as the value of an expansion: without line feeds at its end. -/
def outputText (bytes : Bytes) : String :=
  rawText (((bytes.filter (· != 0)).reverse.dropWhile (· == 0x0A)).reverse)

def parameter? (s : Session) (name : String) : Option String :=
  match name with
  | "#" => some (toString s.parameters.length)
  | "?" => some (toString s.status)
  | "$" => some (toString Session.processNumber)
  | "-" => some s.options.letters
  | "!" =>
    if s.jobs.isEmpty then none else some (toString (Session.processNumber + s.jobs.length))
  | "0" => some s.name
  | name =>
    if name.all Char.isDigit then s.parameters[(leadingNumber name.toList).1 - 1]?
    else if name = "@" || name = "*" then some (" ".intercalate s.parameters)
    else s.get? name

def atomsOf (quoted : Bool) (value : String) : List Atom :=
  value.toList.map fun c => if quoted then .char c true else .soft c

/-- All positional parameters, each a field of its own. -/
def allParameters (quoted : Bool) : List String → List Atom
  | [] => []
  | [p] => (if quoted then [.fence] else []) ++ atomsOf quoted p
  | p :: ps =>
    (if quoted then [.fence] else []) ++ atomsOf quoted p ++ .boundary :: allParameters quoted ps

def joint (s : Session) : String :=
  String.ofList (s.separators.take 1)

/-- The value of a parameter, which is a field for each positional parameter in some cases. -/
def valueAtoms (s : Session) (quoted : Bool) (name value : String) : List Atom :=
  if name = "@" || (name = "*" && !quoted) then allParameters quoted s.parameters
  else if name = "*" then atomsOf true ((joint s).intercalate s.parameters)
  else atomsOf quoted value

/-- The value of a parameter with a change at one end, which is made to the last of the positional
parameters, or to the first when `atFront`. -/
def trimmedAtoms (s : Session) (quoted : Bool) (name value : String) (atFront : Bool)
    (trim : List Char → List Char) : List Atom :=
  let change (text : String) : String := String.ofList (trim text.toList)
  if name = "@" || (name = "*" && !quoted) then
    let place := if atFront then 0 else s.parameters.length - 1
    allParameters quoted (s.parameters.modify place change)
  else if name = "*" then atomsOf true (change ((joint s).intercalate s.parameters))
  else atomsOf quoted (change value)

/-- An expanded word as one text, with positional parameters taken together. -/
def joined (s : Session) (atoms : List Atom) : List Atom :=
  atoms.flatMap fun a => if a = .boundary then atomsOf true (joint s) else [a]

def dieEarly {α : Type} (message : String) : Run α := do
  modify fun s => { s with line := 0 }
  die message

/-- Ends the script after a failure that counts. -/
def checkFailure (guarded : Bool) : Run Unit := do
  let s ← get
  if s.options.endsOnFailure && !guarded && s.status != 0 then throw (.exit (.code s.status))

def isAssignment (w : Word) : Bool :=
  match w with
  | .plain text :: _ =>
    let name := text.toList.takeWhile (· != '=')
    isName (String.ofList name) && name.length < text.length
  | _ => false

/-- The value of a parameter where one is needed; only options allow to do without. -/
def demand (name : String) : Run (Option String) := do
  let s ← get
  let value := parameter? s name
  let isList := name = "@" || name = "*"
  if value.isNone && s.options.needsValues && !isList then die (name ++ ": parameter not set")
  return value

def calculate (expression : String) : Run Int64 := do
  let s ← get
  let value (name : String) : Except Arithmetic.Fault Int64 :=
    match s.get? name with
    | none => .ok 0
    | some text =>
      match Arithmetic.integer? text with
      | some n => .ok (Arithmetic.word n)
      | none => if text.all Char.isWhitespace then .ok 0 else .error (.badNumber text)
  match Arithmetic.evaluate value expression with
  | .ok (n, assigned) =>
    assigned.reverse.forM fun (name, n) => assign name (toString n)
    return n
  | .error fault => die (fault.message expression)

def keepingVariables (names : List String) (body : Run Unit) : Run Unit := do
  let before ← get
  body.thenRestoring do
    modify fun s => names.foldl (fun s n => s.update n fun _ => before.lookup? n) s

def insideLoop (body : Run Unit) : Run Unit := do
  modify fun s => { s with loops := s.loops + 1 }
  body.thenRestoring (modify fun s => { s with loops := s.loops - 1 })

def insideFunction (parameters : List String) (body : Run Unit) : Run Unit := do
  let before ← get
  if before.depth ≥ 1000 then die "Maximum function recursion depth (1000) reached"
  set { before.withParameters parameters with
    depth := before.depth + 1
    loops := 0
    hidden := some [] }
  let body : Run Unit := do
    try body catch
      | .back => pure ()
      | stop => throw stop
  body.thenRestoring do
    modify fun s =>
      let s := (s.hidden.getD []).foldl (fun s (name, v) => s.update name fun _ => v) s
      { s with
        parameters := before.parameters
        scan := before.scan
        depth := before.depth
        loops := before.loops
        hidden := before.hidden }

/-- Runs a whole script and then what it does at its end. -/
def concluded (body last : Run Unit) : Run Unit := do
  try body catch
    | .exit (.code n) => settle n
    | .exit status => throw (.exit status)
    | .failed => settle 2
    | _ => pure ()
  last

def survive (body : Run Unit) : Run Unit := do
  try body catch
    | .failed => settle 2
    | stop => throw stop

def lament (name : String) (e : FileError) : Run Unit := do
  let isRefused := e == .permissionDenied
  complain (name ++ (if isRefused then ": Permission denied" else ": not found"))
  settle (if isRefused && name.toList.contains '/' then 126 else 127)

/-- Shows the first lines of what is left of a script, when that is asked for. -/
def showLines (rest : List Char) (count : Nat) : Run Unit := do
  let s ← get
  if s.options.showsLines then
    let lines := ((rest.splitOn '\n').take count).map (· ++ ['\n'])
    emit 2 (bytesOf (lines.flatten.take rest.length))

inductive RoundEnd where
  | finished
  | skipped
  | left
  deriving DecidableEq

/-- Tells how a round of a loop ends. -/
def round (body : Run Unit) : Run RoundEnd := do
  try
    body
    return .finished
  catch
    | .leave n => if n ≤ 1 then return .left else throw (.leave (n - 1))
    | .next n => if n ≤ 1 then return .skipped else throw (.next (n - 1))
    | stop => throw stop

mutual

def expand : (fuel : Nat) → (quoted : Bool) → List Piece → Run (List Atom)
  | 0, _, _ => die "too deep"
  | _, _, [] => return []
  | fuel + 1, quoted, p :: ps => do
    let here ← expandPiece fuel quoted p
    return here ++ (← expand fuel quoted ps)

def expandPiece : (fuel : Nat) → (quoted : Bool) → Piece → Run (List Atom)
  | 0, _, _ => die "too deep"
  | fuel + 1, quoted, piece => do
    match piece with
    | .plain s => return s.toList.map fun c => .char c quoted
    | .quoted [.parameter "@"] => return allParameters true (← get).parameters
    | .quoted ps => return .fence :: (← expand fuel true ps)
    | .parameter name =>
      let value := (← demand name).getD ""
      return valueAtoms (← get) quoted name value
    | .lengthOf name =>
      return atomsOf quoted (toString ((← demand name).getD "").length)
    | .changed name change emptyToo word =>
      let s ← get
      let value? := parameter? s name
      let value := value?.getD ""
      let word := if quoted then word else Word.atHome word s
      let isMissing := value?.isNone || (emptyToo && value.isEmpty)
      let same := valueAtoms s quoted name value
      let instead : Run (List Atom) := do
        let atoms ← expand fuel quoted word
        return if quoted then atoms else atoms.map Atom.soften
      match change with
      | .orElse => if isMissing then instead else return same
      | .insteadOf => if isMissing then return [] else instead
      | .assignElse =>
        if isMissing then
          let new ← expandText fuel word
          if !isName name then die (name ++ ": bad variable name")
          assign name new
          return atomsOf quoted new
        else return same
      | .demand =>
        if isMissing then
          let note ← expandText fuel word
          let usual := if emptyToo then "parameter not set or null" else "parameter not set"
          die (name ++ ": " ++ (if word.isEmpty then usual else note))
        else return same
      | .dropFront longest =>
        let value := (← demand name).getD ""
        let p := Atom.pattern (joined s (← expand fuel false word))
        return trimmedAtoms s quoted name value true (p.dropFront longest)
      | .dropBack longest =>
        let value := (← demand name).getD ""
        let p := Atom.pattern (joined s (← expand fuel false word))
        return trimmedAtoms s quoted name value false (p.dropBack longest)
    | .output script =>
      let status := (← get).status
      let bytes ← capture (concluded (execute fuel false script) (runLast fuel))
      modify fun s => { s with status, outputStatus := s.status }
      return atomsOf quoted (outputText bytes)
    | .wrong => die "Bad substitution"
    | .arithmetic ps =>
      let atoms ← expand fuel true ps
      return atomsOf quoted (toString (← calculate (Atom.text (joined (← get) atoms))))

/-- Expands a word to a text, as it is done where no fields are wanted. -/
def expandText : (fuel : Nat) → Word → Run String
  | 0, _ => die "too deep"
  | fuel + 1, w => do
    let atoms ← expand fuel false (w.atHome (← get))
    return Atom.text (joined (← get) atoms)

/-- The fields of words; after some commands, words that have the form of assignments are left
whole. -/
def expandWords : (fuel : Nat) → (declares : Bool) → List Word → Run (List String)
  | 0, _, _ => die "too deep"
  | _, _, [] => return []
  | fuel + 1, declares, w :: ws => do
    let here ← expandWord fuel (declares && isAssignment w) w
    return here ++ (← expandWords fuel declares ws)

def expandWord : (fuel : Nat) → (whole : Bool) → Word → Run (List String)
  | 0, _, _ => die "too deep"
  | fuel + 1, whole, w => do
    if whole then return [← expandText fuel (w.valueAtHome (← get))]
    let atoms ← expand fuel false (w.atHome (← get))
    let s ← get
    let fields := Atom.fields s.separators atoms
    if s.options.keepsPatterns then return fields.map Atom.text
    return (← (fields.mapM (Atom.paths s.directory) : FileProgram _)).flatten

def expandCommand : (fuel : Nat) → List Word → Run (List String)
  | 0, _ => die "too deep"
  | _, [] => return []
  | fuel + 1, w :: ws => do
    match ← expandWord fuel false w with
    | [] => expandCommand fuel ws
    | name :: fields =>
      let declares := ["export", "local", "readonly"].contains name
      return name :: fields ++ (← expandWords fuel declares ws)

/-- Carries out assignments, each of which sees the ones before it, and gives their values. -/
def assignAll : (fuel : Nat) → (exported : Bool) → List (String × Word) →
    Run (List (String × String))
  | 0, _, _ => die "too deep"
  | _, _, [] => return []
  | fuel + 1, exported, (name, w) :: rest => do
    let value ← expandText fuel (w.listAtHome (← get))
    assign name value
    if exported then modify fun s => s.exportValue name value
    return (name, value) :: (← assignAll fuel exported rest)

/-- Reports a command to where complaints go, when that is asked for. -/
def trace : (fuel : Nat) → Channel → (assignments : List (String × String)) →
    (words : List String) → Run Unit
  | 0, _, _, _ => die "too deep"
  | fuel + 1, channel, assignments, words => do
    let s ← get
    if s.options.traces then
      let texts := assignments.map (fun (name, value) => name ++ "=" ++ value) ++ words
      let sign := (s.get? "PS4").getD "+ "
      let sign ← match Reader.readText? sign with
        | some pieces => do
          let atoms ← expand fuel true pieces
          pure (Atom.text (joined s atoms))
        | none => pure sign
      emitTo channel (rawBytes (sign ++ " ".intercalate texts ++ "\n"))

/-- Sets up redirections, up to the first that fails, as one does whose text cannot be expanded. -/
def redirectAll : (fuel : Nat) → List Redirection → Run Bool
  | 0, _ => die "too deep"
  | _, [] => return true
  | fuel + 1, .redirect stream direction w :: rest => do
    let isDone ← try redirect stream direction (← expandText fuel w) catch
      | .failed => if direction = .here then pure false else throw .failed
      | stop => throw stop
    if isDone then redirectAll fuel rest
    else
      settle 2
      return false

def choose : (fuel : Nat) → String → List Word → Run Bool
  | 0, _, _ => die "too deep"
  | _, _, [] => return false
  | fuel + 1, subject, w :: ws => do
    let atoms ← expand fuel false (w.atHome (← get))
    if (Atom.pattern (joined (← get) atoms)).fits subject.toList then return true
    choose fuel subject ws

def executeAll : (fuel : Nat) → (guarded : Bool) → List Command → Run Unit
  | 0, _, _ => die "too deep"
  | _, _, [] => return ()
  | fuel + 1, guarded, c :: cs => do
    execute fuel guarded c
    executeAll fuel guarded cs

/-- Carries out a loop; `status` is that of the last round. -/
def executeLoop : (fuel : Nat) → (goal : Bool) → (test body : Command) → (guarded : Bool) →
    (status : Nat) → Run Unit
  | 0, _, _, _, _, _ => die "too deep"
  | fuel + 1, goal, test, body, guarded, status => do
    match ← round (execute fuel true test) with
    | .left => settle status
    | .skipped => executeLoop fuel goal test body guarded status
    | .finished =>
      if ((← get).status == 0) != goal then settle status
      else if (← round (execute fuel guarded body)) != .left then
        executeLoop fuel goal test body guarded (← get).status

def executeEach : (fuel : Nat) → (name : String) → Command → (guarded : Bool) → List String →
    Run Unit
  | 0, _, _, _, _ => die "too deep"
  | _, _, _, _, [] => return ()
  | fuel + 1, name, body, guarded, value :: values => do
    assign name value
    if (← round (execute fuel guarded body)) != .left then
      executeEach fuel name body guarded values

def executeBranches : (fuel : Nat) → String → (guarded : Bool) → List (List Word × Command) →
    Run Unit
  | 0, _, _, _ => die "too deep"
  | _, _, _, [] => settle 0
  | fuel + 1, subject, guarded, (patterns, body) :: rest => do
    if ← choose fuel subject patterns then
      match body with
      | .sequence [] => settle 0
      | body => execute fuel guarded body
    else executeBranches fuel subject guarded rest

def start : (fuel : Nat) → Program → (name : String) → List String → Run Unit
  | 0, _, _, _ => die "too deep"
  | fuel + 1, p, name, args => do
    match p with
    | .tool t => callTool t name args
    | .shell => asProgram do
      modify fun s => s.fresh name
      concluded (runShell fuel args) (runLast fuel)
    | .environment => asProgram do
      let refuse (status : Nat) (message : String) : Run Unit := do
        emit 2 (rawBytes (name ++ ": " ++ message ++ "\n"))
        settle status
      match EnvironmentArguments.read args with
      | .error message =>
        refuse 125 (message ++ "\nTry '" ++ name ++ " --help' for more information.")
      | .ok told =>
        modify told.apply
        let s ← get
        match told.command with
        | [] => say (String.join (s.environment.map fun (n, v) => n ++ "=" ++ v ++ "\n"))
        | command :: args =>
          let searched := if (s.get? "PATH").isSome then s.searchPath else Program.directories
          match ← (Program.find s.directory searched command : FileProgram _) with
          | .ok (_, p) => start fuel p command args
          | .error e =>
            refuse (if e == .permissionDenied then 126 else 127)
              ("'" ++ command ++ "': " ++ e.reason)

/-- Looks for a program and starts it. -/
def launch : (fuel : Nat) → (name : String) → List String → Run Unit
  | 0, _, _ => die "too deep"
  | fuel + 1, name, args => do
    match ← locate name with
    | .ok (_, p) => start fuel p name args
    | .error e => lament name e

def callOutside : (fuel : Nat) → (guarded : Bool) → (name : String) → List String → Run Unit
  | 0, _, _, _ => die "too deep"
  | fuel + 1, guarded, name, args => do
    match name, args with
    | "eval", args => asCaller "eval" (runText fuel .argument (" ".intercalate args))
    | "exec", [] => settle 0
    | "exec", name :: args =>
      match ← locate name with
      | .ok (_, p) =>
        modify fun s => { s with traps := s.traps.filter (·.2.isEmpty) }
        start fuel p name args
      | .error e =>
        asCaller "exec" (lament name e)
        if e == .permissionDenied then settle 126
      throw (.exit (.code (← get).status))
    | "command", args => survive do
      let (told, operands) ← asCaller "command" (Builtin.options ['p', 'v', 'V'] [] args)
      let inFull := told.any (·.1 == 'V')
      match operands with
      | [] => settle 0
      | name :: args =>
        if inFull || told.any (·.1 == 'v') then describe inFull name
        else if told.isEmpty || Builtin.isKnown name then callOutside fuel guarded name args
        else
          match ← (Program.find (← get).directory Program.directories name : FileProgram _) with
          | .ok (_, p) => start fuel p name args
          | .error e => lament name e
    | "type", names => asCaller "type" <| checkingOutput do
      let statuses ← names.mapM fun name => do
        describe true name
        return (← get).status
      settle (statuses.foldl max 0)
    | ".", args =>
      let refuse (reason : String) : Run Unit := asCaller "." (die reason)
      let some file := (← asCaller "." (Builtin.operands [] args)).head? | settle 0
      if !file.toList.contains '/' then refuse (file ++ ": not found")
      match ← (readScript (← get) file : FileProgram _) with
      | some text =>
        try asCaller file (runText fuel .file text) catch
          | .back => pure ()
          | stop => throw stop
      | none => refuse ("cannot open " ++ file ++ ": No such file")
    | name, args =>
      match Builtin.find? name with
      | some action =>
        let act := asCaller name (action args).checkingOutput
        if specialBuiltins.contains name then act else survive act
      | none => launch fuel name args

def call : (fuel : Nat) → (guarded : Bool) → (name : String) → List String → Run Unit
  | 0, _, _, _ => die "too deep"
  | fuel + 1, guarded, name, args => do
    match (← get).functions.find? (·.1 == name) with
    | some (_, body) => insideFunction args (execute fuel guarded body)
    | none => callOutside fuel guarded name args

def executeSimple : (fuel : Nat) → (guarded : Bool) → List (String × Word) → List String →
    List Redirection → Run Unit
  | 0, _, _, _, _ => die "too deep"
  | fuel + 1, guarded, assignments, words, redirections => do
    let complaints := (← get).channel 2
    match words with
    | [] =>
      keepingStreams redirections do
        if ← redirectAll fuel redirections then
          trace fuel complaints (← assignAll fuel false assignments) []
          settle (← get).outputStatus
    | name :: args =>
      let isSpecial := !(← get).functions.any (·.1 == name) && specialBuiltins.contains name
      let body : Run Unit := do
        if ← redirectAll fuel redirections then
          let act : Run Unit := do
            trace fuel complaints (← assignAll fuel (!isSpecial) assignments) words
            call fuel guarded name args
          if isSpecial then act else keepingVariables (assignments.map Prod.fst) act
        else if isSpecial then throw .failed
      if isSpecial && name = "exec" then body else keepingStreams redirections body

/-- Carries out a command; `guarded` says that its failure does not end the script. -/
def execute : (fuel : Nat) → (guarded : Bool) → Command → Run Unit
  | 0, _, _ => die "too deep"
  | fuel + 1, guarded, c => do
    if (← get).options.onlyReads then return
    match c with
    | .simple line assignments words redirections =>
      modify fun s => { s with line, outputStatus := 0 }
      let fields ← expandCommand fuel words
      executeSimple fuel guarded assignments fields redirections
      runPending fuel
      checkFailure guarded
    | .not c =>
      execute fuel true c
      settle (if (← get).status == 0 then 1 else 0)
    | .pipe c d =>
      let before ← get
      let bytes ← capture (concluded (execute fuel guarded c) (runLast fuel))
      settle before.status
      apart do
        takeFrom 0 { content := bytes }
        concluded (execute fuel guarded d) (runLast fuel)
      runPending fuel
      checkFailure guarded
    | .both c d =>
      execute fuel true c
      if (← get).status == 0 then execute fuel guarded d
    | .either c d =>
      execute fuel true c
      if (← get).status != 0 then execute fuel guarded d
    | .sequence cs => executeAll fuel guarded cs
    | .subshell c =>
      apart (concluded (execute fuel guarded c) (runLast fuel))
      runPending fuel
      checkFailure guarded
    | .background c =>
      apart do
        takeFrom 0 {}
        concluded (execute fuel false c) (runLast fuel)
      modify fun s => { s with jobs := s.jobs ++ [s.status], status := 0 }
    | .conditional test body other =>
      execute fuel true test
      if (← get).status == 0 then execute fuel guarded body
      else
        match other with
        | .sequence [] => settle 0
        | other => execute fuel guarded other
    | .loop goal test body => insideLoop (executeLoop fuel goal test body guarded 0)
    | .each line name words body =>
      modify fun s => { s with line }
      let values ← match words with
        | some ws => expandWords fuel false ws
        | none => pure (← get).parameters
      if values.isEmpty then settle 0
      insideLoop (executeEach fuel name body guarded values)
    | .choose line subject branches =>
      modify fun s => { s with line }
      let text ← expandText fuel subject
      executeBranches fuel text guarded branches
    | .define name body =>
      modify fun s => { s with functions := (name, body) :: s.functions.filter (·.1 != name) }
      settle 0
    | .redirected line c rs =>
      modify fun s => { s with line }
      keepingStreams rs do
        if ← redirectAll fuel rs then execute fuel guarded c else checkFailure guarded

/-- Runs what is still to be done on signals to the script; the status stays. -/
def runPending : (fuel : Nat) → Run Unit
  | 0 => die "too deep"
  | fuel + 1 => do
    let s ← get
    if s.scriptTraps.isSome then return ()
    match s.pending with
    | [] => return ()
    | action :: rest =>
      set { s with pending := rest, statusBefore := some s.status }
      runText fuel .argument action
      modify fun after => { after with status := s.status, statusBefore := s.statusBefore }
      runPending fuel

def runLast : (fuel : Nat) → Run Unit
  | 0 => die "too deep"
  | fuel + 1 => do
    let s ← get
    if let some (_, action) := s.traps.find? (·.1 == 0) then
      set { s with traps := s.traps.filter (·.1 != 0), statusBefore := some s.status }
      try runText fuel .argument action catch
        | .exit status => throw (.exit status)
        | .failed => throw .failed
        | _ => pure ()
      settle s.status

def runShell : (fuel : Nat) → List String → Run Unit
  | 0, _ => die "too deep"
  | fuel + 1, args => do
    match OptionArguments.read ['c'] {} args with
    | .error option => dieEarly ("Illegal option " ++ option)
    | .ok told =>
      let options := told.options
      let operands := told.operands.getD []
      let takesCommand := told.others.contains 'c'
      say told.listing
      let fromInput : Run Unit := do
        modify fun s => { s with parameters := operands, options := options.set "stdin" true }
        runText fuel .input (← takeInput)
      modify fun s => { s with options }
      match operands with
      | [] => if takesCommand then dieEarly "-c requires an argument" else fromInput
      | first :: rest =>
        if takesCommand then
          modify fun s => { s with name := rest.headD s.name, parameters := rest.tail }
          runText fuel .argument first
        else if options.readsInput then fromInput
        else
          match ← (readScript (← get) first : FileProgram _) with
          | some text =>
            modify fun s => { s with name := first, parameters := rest }
            runText fuel .file text
          | none => dieEarly ("cannot open " ++ first ++ ": No such file")

/-- Runs a text as a script of its own; one without commands succeeds. -/
def runText : (fuel : Nat) → Origin → String → Run Unit
  | 0, _, _ => die "too deep"
  | fuel + 1, origin, text => do
    let before := (← get).ahead
    let act : Run Unit := do
      let hasCommands ← runLines fuel origin (20 * text.length + 20) { rest := text.toList }
      if !hasCommands then settle 0
    act.thenRestoring (modify fun s => { s with ahead := before })

/-- Runs a script line by line and tells whether it has any commands. -/
def runLines : (fuel : Nat) → Origin → (depth : Nat) → Source → Run Bool
  | 0, _, _, _ => die "too deep"
  | fuel + 1, origin, depth, source => do
    let s ← get
    let source := { source with aliases := s.aliases }
    let added := (s.aliases.map fun (_, text) => text.length).foldl (· + ·) 0
    match (Reader.readLine (depth + 20 * added)).run source with
    | .error fault =>
      if origin != .argument then showLines source.rest (fault.line + 1 - source.line)
      modify fun s => { s with line := fault.line }
      die fault.message
    | .ok (none, _) => return false
    | .ok (some cs, after) =>
      if origin != .argument then
        showLines source.rest (after.line - source.line + (if after.rest.isEmpty then 1 else 0))
      modify fun s => { s with ahead := after.line }
      executeAll fuel false cs
      let isOver := after.rest.isEmpty && source.rest.getLast? = some '\n'
      let more ← if isOver && origin = .input then takeInput else pure ""
      let after := if more.isEmpty then after else { after with rest := more.toList }
      return (← runLines fuel origin (depth + 20 * more.length) after) || !cs.isEmpty

end

end Run

def scriptFuel : Nat := 1000000

/-- What a script wrote, and how it ended. -/
structure Finished where
  status : ExitStatus
  output : Bytes
  complaints : Bytes

def Run.finish (body : Run Unit) (s : Session) : FileProgram Finished := do
  let (result, after) ← body.run.run s
  let status : ExitStatus := match result with
    | .error (.exit status) => status
    | .error .failed => .code 2
    | _ => .code (after.status % 256)
  return { status, output := after.written 0, complaints := after.written 1 }

def runShell (call : ToolCall) : FileProgram Finished :=
  let script := Run.concluded (Run.runShell scriptFuel call.args) (Run.runLast scriptFuel)
  script.finish (Session.ofCall call)

def runEnvironment (call : ToolCall) : FileProgram Finished :=
  (Run.start scriptFuel .environment call.name call.args).finish
    { name := call.name
      directory := call.directory
      inputs := [{ content := call.input }]
      bindings := call.environment.map fun (name, value) =>
        (name, { value := some value, exported := true }) }

end Pagewright.Shell
