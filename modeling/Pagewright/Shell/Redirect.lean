import Pagewright.Shell.Session

/-!
# Redirections

`Run.redirect` lets a stream go somewhere else, and `Run.keepingStreams` puts the streams back after
the command that the redirections are for.
-/

namespace Pagewright.Shell

open Text

namespace Run

def sendTo (stream : Nat) (channel : Channel) : Run Unit :=
  modify fun s => s.withChannel stream channel

def takeFrom (stream : Nat) (input : Input) : Run Unit :=
  modify fun s => s.reading stream input

/-- Empties what is still to be read of a file. -/
def cutInputs (p : Path) : Run Unit :=
  modify fun s => { s with
    inputs := s.inputs.map fun i => if i.file = some p then { i with content := [] } else i }

/-- The stream that a path stands for. -/
def streamAt? (path : String) : Option Nat :=
  match path with
  | "/dev/stdin" => some 0
  | "/dev/stdout" => some 1
  | "/dev/stderr" => some 2
  | path =>
    match path.toList.drop "/dev/fd/".length with
    | [c] => if path.startsWith "/dev/fd/" && c.isDigit then some (c.toNat - '0'.toNat) else none
    | _ => none

/-- Sets up the redirection of a stream whose operand is expanded; complains and gives `false` when
that fails. -/
def redirect (stream : Nat) (direction : Direction) (operand : String) : Run Bool := do
  let s ← get
  let refuse (message : String) : Run Bool := do
    complain message
    return false
  let done (action : Run Unit) : Run Bool := do
    action
    return true
  let p := fileIn s.directory operand
  match direction with
  | .here => done (takeFrom stream { content := rawBytes operand })
  | .same =>
    if operand = "-" then done (sendTo stream .closed)
    else if operand.length != 1 || !operand.all Char.isDigit then
      modify fun s => { s with line := s.ahead }
      die "Syntax error: Bad fd number"
    else
      match s.channel (leadingNumber operand.toList).1 with
      | .closed => refuse (operand ++ ": Bad file descriptor")
      | channel => done (sendTo stream channel)
  | .input =>
    if operand = "/dev/null" then return ← done (takeFrom stream {})
    if let some other := streamAt? operand then
      match s.channel other with
      | .closed => return ← refuse ("cannot open " ++ operand ++ ": No such file")
      | channel => return ← done (sendTo stream channel)
    match ← (FileProgram.read p : FileProgram _) with
    | .ok content => done (takeFrom stream { content, file := some p })
    | .error e =>
      let reason := if e == .notFound then "No such file" else e.reason
      refuse ("cannot open " ++ operand ++ ": " ++ reason)
  | _ =>
    if operand = "/dev/null" then return ← done (sendTo stream .nowhere)
    if let some other := streamAt? operand then
      match s.channel other with
      | .closed => return ← refuse ("cannot create " ++ operand ++ ": Directory nonexistent")
      | channel => return ← done (sendTo stream channel)
    let isFile := (← (FileProgram.inspect p : FileProgram _)) == some .file
    if direction = .output && s.options.keepsFiles && isFile then
      return ← refuse ("cannot create " ++ operand ++ ": File exists")
    let keeps := direction = .append ∨ direction = .both
    let kept : Bytes ← if keeps then
        pure (((← (FileProgram.read p : FileProgram _)).toOption).getD [])
      else pure []
    match ← (FileProgram.write p kept : FileProgram _) with
    | .error e =>
      let reason := if e == .notFound then "Directory nonexistent" else e.reason
      refuse ("cannot create " ++ operand ++ ": " ++ reason)
    | .ok _ =>
      if !keeps then cutInputs p
      if direction = .both then
        takeFrom stream { content := kept, file := some p }
        if let some id := (← get).inputId? stream then sendTo stream (.both p id)
      else sendTo stream (.file p)
      return true

/-- Runs a part that sets up some redirections and puts their streams back after it. -/
def keepingStreams (rs : List Redirection) (body : Run Unit) : Run Unit := do
  let before ← get
  let isChanged (stream : Nat) : Bool :=
    rs.any fun r => match r with
      | .redirect other _ _ => other == stream
  body.thenRestoring do
    modify fun s => { s with
      streams := before.streams.filter (fun (n, _) => isChanged n) ++
        s.streams.filter fun (n, _) => !isChanged n }

end Run

end Pagewright.Shell
