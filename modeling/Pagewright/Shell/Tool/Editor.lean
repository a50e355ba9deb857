import Pagewright.Shell.Tool.Basic
import Pagewright.Shell.Tool.Edit

/-!
# The line editor

`sed` reads its input line by line into the pattern, runs its commands on it, and writes it. The
commands of a script are numbered by their places; fuel bounds how many of them are carried out.
-/

namespace Pagewright.Shell.Tool

open Text

structure Editing where
  pattern : List Char := []
  /-- The pattern is written with a line feed. -/
  ended : Bool := true
  kept : List Char := []
  /-- What is kept came with a line feed. -/
  keptEnded : Bool := true
  number : Nat := 0
  rest : List (List Char)
  /-- The last line is not ended. -/
  isOpen : Bool := false
  /-- The places of commands that are between their two marks. -/
  active : List Nat := []
  /-- The places of commands whose lines are over: those that a number starts. -/
  closed : List Nat := []
  /-- A replacement was made since the last jump. -/
  changed : Bool := false
  /-- What is written after the current line. -/
  queue : List (List Char) := []
  /-- The lines that were written, the last one first, and whether they are ended. -/
  written : List (List Char × Bool) := []
  used : Expression := .empty

/-- Why the commands are not run to their end. -/
inductive EditStop where
  /-- The pattern is dropped; `restarts` runs the commands again before a line is read. -/
  | dropped (restarts : Bool)
  | quit (status : Nat) (silent : Bool)

abbrev Editor := ExceptT EditStop (StateM Editing)

namespace Editor

def write (line : List Char) : Editor Unit :=
  modify fun s => { s with written := (line, true) :: s.written }

def writePattern : Editor Unit :=
  modify fun s => { s with written := (s.pattern, s.ended) :: s.written }

/-- Writes what waits for the end of the line. -/
def flush : Editor Unit := do
  let queue := (← get).queue
  modify fun s => { s with queue := [] }
  queue.forM write

/-- The expression that is meant, which is then the one used last. -/
def meant (e : Option Expression) : Editor Expression := do
  let e := e.getD (← get).used
  modify fun s => { s with used := e }
  return e

def names (m : Mark) : Editor Bool := do
  let s ← get
  match m with
  | .line n => return s.number = n
  | .last => return s.rest.isEmpty
  | .matching e caseless => return (← meant e).isIn caseless s.pattern

/-- Whether the current line is between the two marks of the command at a place. A number starts
its lines once, also behind its own line when the command was not reached there. -/
def isBetween (place : Nat) (first stop : Mark) : Editor Bool := do
  let s ← get
  let leave : Editor Unit := modify fun s =>
    { s with active := s.active.filter (· != place), closed := place :: s.closed }
  if s.active.contains place then
    match stop with
    | .line n =>
      if n ≤ s.number then leave
      return s.number ≤ n
    | stop =>
      if ← names stop then leave
      return true
  else
    let starts ← match first with
      | .line n => pure (decide (n ≤ s.number) && !s.closed.contains place)
      | first => names first
    if starts then
      modify fun s => { s with active := place :: s.active }
      match stop with
      | .line n =>
        if n ≤ s.number then leave
        return decide (s.number ≤ n) || (← names first)
      | .last => if s.rest.isEmpty then leave
      | _ => pure ()
    return starts

def covers (place : Nat) (a : Address) : Editor Bool := do
  let fits ← match a.first, a.stop with
    | none, _ => pure true
    | some first, none => names first
    | some first, some stop => isBetween place first stop
  return fits != a.negated

/-- Reads the next line behind a beginning; at the end of the input the editor quits. -/
def readNext (front : List Char) : Editor Unit := do
  if !(← get).rest.isEmpty then flush
  let s ← get
  match s.rest with
  | [] => throw (.quit 0 false)
  | line :: rest =>
    set { s with
      pattern := front ++ line
      ended := !(s.isOpen && rest.isEmpty)
      number := s.number + 1
      rest }

/-- Carries out a command at a place and gives the label to go on at, if there is one. -/
def act (silent : Bool) (place : Nat) (a : Address) (action : EditAction) :
    Editor (Option String) := do
  let s ← get
  let firstLine := s.pattern.takeWhile (· != '\n')
  match action with
  | .replace e value choice printed =>
    let (line, changed) := (← meant e).replace value choice s.pattern
    if changed then
      modify fun s => { s with pattern := line, changed := true }
      if printed then writePattern
  | .map pairs =>
    let image (c : Char) : Char := ((pairs.find? (·.1 == c)).map Prod.snd).getD c
    set { s with pattern := s.pattern.map image }
  | .print first =>
    if first && s.pattern.contains '\n' then write firstLine else writePattern
  | .delete first =>
    if first && s.pattern.contains '\n' then
      set { s with pattern := s.pattern.drop (firstLine.length + 1) }
      throw (.dropped true)
    else throw (.dropped false)
  | .next joined =>
    if joined then readNext (s.pattern ++ ['\n'])
    else
      if !silent && !s.rest.isEmpty then writePattern
      readNext []
  | .quit status silent =>
    set { s with ended := true }
    throw (.quit status silent)
  | .number => write (Nat.toDigits 10 s.number)
  | .insert text => write text
  | .append text => set { s with queue := s.queue ++ [text] }
  | .change text =>
    if a.stop.isNone || a.negated || !s.active.contains place then write text
    throw (.dropped false)
  | .keep joined =>
    let kept := if joined then s.kept ++ '\n' :: s.pattern else s.pattern
    set { s with kept, keptEnded := s.ended }
  | .take joined =>
    let pattern := if joined then s.pattern ++ '\n' :: s.kept else s.kept
    set { s with pattern, ended := s.keptEnded }
  | .exchange =>
    set { s with pattern := s.kept, ended := s.keptEnded, kept := s.pattern, keptEnded := s.ended }
  | .jump label ifChanged =>
    if ifChanged then set { s with changed := false }
    if !ifChanged || s.changed then return some label
  | _ => pure ()
  return none

/-- How many commands there are up to the end of an open block. -/
def blockLength : (depth : Nat) → List Edit → Nat
  | _, [] => 0
  | depth, e :: es =>
    match e.action, depth with
    | .close, 0 => 1
    | .close, depth + 1 => 1 + blockLength depth es
    | .block, depth => 1 + blockLength (depth + 1) es
    | _, depth => 1 + blockLength depth es

def runFrom (silent : Bool) (edits : List Edit) : (fuel place : Nat) → Editor Unit
  | 0, _ => return ()
  | fuel + 1, place => do
    match edits.drop place with
    | [] => return ()
    | e :: rest =>
      if ← covers place e.address then
        match ← act silent place e.address e.action with
        | none => runFrom silent edits fuel (place + 1)
        | some label =>
          let isLabel (e : Edit) : Bool := match e.action with
            | .label name => name == label
            | _ => false
          runFrom silent edits fuel ((edits.findIdx? isLabel).getD edits.length)
      else
        match e.action with
        | .block => runFrom silent edits fuel (place + 1 + blockLength 0 rest)
        | _ => runFrom silent edits fuel (place + 1)

/-- Runs the commands on each line and gives the status; `fresh` says that a line is read first. -/
def runLines (silent : Bool) (edits : List Edit) : (fuel : Nat) → (fresh : Bool) →
    StateM Editing Nat
  | 0, _ => return 0
  | fuel + 1, fresh => do
    if fresh && (← get).rest.isEmpty then return 0
    let cycle : Editor Unit := do
      if fresh then
        readNext []
        modify fun s => { s with changed := false }
      runFrom silent edits fuel 0
    let finish (shown : Bool) : StateM Editing Unit := do
      let _ ← (do if shown && !silent then writePattern
                  flush : Editor Unit).run
    match ← cycle.run with
    | .ok _ =>
      finish true
      runLines silent edits fuel true
    | .error (.dropped restarts) =>
      finish false
      runLines silent edits fuel (!restarts)
    | .error (.quit status silent) =>
      finish (!silent)
      return status

end Editor

def editedBytes (written : List (List Char × Bool)) : Bytes :=
  match written with
  | [] => []
  | (last, ended) :: before =>
    linesBytes (before.reverse.map Prod.fst) ++ bytesOf (if ended then last ++ ['\n'] else last)

/-- The commands and lines of input after which the line editor gives up. -/
def editFuel : Nat := 1000000

/-- Edits the lines of its operands, or the files themselves (`-i`); `-n` writes only what commands
write, and `-E` reads extended expressions. -/
def sed : Tool :=
  withOptions
    { letters := ['n', 'E', 'r', 's', 'u', 'i', 'z'], valued := ['e']
      names := [("expression", 'e'), ("quiet", 'n'), ("silent", 'n'), ("regexp-extended", 'E'),
        ("in-place", 'i')] } 1 fun call told => do
    let given := (told.given.filter (·.1 == 'e')).map Prod.snd
    let (scripts, operands) := match given, told.operands with
      | [], script :: operands => ([script], operands)
      | given, operands => (given, operands)
    if scripts.isEmpty then
      return .failure call 1 "no script specified"
    let script := ("\n".intercalate scripts).toList
    match Edit.ofScript (told.has 'E' || told.has 'r') script with
    | .error message => return .failure call 1 message
    | .ok edits =>
      let edit (bytes : Bytes) : Nat × Bytes :=
        let (rest, isOpen) := linesOf (charsOf bytes)
        let (status, s) := (Editor.runLines (told.has 'n') edits editFuel true).run { rest, isOpen }
        (status, editedBytes s.written)
      let unread (file : String) (e : FileError) : String :=
        if e == .isADirectory then "couldn't edit " ++ file ++ ": not a regular file"
        else "can't read " ++ file ++ ": " ++ e.reason
      if told.has 'i' then
        let replies ← operands.mapM fun file => do
          let p := fileIn call.directory file
          match ← FileProgram.read p with
          | .error e => return (.failure call 2 (unread file e) : ToolReply)
          | .ok bytes =>
            let (status, edited) := edit bytes
            match ← FileProgram.write p edited with
            | .ok _ => return { status }
            | .error e => return .failure call 4 (ToolCall.complaint file e)
        return replies.foldl ToolReply.append {}
      else
        let read ← call.forContents operands 2 unread fun _ bytes => { output := bytes }
        let (status, output) := edit read.output
        return { read with output, status := max read.status status }

end Pagewright.Shell.Tool
