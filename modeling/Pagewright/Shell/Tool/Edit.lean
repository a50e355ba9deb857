import Pagewright.Shell.Expression.Reader
import Pagewright.Shell.Format

/-!
# Scripts of the line editor

The commands of the line editor `sed` and how a script of them is read. Commands are kept in a list;
a block is a command that is skipped to its end when its address does not fit.
-/

namespace Pagewright.Shell

/-- What an address names: a line by its number, the last line, or lines with a match; no expression
stands for the one that was used last. -/
inductive Mark where
  | line (n : Nat)
  | last
  | matching (e : Option Expression) (caseless : Bool)
  deriving Repr

/-- The lines that a command is for: all, those that a mark names, those between two marks, or the
others. -/
structure Address where
  first : Option Mark := none
  stop : Option Mark := none
  negated : Bool := false
  deriving Repr

/-- What a command of the line editor does with the pattern, as the current line is called. -/
inductive EditAction where
  | replace (e : Option Expression) (value : List Char) (choice : Expression.Choice)
    (printed : Bool)
  | map (pairs : List (Char × Char))
  /-- Writes the pattern, or its first line. -/
  | print (firstLine : Bool)
  /-- Drops the pattern, or its first line. -/
  | delete (firstLine : Bool)
  /-- Goes on with the next line, in place of the pattern or behind it. -/
  | next (joined : Bool)
  | quit (status : Nat) (silent : Bool)
  | number
  | insert (text : List Char)
  | append (text : List Char)
  | change (text : List Char)
  /-- Keeps the pattern, in place of what is kept or behind it. -/
  | keep (joined : Bool)
  /-- Takes what is kept, in place of the pattern or behind it. -/
  | take (joined : Bool)
  | exchange
  /-- Goes on at a label, or at the end; `ifChanged` only after a replacement. -/
  | jump (label : String) (ifChanged : Bool)
  | label (name : String)
  | block
  | close
  deriving Repr

structure Edit where
  address : Address := {}
  action : EditAction
  deriving Repr

namespace Edit

/-- A reader of a script; what is left of the script counts in complaints. -/
abbrev Reader := StateT (List Char) (Except (List Char × String))

def refuse {α : Type} (message : String) : Reader α := do
  throw (← get, message)

/-- The text up to a delimiter, whose escape is undone, and what follows it. -/
def delimited (d : Char) : List Char → Option (List Char × List Char)
  | [] => none
  | '\\' :: c :: cs =>
    (delimited d cs).map fun (text, rest) =>
      (if c = d then c :: text else '\\' :: c :: text, rest)
  | c :: cs =>
    if c = d then some ([], cs) else (delimited d cs).map fun (text, rest) => (c :: text, rest)

/-- A text with the line feeds and tabs that are written as escapes. -/
def plainControls : List Char → List Char
  | [] => []
  | '\\' :: 'n' :: cs => '\n' :: plainControls cs
  | '\\' :: 't' :: cs => '\t' :: plainControls cs
  | '\\' :: c :: cs => '\\' :: c :: plainControls cs
  | c :: cs => c :: plainControls cs

def readDelimited (d : Char) (message : String) : Reader (List Char) := do
  match delimited d (← get) with
  | some (text, rest) =>
    set rest
    return text
  | none =>
    set ([] : List Char)
    refuse message

/-- The expression that a text writes; none is written by no text. -/
def readExpression (extended : Bool) (cs : List Char) : Reader (Option Expression) := do
  if cs.isEmpty then return none
  match Expression.read? extended (plainControls cs) with
  | some e => return some e
  | none => refuse "Unmatched ( or \\("

def skipBlanks : Reader Unit :=
  modify fun cs => cs.dropWhile fun c => c == ' ' || c == '\t'

def readMark? (extended : Bool) : Reader (Option Mark) := do
  let matching (d : Char) : Reader (Option Mark) := do
    let e ← readExpression extended (← readDelimited d "unterminated address regex")
    match ← get with
    | 'I' :: rest =>
      set rest
      return some (.matching e true)
    | _ => return some (.matching e false)
  match ← get with
  | '$' :: rest =>
    set rest
    return some .last
  | '/' :: rest =>
    set rest
    matching '/'
  | '\\' :: d :: rest =>
    set rest
    matching d
  | cs =>
    match cs.takeWhile Char.isDigit with
    | [] => return none
    | ds =>
      set (cs.drop ds.length)
      return some (.line (leadingNumber ds).1)

def readAddress (extended : Bool) : Reader Address := do
  let first ← readMark? extended
  skipBlanks
  let stop ← match first, ← get with
    | some _, ',' :: rest => do
      set rest
      skipBlanks
      match ← readMark? extended with
      | some mark => pure (some mark)
      | none => refuse "unexpected \x60,'"
    | _, _ => pure none
  skipBlanks
  let cs ← get
  set (cs.dropWhile fun c => c == '!' || c == ' ')
  return { first, stop, negated := cs.head? == some '!' }

def readEnd (message : String) : Reader Unit := do
  skipBlanks
  match ← get with
  | [] => return ()
  | c :: rest =>
    if c == ';' || c == '\n' then set rest
    else if c != '\x7d' && c != '#' then
      set rest
      refuse message

def readName : Reader String := do
  skipBlanks
  let isEnd (c : Char) : Bool := c == ';' || c == '\n' || c == ' ' || c == '\x7d'
  let cs ← get
  set (cs.dropWhile fun c => !isEnd c)
  return String.ofList (cs.takeWhile fun c => !isEnd c)

/-- The text up to a line feed that is not escaped, its escapes undone, and what follows. -/
def line : List Char → List Char × List Char
  | [] => ([], [])
  | '\\' :: c :: cs => let (text, rest) := line cs; (c :: text, rest)
  | '\n' :: cs => ([], cs)
  | c :: cs => let (text, rest) := line cs; (c :: text, rest)

def readText : Reader (List Char) := do
  skipBlanks
  let cs ← get
  let cs := match cs with
    | '\\' :: rest =>
      match rest.dropWhile fun c => c == ' ' || c == '\t' with
      | '\n' :: rest => rest
      | _ => rest
    | cs => cs
  if cs.isEmpty then refuse "expected \\ after \x60a', \x60c' or \x60i'"
  let (text, rest) := line cs
  set rest
  return text

def readFlags : (fuel : Nat) → Expression.Choice → (printed : Bool) →
    Reader (Expression.Choice × Bool)
  | 0, choice, printed => return (choice, printed)
  | fuel + 1, choice, printed => do
    match ← get with
    | 'g' :: rest =>
      set rest
      readFlags fuel { choice with everywhere := true } printed
    | 'p' :: rest =>
      set rest
      readFlags fuel choice true
    | c :: rest =>
      if c == 'i' || c == 'I' then
        set rest
        readFlags fuel { choice with caseless := true } printed
      else if c.isDigit then
        let (n, rest) := leadingNumber (c :: rest)
        set rest
        if n = 0 then refuse "number option to \x60s' command may not be zero"
        readFlags fuel { choice with first := n } printed
      else return (choice, printed)
    | [] => return (choice, printed)

def readDelimiter (message : String) : Reader Char := do
  match ← get with
  | d :: rest =>
    set rest
    if d == '\n' || d == '\\' then refuse message
    return d
  | [] => refuse message

def readAction (extended : Bool) (letter : Char) : Reader EditAction := do
  let simple (action : EditAction) : Reader EditAction := do
    readEnd "extra characters after command"
    return action
  match letter with
  | 's' =>
    let message := "unterminated \x60s' command"
    let d ← readDelimiter message
    let pattern ← readDelimited d message
    let value ← readDelimited d message
    let e ← readExpression extended pattern
    let (choice, printed) ← readFlags ((← get).length + 1) {} false
    readEnd "unknown option to \x60s'"
    return .replace e value choice printed
  | 'y' =>
    let message := "unterminated \x60y' command"
    let d ← readDelimiter message
    let source := plainControls (← readDelimited d message)
    let target := plainControls (← readDelimited d message)
    if source.length != target.length then
      refuse "strings for \x60y' command are different lengths"
    simple (.map (source.zip target))
  | 'p' => simple (.print false)
  | 'P' => simple (.print true)
  | 'd' => simple (.delete false)
  | 'D' => simple (.delete true)
  | 'n' => simple (.next false)
  | 'N' => simple (.next true)
  | '=' => simple .number
  | 'h' => simple (.keep false)
  | 'H' => simple (.keep true)
  | 'g' => simple (.take false)
  | 'G' => simple (.take true)
  | 'x' => simple .exchange
  | 'i' => return .insert (← readText)
  | 'a' => return .append (← readText)
  | 'c' => return .change (← readText)
  | 'b' => return .jump (← readName) false
  | 't' => return .jump (← readName) true
  | ':' => return .label (← readName)
  | '\x7b' => return .block
  | '\x7d' => simple .close
  | c =>
    if c == 'q' || c == 'Q' then
      skipBlanks
      let (status, rest) := leadingNumber (← get)
      set rest
      simple (.quit status (c == 'Q'))
    else refuse ("unknown command: \x60" ++ String.singleton c ++ "'")

/-- Reads the commands of a script, of which `depth` blocks are open. -/
def readAll (extended : Bool) : (fuel depth : Nat) → Reader (List Edit)
  | 0, _ => return []
  | fuel + 1, depth => do
    modify fun cs => cs.dropWhile fun c => c == ' ' || c == '\t' || c == '\n' || c == ';'
    match ← get with
    | [] => if depth = 0 then return [] else refuse "unmatched \x60\x7b'"
    | '#' :: rest =>
      set (rest.dropWhile (· != '\n'))
      readAll extended fuel depth
    | _ =>
      let address ← readAddress extended
      match ← get with
      | [] => refuse "missing command"
      | letter :: rest =>
        set rest
        if letter == '\x7d' && depth = 0 then refuse "unexpected \x60\x7d'"
        if address.stop.isSome && (letter == 'q' || letter == 'Q') then
          refuse "command only uses one address"
        let action ← readAction extended letter
        let depth := match action with
          | .block => depth + 1
          | .close => depth - 1
          | _ => depth
        return { address, action } :: (← readAll extended fuel depth)

def ofScript (extended : Bool) (script : List Char) : Except String (List Edit) :=
  match (readAll extended (script.length + 1) 0).run script with
  | .ok (edits, _) => .ok edits
  | .error (rest, message) =>
    let place := if message.startsWith "unmatched" then 0 else script.length - rest.length
    .error ("-e expression #1, char " ++ toString place ++ ": " ++ message)

end Edit

end Pagewright.Shell
