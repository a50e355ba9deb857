import Pagewright.Shell.Arithmetic
import Pagewright.Shell.Program

/-!
# Conditions

What `[` and `test` decide. A condition is a list of words: tests of one text or file, tests of two
texts or numbers, and `!`, `-a`, `-o` and parentheses around them. Whether a word is an operator
depends on the words after it (`roleOf`): with too few of them it is a text. A condition of three
words is a test of two texts whenever the second word is an operator for them.
-/

namespace Pagewright.Shell.Condition

/-- What a word is in a condition. -/
inductive Role where
  | ended
  | text
  | fileTest
  | textTest
  | comparison
  | not
  | and
  | or
  | opening
  | closing
  deriving DecidableEq, Repr

def fileTests : List String :=
  ["-b", "-c", "-d", "-e", "-f", "-g", "-h", "-k", "-p", "-r", "-s", "-t", "-u", "-w", "-x", "-G",
    "-L", "-O", "-S"]

def comparisons : List String :=
  ["=", "!=", "<", ">", "-eq", "-ne", "-gt", "-ge", "-lt", "-le", "-nt", "-ot", "-ef"]

/-- Whether a test of one operand is a text after all, by the words after it. -/
def isOperand : List String → Bool
  | [] => true
  | [_] => false
  | op :: _ :: _ => comparisons.contains op

def roleOf : List String → Role
  | [] => .ended
  | w :: rest =>
    if fileTests.contains w then if isOperand rest then .text else .fileTest
    else if w = "-n" ∨ w = "-z" then if isOperand rest then .text else .textTest
    else if comparisons.contains w then .comparison
    else
      match w with
      | "!" => .not
      | "-a" => .and
      | "-o" => .or
      | "(" => if rest.isEmpty then .text else .opening
      | ")" => .closing
      | _ => .text

/-- A part of a condition: its truth, or the reason why it has none. -/
abbrev Deciding := ExceptT String FileProgram

/-- Tests a file. Every system has the device that takes everything in and gives nothing out, and
the programs. -/
def testFile (directory : Path) (op file : String) : Deciding Bool := do
  if file = "/dev/null" then return ["-e", "-c", "-r", "-w", "-O", "-G"].contains op
  if (Program.at? file).isSome then
    return ["-e", "-f", "-r", "-w", "-x", "-s", "-O", "-G"].contains op
  if file.isEmpty then return false
  let p := fileIn directory file
  let kind ← (FileProgram.inspect p : FileProgram _)
  match op with
  | "-e" => return kind.isSome
  | "-f" => return kind == some .file
  | "-d" => return kind == some .directory
  | "-r" => return kind.isSome
  | "-w" => return kind.isSome
  | "-x" => return kind == some .directory
  | "-O" => return kind.isSome
  | "-G" => return kind.isSome
  | "-s" =>
    match ← (FileProgram.read p : FileProgram _) with
    | .ok content => return !content.isEmpty
    | .error _ => return kind == some .directory
  | _ => return false

def number (s : String) : Deciding Int :=
  match Arithmetic.decimal? s with
  | some n => return n
  | none => throw ("Illegal number: " ++ s)

def compare (directory : Path) (a op b : String) : Deciding Bool := do
  match op with
  | "-ef" =>
    let isThere ← (FileProgram.exists? (fileIn directory a) : FileProgram _)
    return isThere && directory.arrive (ofRaw a) == directory.arrive (ofRaw b)
  | "=" => return a == b
  | "!=" => return a != b
  | "<" => return a < b
  | ">" => return b < a
  | "-eq" => return (← number a) == (← number b)
  | "-ne" => return (← number a) != (← number b)
  | "-gt" => return (← number a) > (← number b)
  | "-ge" => return (← number a) ≥ (← number b)
  | "-lt" => return (← number a) < (← number b)
  | "-le" => return (← number a) ≤ (← number b)
  | _ => return false

mutual

/-- Decides a test, a text or a condition in parentheses, and gives the words after it. -/
def decideOne (directory : Path) : (fuel : Nat) → List String → Deciding (Bool × List String)
  | 0, _ => throw "too deep"
  | fuel + 1, ws => do
    match roleOf ws, ws with
    | .opening, _ :: rest =>
      if roleOf rest = .closing then return (false, rest.tail)
      let (b, rest) ← decideAny directory fuel rest
      if roleOf rest = .closing then return (b, rest.tail) else throw "closing paren expected"
    | .textTest, op :: a :: rest => return ((if op = "-n" then !a.isEmpty else a.isEmpty), rest)
    | .fileTest, op :: a :: rest => return (← testFile directory op a, rest)
    | _, a :: op :: rest =>
      if comparisons.contains op then
        match rest with
        | b :: rest => return (← compare directory a op b, rest)
        | [] => throw (op ++ ": argument expected")
      else return (!a.isEmpty, op :: rest)
    | _, [a] => return (!a.isEmpty, [])
    | _, [] => return (false, [])

def decideNot (directory : Path) : (fuel : Nat) → List String → Deciding (Bool × List String)
  | 0, _ => throw "too deep"
  | fuel + 1, ws => do
    if roleOf ws = .not then
      let (b, rest) ← decideNot directory fuel ws.tail
      return (!b, rest)
    else decideOne directory fuel ws

def decideAll (directory : Path) : (fuel : Nat) → List String → Deciding (Bool × List String)
  | 0, _ => throw "too deep"
  | fuel + 1, ws => do
    let (b, rest) ← decideNot directory fuel ws
    if roleOf rest = .and then
      let (c, rest) ← decideAll directory fuel rest.tail
      return (b && c, rest)
    else return (b, rest)

def decideAny (directory : Path) : (fuel : Nat) → List String → Deciding (Bool × List String)
  | 0, _ => throw "too deep"
  | fuel + 1, ws => do
    let (b, rest) ← decideAll directory fuel ws
    if roleOf rest = .or then
      let (c, rest) ← decideAny directory fuel rest.tail
      return (b || c, rest)
    else return (b, rest)

end

/-- Decides all words. The last word that was taken is blamed for those after it. -/
def decideWhole (directory : Path) (ws : List String) : Deciding Bool := do
  let (b, rest) ← decideAny directory (5 * ws.length + 5) ws
  if rest.isEmpty then return b
  else throw (((ws.take (ws.length - rest.length)).getLast?.getD "") ++ ": unexpected operator")

def decide (directory : Path) : List String → Deciding Bool
  | [] => return false
  | [a, op, b] => do
    if comparisons.contains op then compare directory a op b
    else if a = "(" ∧ b = ")" then decideWhole directory [op]
    else if a = "!" then return !(← decide directory [op, b])
    else decideWhole directory [a, op, b]
  | [a, b, c, d] => do
    if a = "(" ∧ d = ")" then decideWhole directory [b, c]
    else if a = "!" then return !(← decide directory [b, c, d])
    else decideWhole directory [a, b, c, d]
  | ws => decideWhole directory ws

end Pagewright.Shell.Condition
