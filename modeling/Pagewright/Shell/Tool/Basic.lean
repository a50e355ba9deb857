import Pagewright.File.Program
import Pagewright.Shell.ShownName

/-!
# Calling tools

A tool is given its name, its arguments, its standard input, the directory that it runs in and the
environment, and replies with what it writes and a status. All texts are raw. `ToolArguments.read`
reads options, which may stand between the operands.
-/

namespace Pagewright.Shell

open Text

/-- What a tool is called with. -/
structure ToolCall where
  name : String
  args : List String
  input : Bytes := []
  hasInput : Bool := true
  isFromFile : Bool := false
  directory : Path
  environment : List (String × String) := []

structure ToolReply where
  output : Bytes := []
  complaint : String := ""
  status : Nat := 0
  /-- What is left of standard input when it has been read. -/
  left : Option Bytes := none
  deriving DecidableEq, Repr

abbrev Tool := ToolCall → FileProgram ToolReply

/-- The lines of a text and whether its last one is open. A line ends at a line feed alone. -/
def linesOf (cs : List Char) : List (List Char) × Bool :=
  let parts := cs.splitOn '\n'
  if parts.getLast? = some [] then (parts.dropLast, false) else (parts, true)

def linesBytes (lines : List (List Char)) : Bytes :=
  bytesOf (lines.flatMap (· ++ ['\n']))

namespace ToolReply

def ofText (s : String) : ToolReply where
  output := rawBytes s

def ofLines (lines : List String) : ToolReply :=
  .ofText (String.join (lines.map (· ++ "\n")))

def failure (call : ToolCall) (status : Nat) (message : String) : ToolReply where
  status
  complaint := call.name ++ ": " ++ message ++ "\n"

/-- A failure after which the tool refers to its help. -/
def misuse (call : ToolCall) (status : Nat) (message : String) : ToolReply :=
  failure call status (message ++ "\nTry '" ++ call.name ++ " --help' for more information.")

/-- One reply after another; the greater status counts. -/
def append (a b : ToolReply) : ToolReply where
  output := a.output ++ b.output
  complaint := a.complaint ++ b.complaint
  left := b.left.or a.left
  status := max a.status b.status

instance : Append ToolReply := ⟨append⟩

end ToolReply

def Tool.ofFunction (f : ToolCall → ToolReply) : Tool :=
  fun call => return f call

/-- The options that a tool knows: letters alone, letters with a value, and long names for some of
the letters. -/
structure ToolOptions where
  letters : List Char := []
  valued : List Char := []
  names : List (String × Char) := []
  /-- What is said about a wrong option in front of the hint at the help. -/
  usage : String := ""

/-- The arguments of a tool: the options that are given, in order, and the operands. -/
structure ToolArguments where
  given : List (Char × String) := []
  operands : List String := []

namespace ToolArguments

def has (told : ToolArguments) (letter : Char) : Bool :=
  told.given.any (·.1 == letter)

def value? (told : ToolArguments) (letter : Char) : Option String :=
  (told.given.reverse.find? (·.1 == letter)).map Prod.snd

/-- The arguments with an option in front. -/
def give (letter : Char) (value : String) (told : ToolArguments) : ToolArguments :=
  { told with given := (letter, value) :: told.given }

/-- The letters of a group, of which the first one with a value takes the rest of it. Gives the
options and the letter that still needs a value. -/
def readGroup (known : ToolOptions) : List Char →
    Except String (List (Char × String) × Option Char)
  | [] => .ok ([], none)
  | c :: cs =>
    if known.valued.contains c then
      if cs.isEmpty then .ok ([], some c) else .ok ([(c, String.ofList cs)], none)
    else if known.letters.contains c then do
      let (given, open?) ← readGroup known cs
      return ((c, "") :: given, open?)
    else .error ("invalid option -- '" ++ String.singleton c ++ "'")

/-- Reads arguments after an option that may still need a value. -/
def readFrom (known : ToolOptions) : (open? : Option Char) → List String →
    Except String ToolArguments
  | some c, [] => .error ("option requires an argument -- '" ++ String.singleton c ++ "'")
  | none, [] => .ok {}
  | some c, a :: rest => do return give c a (← readFrom known none rest)
  | none, "--" :: rest => .ok { operands := rest }
  | none, a :: rest =>
    match a.toList with
    | '-' :: '-' :: name => do
      let (name, value) := (name.takeWhile (· != '='), (name.dropWhile (· != '=')).drop 1)
      match known.names.find? (·.1 == String.ofList name) with
      | none => .error ("unrecognized option '" ++ a ++ "'")
      | some (_, c) =>
        if known.valued.contains c && !a.toList.contains '=' then readFrom known (some c) rest
        else return give c (String.ofList value) (← readFrom known none rest)
    | '-' :: c :: cs => do
      let (given, open?) ← readGroup known (c :: cs)
      let told ← readFrom known open? rest
      return { told with given := given ++ told.given }
    | _ => do
      let told ← readFrom known none rest
      return { told with operands := a :: told.operands }

def read (known : ToolOptions) (args : List String) : Except String ToolArguments :=
  readFrom known none args

end ToolArguments

/-- A tool whose arguments are read; a wrong option is answered with a status. -/
def Tool.withOptions (known : ToolOptions) (status : Nat)
    (run : ToolCall → ToolArguments → FileProgram ToolReply) : Tool := fun call => do
  match ToolArguments.read known call.args with
  | .ok told => run call told
  | .error message =>
    let usage := if known.usage.isEmpty then "" else "\n" ++ known.usage
    return .misuse call status (message ++ usage)

namespace ToolCall

/-- The content of an operand: of standard input for `-`. -/
def content (call : ToolCall) (file : String) : FileProgram (Except FileError Bytes) := do
  if file = "-" ∨ file = "/dev/stdin" then
    return if call.hasInput then .ok call.input else .error (.other "Bad file descriptor")
  if file = "/dev/null" then return .ok []
  FileProgram.read (fileIn call.directory file)

/-- What a function makes of the content of each operand, or of standard input when there are
none; `complaint` words a failure to read one. -/
def forContents (call : ToolCall) (operands : List String) (status : Nat)
    (complaint : String → FileError → String) (f : String → Bytes → ToolReply) :
    FileProgram ToolReply := do
  let replies ← (if operands.isEmpty then ["-"] else operands).zipIdx.mapM fun (file, n) => do
    let isSpent := file = "-" && (operands.take n).contains "-"
    match ← if isSpent then pure (.ok []) else call.content file with
    | .ok bytes =>
      let reply := f file bytes
      return if file = "-" then { reply with left := reply.left.or (some []) } else reply
    | .error e => return .failure call status (complaint file e)
  return replies.foldl ToolReply.append {}

def complaint (file : String) (e : FileError) : String :=
  shownName file ++ ": " ++ e.reason

/-- Runs a function on the text of the operands taken together; `complaint` words a failure to read
one. -/
def onText (call : ToolCall) (operands : List String) (status : Nat)
    (complaint : String → FileError → String) (f : List Char → ToolReply) :
    FileProgram ToolReply := do
  let read ← call.forContents operands status complaint fun _ bytes => { output := bytes }
  return ({ read with output := [] } : ToolReply) ++ f (charsOf read.output)

/-- Carries out an operation for each operand and complains about failures. -/
def forFiles (call : ToolCall) (operands : List String) (complaint : String → FileError → String)
    (op : Path → FileProgram (Except FileError Unit)) : FileProgram ToolReply := do
  let replies ← operands.mapM fun file => do
    match ← op (fileIn call.directory file) with
    | .ok _ => return {}
    | .error e => return .failure call 1 (complaint file e)
  return replies.foldl ToolReply.append {}

end ToolCall

end Pagewright.Shell
