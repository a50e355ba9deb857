import Pagewright.Shell.Tool.Basic

/-!
# Tools for files

The tools that show, create, copy, rename and remove files.
-/

namespace Pagewright.Shell.Tool

open Text

/-- The lines of a text with their numbers, from one number on. -/
def numbered (first : Nat) (lines : List (List Char)) : List (List Char) :=
  lines.mapIdx fun n line =>
    let number := Nat.toDigits 10 (first + n)
    List.replicate (6 - number.length) ' ' ++ number ++ '\t' :: line

def cat : Tool := withOptions { letters := ['n', 'u'] } 1 fun call told => do
  let read ← call.forContents told.operands 1 ToolCall.complaint fun _ bytes => { output := bytes }
  if !told.has 'n' then return read
  let (lines, isOpen) := linesOf (charsOf read.output)
  let output := linesBytes (numbered 1 lines)
  return { read with output := if isOpen then output.dropLast else output }

/-- Writes standard input to files too; `-a` appends to them. -/
def tee : Tool := withOptions { letters := ['a'] } 1 fun call told => do
  let reply ← call.forFiles told.operands ToolCall.complaint fun p => do
    let old : Bytes ← if told.has 'a' then
        pure (((← FileProgram.read p).toOption).getD [])
      else pure []
    FileProgram.write p (old ++ call.input)
  return { reply with output := call.input, left := some [] }

/-- Lists directories, or files by their paths; `-a` and `-A` show names that start with a dot. -/
def ls : Tool := withOptions { letters := ['1', 'a', 'A', 'd'] } 2 fun call told => do
  let operands := if told.operands.isEmpty then ["."] else told.operands.mergeSort
  let isShown (name : String) : Bool := told.has 'a' || told.has 'A' || !name.startsWith "."
  let listing (names : List String) : List String :=
    (if told.has 'a' then [".", ".."] else []) ++ (names.filter isShown).mergeSort
  let mut complaints : ToolReply := {}
  let mut files : List String := []
  let mut directories : List (String × List String) := []
  for operand in operands do
    let p := fileIn call.directory operand
    match ← FileProgram.inspect p with
    | none =>
      complaints := complaints ++ .failure call 2
        ("cannot access " ++ quotedName operand ++ ": " ++ FileError.notFound.reason)
    | some .file => files := files ++ [operand]
    | some .directory =>
      if told.has 'd' then files := files ++ [operand]
      else
        let names := (((← FileProgram.list p).toOption).getD []).map toRaw
        directories := directories ++ [(operand, listing names)]
  let heads := operands.length > 1
  let blocks := (if files.isEmpty then [] else [files]) ++
    directories.map fun (name, names) => if heads then (name ++ ":") :: names else names
  let text := "\n".intercalate (blocks.map fun lines => String.join (lines.map (· ++ "\n")))
  return complaints ++ .ofText text

def touch : Tool := withOptions { letters := ['c', 'a', 'm'] } 1 fun call told => do
  if told.operands.isEmpty then return .misuse call 1 "missing file operand"
  let complaint f (e : FileError) := "cannot touch " ++ quotedName f ++ ": " ++ e.reason
  call.forFiles told.operands complaint fun p => do
    match ← FileProgram.inspect p with
    | some _ => return .ok ()
    | none => if told.has 'c' then return .ok () else FileProgram.write p []

/-- Removes files; `-f` skips missing ones. -/
def rm : Tool := withOptions { letters := ['f', 'v'] } 1 fun call told => do
  let force := told.has 'f'
  if told.operands.isEmpty && !force then return .misuse call 1 "missing operand"
  let complaint f (e : FileError) := "cannot remove " ++ quotedName f ++ ": " ++ e.reason
  call.forFiles told.operands complaint fun p => do
    match ← FileProgram.remove p with
    | .error .notFound => return if force then .ok () else .error .notFound
    | r => return r

/-- Creates directories; `-p` also those above them. -/
def mkdir : Tool := withOptions { letters := ['p'] } 1 fun call told => do
  if told.operands.isEmpty then return .misuse call 1 "missing operand"
  call.forFiles told.operands
    (fun f e => "cannot create directory " ++ citedName f ++ ": " ++ e.reason) fun p =>
      if told.has 'p' then FileProgram.makeDirectories (p.text.length + 1) p
      else FileProgram.makeDirectory p

/-- The path of a copy: in a directory, under the last name of its source. -/
def targetPath (call : ToolCall) (source target : String) : FileProgram String := do
  match ← FileProgram.inspect (fileIn call.directory target) with
  | some .directory =>
    let name := (source.toList.reverse.dropWhile (· == '/')).takeWhile (· != '/')
    let front := if target.endsWith "/" then target else target ++ "/"
    return front ++ String.ofList name.reverse
  | _ => return target

def onPair (call : ToolCall) (told : ToolArguments)
    (run : String → String → FileProgram ToolReply) : FileProgram ToolReply := do
  match told.operands with
  | [] => return .misuse call 1 "missing file operand"
  | [source] =>
    return .misuse call 1 ("missing destination file operand after " ++ quotedName source)
  | [source, target] => run source (← targetPath call source target)
  | operands => return .failure call 1 ("target " ++ quotedName (operands.getLastD "") ++ ": " ++
      FileError.notADirectory.reason)

/-- Copies a file to a path or into a directory. -/
def cp : Tool := withOptions { letters := ['f', 'p'] } 1 fun call told =>
  onPair call told fun source target => do
    match ← FileProgram.read (fileIn call.directory source) with
    | .error .isADirectory =>
      return .failure call 1 ("-r not specified; omitting directory " ++ quotedName source)
    | .error e => return .failure call 1 ("cannot stat " ++ quotedName source ++ ": " ++ e.reason)
    | .ok content =>
      call.forFiles [target]
        (fun f e => "cannot create regular file " ++ quotedName f ++ ": " ++ e.reason)
        fun p => FileProgram.write p content

/-- Renames a file, also into a directory. -/
def mv : Tool := withOptions { letters := ['f'] } 1 fun call told =>
  onPair call told fun source target =>
    call.forFiles [target] (fun _ e => "cannot stat " ++ quotedName source ++ ": " ++ e.reason)
      fun p => FileProgram.rename (fileIn call.directory source) p

end Pagewright.Shell.Tool
