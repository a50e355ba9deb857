import Pagewright.Shell.Tool

/-!
# Programs

What stands for a program that can be started: a bare name, which is looked for in a list of
directories, or a path. The programs are the shell itself and the tools.
-/

namespace Pagewright.Shell

inductive Program where
  | shell
  /-- Starts another program in an environment of its own. -/
  | environment
  | tool (t : Tool)

namespace Program

def named? (name : String) : Option Program :=
  match name with
  | "sh" => some .shell
  | "dash" => some .shell
  | "env" => some .environment
  | name => (Tool.find? name).map .tool

def directories : List String := ["/bin", "/usr/bin"]

/-- The program at a path. -/
def at? (path : String) : Option Program :=
  directories.findSome? fun d =>
    if path.startsWith (d ++ "/") then
      named? (String.ofList ((path.toList.drop d.length).dropWhile (· == '/')))
    else none

/-- Looks for a name in some directories. Where none of them has the program, but one has an entry
of that name, the entry may not be run. -/
def search (directory : Path) (name : String) : (fault : FileError) → List String →
    FileProgram (Except FileError (String × Program))
  | fault, [] => return .error fault
  | fault, d :: ds => do
    let path := if d.isEmpty then name else d ++ "/" ++ name
    match at? path with
    | some p => return .ok (path, p)
    | none =>
      let isThere ← FileProgram.exists? (fileIn directory path)
      search directory name (if isThere then .permissionDenied else fault) ds

/-- Finds the program of a name or path, and its path. -/
def find (directory : Path) (searched : List String) (name : String) :
    FileProgram (Except FileError (String × Program)) := do
  if name.toList.contains '/' then
    match at? name with
    | some p => return .ok (name, p)
    | none =>
      match ← FileProgram.read (fileIn directory name) with
      | .ok _ => return .error .permissionDenied
      | .error .isADirectory => return .error .permissionDenied
      | .error e => return .error e
  else search directory name .notFound searched

end Program

end Pagewright.Shell
