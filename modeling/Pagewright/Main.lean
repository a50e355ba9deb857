import Pagewright.CommandLine.Run

/-!
# The program on real files

Carries out file programs with the operations of the operating system and hands the arguments to
`CommandLine.run`.
-/

namespace Pagewright.Main

/-- A failure of the operating system. -/
def fileError : IO.Error → FileError
  | .noFileOrDirectory _ _ _ => .notFound
  | .permissionDenied _ _ _ => .permissionDenied
  | .resourceBusy _ _ => .busy
  | .alreadyExists _ _ _ => .alreadyExists
  | .invalidArgument _ _ _ => .invalidArgument
  | .inappropriateType _ 20 _ => .notADirectory
  | .inappropriateType _ 21 _ => .isADirectory
  | .unsatisfiedConstraints 39 _ => .directoryNotEmpty
  | e => .other (toString e)

def attempt {α : Type} (action : IO α) : IO (Except FileError α) := do
  try return .ok (← action) catch e => return .error (fileError e)

def readBytes (p : Path) : IO Text.Bytes := do
  return (← IO.FS.readBinFile p.text).data.toList

/-- Carries out one operation. -/
def perform : (op : FileOp) → IO op.Answer
  | .inspect p => do
    match ← attempt ((← IO.currentDir) / p.text).metadata with
    | .error _ => return none
    | .ok found =>
      return if p.text.isEmpty then none
        else some (if found.type == .dir then .directory else .file)
  | .read p => attempt (readBytes p)
  | .list p => attempt do
    let entries ← ((← IO.currentDir) / p.text).readDir
    return (entries.toList.map (·.fileName)).mergeSort
  | .write p content => attempt (IO.FS.writeBinFile p.text ⟨content.toArray⟩)
  | .remove p => attempt (IO.FS.removeFile p.text)
  | .rename p q => attempt (IO.FS.rename p.text q.text)
  | .makeDirectory p => attempt (IO.FS.createDir p.text)
  | .workingDirectory => return ⟨(← IO.currentDir).toString⟩

/-- Carries out a file program. -/
def carryOut {α : Type} : FileProgram α → IO α
  | .done a => return a
  | .step op next => do carryOut (next (← perform op))

end Pagewright.Main

def main (args : List String) : IO UInt32 := do
  let outcome ← Pagewright.Main.carryOut (Pagewright.CommandLine.run args)
  IO.print outcome.output
  IO.eprint outcome.complaint
  return outcome.code.toUInt32
