import Pagewright.File.Program
import Pagewright.Shell.Field
import Pagewright.Shell.Raw

/-!
# Pathname expansion

A field with an active `*`, `?` or `[` is a pattern for paths. `Atom.paths` looks up, segment by
segment, what it stands for. A name that starts with a dot is found only by a pattern that starts
with one, and a pattern that stands for nothing is kept as it is.
-/

namespace Pagewright.Shell

namespace Atom

def isWild : Atom → Bool
  | .char c quoted => !quoted && (c == '*' || c == '?' || c == '[')
  | .soft c => c == '*' || c == '?' || c == '['
  | _ => false

def isSlash : Atom → Bool
  | .char c _ => c == '/'
  | .soft c => c == '/'
  | _ => false

def segments (field : List Atom) : List (List Atom) :=
  match field with
  | [] => [[]]
  | a :: rest =>
    match segments rest with
    | [] => [[]]
    | first :: others => if isSlash a then [] :: first :: others else (a :: first) :: others

/-- Whether a pattern may stand for a name: one with a dot in front needs a dot in front. -/
def fitsName (p : Pattern) (name : String) : Bool :=
  (!name.startsWith "." || p.head? == some (.char '.')) && p.fits name.toList

/-- The paths that go on from a beginning with what a segment stands for. -/
def pathsFrom (directory : Path) (segment : List Atom) (start : String) :
    FileProgram (List String) := do
  if segment.any isWild then
    match ← FileProgram.list (fileIn directory (if start.isEmpty then "." else start)) with
    | .ok names =>
      let names := names.map toRaw ++ [".", ".."]
      return (names.filter (fitsName (pattern segment))).map (start ++ ·)
    | .error _ => return []
  else
    let path := start ++ text segment
    if path.isEmpty then return [path]
    return if (← FileProgram.inspect (fileIn directory path)).isSome then [path] else []

def pathsThrough (directory : Path) : List (List Atom) → List String → FileProgram (List String)
  | [], starts => return starts
  | segment :: rest, starts => do
    let found := (← starts.mapM (pathsFrom directory segment)).flatten
    pathsThrough directory rest (if rest.isEmpty then found else found.map (· ++ "/"))

/-- What a field stands for in a directory, in increasing order. -/
def paths (directory : Path) (field : List Atom) : FileProgram (List String) := do
  if !field.any isWild then return [text field]
  let found ← pathsThrough directory (segments field) [""]
  return if found.isEmpty then [text field] else found.mergeSort (· ≤ ·)

end Atom

end Pagewright.Shell
