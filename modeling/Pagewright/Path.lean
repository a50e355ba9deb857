/-!
# Path texts

A path is the text that names a file; nothing here looks at a file system. Its parts are what stands
between slashes, without the empty ones and the `.` ones, except that a relative path keeps a `.` in
front. Two paths are alike when they have the same parts. A parent keeps the spelling of what is
left of it, inner double slashes included.
-/

namespace Pagewright

/-- The text that names a file. -/
structure Path where
  text : String
  deriving DecidableEq, Repr

namespace Path

def splitSlashes : List Char → List (List Char)
  | [] => [[]]
  | c :: cs =>
    match splitSlashes cs with
    | [] => [[c]]
    | s :: ss => if c = '/' then [] :: s :: ss else (c :: s) :: ss

def joinSlashes : List (List Char) → List Char
  | [] => []
  | [s] => s
  | s :: ss => s ++ '/' :: joinSlashes ss

/-- A segment that names nothing of its own. -/
def isIdle (segment : List Char) : Bool :=
  segment.isEmpty || segment == ['.']

/-- A path that starts at the root. -/
def isAbsolute (p : Path) : Bool :=
  p.text.toList.head? == some '/'

def endsInSlash (p : Path) : Bool :=
  p.text.toList.getLast? == some '/'

/-- The start of a path that no parent drops, and the segments after it, the last one first. -/
def stem (p : Path) : List Char × List (List Char) :=
  match p.text.toList with
  | '/' :: cs => (['/'], (splitSlashes cs).reverse)
  | ['.'] => (['.'], [])
  | '.' :: '/' :: cs => (['.'], (splitSlashes ('/' :: cs)).reverse)
  | cs => ([], (splitSlashes cs).reverse)

inductive Part where
  | root
  /-- The leading `.` of a relative path. -/
  | here
  | up
  | name (s : String)
  deriving DecidableEq, Repr

def Part.ofSegment (segment : List Char) : Part :=
  if segment == ['.', '.'] then .up else .name (String.ofList segment)

def Part.text : Part → String
  | .root => "/"
  | .here => "."
  | .up => ".."
  | .name s => s

/-- The parts of a path, the first one first. -/
def parts (p : Path) : List Part :=
  let (front, segments) := p.stem
  let first := match front with
    | ['/'] => [Part.root]
    | ['.'] => [Part.here]
    | _ => []
  first ++ ((segments.filter fun s => !isIdle s).reverse.map Part.ofSegment)

def isAlike (p q : Path) : Bool :=
  p.parts == q.parts

/-- The path without its last part; a root and an empty path have none. -/
def parent? (p : Path) : Option Path :=
  let (front, segments) := p.stem
  match segments.dropWhile isIdle with
  | [] => if front == ['.'] then some ⟨""⟩ else none
  | _ :: rest =>
    some ⟨String.ofList (front ++ joinSlashes (rest.dropWhile isIdle).reverse)⟩

def fileName? (p : Path) : Option String :=
  match p.stem.2.dropWhile isIdle with
  | [] => none
  | s :: _ => if s == ['.', '.'] then none else some (String.ofList s)

/-- The path and its parents, at most `fuel` of them. -/
def ancestorsWithin : Nat → Path → List Path
  | 0, p => [p]
  | fuel + 1, p =>
    match p.parent? with
    | some q => p :: ancestorsWithin fuel q
    | none => [p]

/-- The path itself, its parent, the parent of that, and so on. -/
def ancestors (p : Path) : List Path :=
  ancestorsWithin p.text.length p

/-- A name below a path; an absolute name stands alone. -/
def join (p : Path) (name : String) : Path :=
  if name.toList.head? == some '/' || p.text.isEmpty then ⟨name⟩
  else if p.endsInSlash then ⟨p.text ++ name⟩
  else ⟨p.text ++ "/" ++ name⟩

/-- The path that a text leads to from a directory, with every `..` taken back. -/
def arrive (directory : Path) (target : String) : Path :=
  let names := (directory.join target).parts.foldl (fun names part => match part with
    | .name s => s :: names
    | .up => names.drop 1
    | _ => names) []
  ⟨"/" ++ "/".intercalate names.reverse⟩

/-- The path with a text after its last character. -/
def sibling (p : Path) (suffix : String) : Path :=
  ⟨p.text ++ suffix⟩

/-- A path from the root, for a working directory. Two slashes in front stay two, a slash at the end
stays, and `..` stays a part. An empty path has no absolute form. -/
def absolute? (p : Path) (workingDirectory : Path) : Option Path :=
  if p.text.isEmpty then none
  else
    let twoSlashes := match p.text.toList with
      | '/' :: '/' :: '/' :: _ => false
      | '/' :: '/' :: _ => true
      | _ => false
    let base : Path :=
      if twoSlashes then ⟨"//"⟩ else if p.isAbsolute then ⟨"/"⟩ else workingDirectory
    let names := p.parts.filter fun part => part != .root && part != .here
    let q := names.foldl (fun q part => q.join part.text) base
    if p.endsInSlash && !q.endsInSlash then some ⟨q.text ++ "/"⟩ else some q

end Path

end Pagewright
