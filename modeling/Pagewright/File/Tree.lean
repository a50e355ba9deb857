import Std.Data.ExtTreeMap.Basic
import Std.Data.ExtTreeMap.Lemmas
import Pagewright.File.Error
import Pagewright.Path
import Pagewright.Text.Utf8

/-!
# File trees

A tree of directories and regular files, without links: a map from locations, the names from the
root down, to what is there. A path is resolved against a working directory step by step, and every
step needs a directory to start from, so `a/../b` needs `a`. The operations fail with the errors of
a POSIX system and then leave the tree as it was.
-/

namespace Pagewright

open Text

/-- The names from the root down to a place in the tree. -/
abbrev Location := List String

inductive Entry where
  | file (content : Bytes)
  | directory
  deriving DecidableEq, Repr

inductive EntryKind where
  | file
  | directory
  deriving DecidableEq, Repr

def Entry.kind : Entry → EntryKind
  | .file _ => .file
  | .directory => .directory

/-- A tree of files and the directory in which relative paths start. -/
structure FileTree where
  entries : Std.ExtTreeMap Location Entry
  workingDirectory : Location

namespace FileTree

/-- What a location holds; the root is always a directory. -/
def get? (t : FileTree) (l : Location) : Option Entry :=
  if l = [] then some .directory else t.entries[l]?

def insert (t : FileTree) (l : Location) (e : Entry) : FileTree :=
  { t with entries := t.entries.insert l e }

def erase (t : FileTree) (l : Location) : FileTree :=
  { t with entries := t.entries.erase l }

/-- Every location but the root lies in a directory. -/
def WF (t : FileTree) : Prop :=
  ∀ l name e, t.get? (l ++ [name]) = some e → t.get? l = some .directory

/-- The longest name that a directory takes, in bytes. -/
def maxNameBytes : Nat := 255

/-- The shortest path that is too long, in bytes. -/
def maxPathBytes : Nat := 4096

/-- The steps of a path: the names between its slashes, `.` and `..` included. -/
def stepsOf (p : Path) : List String :=
  ((Path.splitSlashes p.text.toList).filter (!·.isEmpty)).map String.ofList

/-- Whether a text may be a path at all. -/
def checkPath (p : Path) : Except FileError Unit :=
  if p.text.toList.contains '\x00' then .error .nulInName
  else if p.text.isEmpty then .error .notFound
  else if p.text.utf8ByteSize ≥ maxPathBytes then .error .nameTooLong
  else .ok ()

def origin (t : FileTree) (p : Path) : Location :=
  if p.isAbsolute then [] else t.workingDirectory

/-- The location one step away, which must be in a directory and hold something. -/
def enter (t : FileTree) (l : Location) (step : String) : Except FileError Location :=
  match t.get? l with
  | none => .error .notFound
  | some (.file _) => .error .notADirectory
  | some .directory =>
    if step = "." then .ok l
    else if step = ".." then .ok l.dropLast
    else if step.utf8ByteSize > maxNameBytes then .error .nameTooLong
    else if (t.get? (l ++ [step])).isSome then .ok (l ++ [step])
    else .error .notFound

/-- The location at the end of steps. -/
def walk (t : FileTree) : Location → List String → Except FileError Location
  | l, [] => .ok l
  | l, step :: steps =>
    match t.enter l step with
    | .ok l => t.walk l steps
    | .error e => .error e

/-- The location that a path denotes, and what is there. A slash at the end asks for a directory. -/
def resolve (t : FileTree) (p : Path) : Except FileError (Location × Entry) :=
  match checkPath p with
  | .error e => .error e
  | .ok _ =>
    match t.walk (t.origin p) (stepsOf p) with
    | .error e => .error e
    | .ok l =>
      match t.get? l with
      | none => .error .notFound
      | some (.file content) =>
        if p.endsInSlash then .error .notADirectory else .ok (l, .file content)
      | some .directory => .ok (l, .directory)

/-- The last step of a path. -/
inductive LastStep where
  | root
  | dots
  | name (n : String)
  deriving DecidableEq, Repr

/-- The directory in which the last step of a path is taken, and that step. -/
def resolveParent (t : FileTree) (p : Path) : Except FileError (Location × LastStep) :=
  match checkPath p with
  | .error e => .error e
  | .ok _ =>
    match (stepsOf p).reverse with
    | [] => .ok ([], .root)
    | last :: before =>
      match t.walk (t.origin p) before.reverse with
      | .error e => .error e
      | .ok l =>
        match t.get? l with
        | none => .error .notFound
        | some (.file _) => .error .notADirectory
        | some .directory =>
          if last = "." ∨ last = ".." then .ok (l, .dots) else .ok (l, .name last)

def child? (t : FileTree) (l : Location) (name : String) : Except FileError (Option Entry) :=
  if name.utf8ByteSize > maxNameBytes then .error .nameTooLong else .ok (t.get? (l ++ [name]))

def inspect (t : FileTree) (p : Path) : Option EntryKind :=
  match t.resolve p with
  | .ok (_, e) => some e.kind
  | .error _ => none

def read (t : FileTree) (p : Path) : Except FileError Bytes :=
  match t.resolve p with
  | .ok (_, .file content) => .ok content
  | .ok (_, .directory) => .error .isADirectory
  | .error e => .error e

def list (t : FileTree) (p : Path) : Except FileError (List String) :=
  match t.resolve p with
  | .ok (l, .directory) =>
    .ok (t.entries.keys.filterMap fun k => if k.dropLast = l then k.getLast? else none)
  | .ok (_, .file _) => .error .notADirectory
  | .error e => .error e

/-- Makes a file hold bytes, creating it when it is absent. -/
def write (t : FileTree) (p : Path) (content : Bytes) : Except FileError FileTree :=
  match t.resolveParent p with
  | .error e => .error e
  | .ok (_, .root) => .error .isADirectory
  | .ok (_, .dots) => .error .isADirectory
  | .ok (l, .name n) =>
    if p.endsInSlash then .error .isADirectory
    else
      match t.child? l n with
      | .error e => .error e
      | .ok (some .directory) => .error .isADirectory
      | .ok _ => .ok (t.insert (l ++ [n]) (.file content))

def remove (t : FileTree) (p : Path) : Except FileError FileTree :=
  match t.resolveParent p with
  | .error e => .error e
  | .ok (_, .root) => .error .isADirectory
  | .ok (_, .dots) => .error .isADirectory
  | .ok (l, .name n) =>
    match t.child? l n with
    | .error e => .error e
    | .ok none => .error .notFound
    | .ok (some .directory) => .error .isADirectory
    | .ok (some (.file _)) =>
      if p.endsInSlash then .error .notADirectory else .ok (t.erase (l ++ [n]))

def makeDirectory (t : FileTree) (p : Path) : Except FileError FileTree :=
  match t.resolveParent p with
  | .error e => .error e
  | .ok (_, .root) => .error .alreadyExists
  | .ok (_, .dots) => .error .alreadyExists
  | .ok (l, .name n) =>
    match t.child? l n with
    | .error e => .error e
    | .ok (some _) => .error .alreadyExists
    | .ok none => .ok (t.insert (l ++ [n]) .directory)

/-- Moves a location and everything below it. -/
def moveAll (t : FileTree) (source target : Location) : FileTree :=
  { t with
    entries := t.entries.foldl
      (fun m l e =>
        if source.isPrefixOf l then m.insert (target ++ l.drop source.length) e
        else m.insert l e)
      ∅ }

/-- A location strictly above another one. -/
def isAbove (l m : Location) : Bool :=
  l.isPrefixOf m && l.length < m.length

def hasChildren (t : FileTree) (l : Location) : Bool :=
  t.entries.keys.any (isAbove l)

/-- What hinders moving `e` from one location to another that holds `there`. -/
def checkMove (t : FileTree) (source target : Location) (e : Entry) (there : Option Entry) :
    Except FileError Unit :=
  if isAbove source target then .error .invalidArgument
  else if isAbove target source then .error .directoryNotEmpty
  else
    match e, there with
    | .file _, some .directory => .error .isADirectory
    | .file _, _ => .ok ()
    | .directory, some (.file _) => .error .notADirectory
    | .directory, some .directory =>
      if t.hasChildren target then .error .directoryNotEmpty else .ok ()
    | .directory, none => .ok ()

/-- Renames a file or a directory. A file takes the place of a file; a directory takes the place of
an empty directory. -/
def rename (t : FileTree) (p q : Path) : Except FileError FileTree :=
  match t.resolveParent p with
  | .error e => .error e
  | .ok (l, source) =>
    match t.resolveParent q with
    | .error e => .error e
    | .ok (m, target) =>
      match source, target with
      | .name n, .name k =>
        match t.child? l n with
        | .error e => .error e
        | .ok none => .error .notFound
        | .ok (some e) =>
          match t.child? m k with
          | .error e => .error e
          | .ok there =>
            if e.kind = .file ∧ (p.endsInSlash ∨ q.endsInSlash) then .error .notADirectory
            else if l ++ [n] = m ++ [k] then .ok t
            else
              match t.checkMove (l ++ [n]) (m ++ [k]) e there with
              | .error e => .error e
              | .ok _ =>
                match e with
                | .file content =>
                  .ok ((t.erase (l ++ [n])).insert (m ++ [k]) (.file content))
                | .directory => .ok ((t.erase (m ++ [k])).moveAll (l ++ [n]) (m ++ [k]))
      | _, _ => .error .busy

def pathOf (l : Location) : Path :=
  ⟨"/" ++ "/".intercalate l⟩

end FileTree

end Pagewright
