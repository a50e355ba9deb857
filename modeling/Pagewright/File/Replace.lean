import Pagewright.File.Program
import Pagewright.Text.Quoted

/-!
# Replacing a file safely

`replaceFile` gives a file new content and keeps the previous version beside it, one generation,
under the name with a suffix. A verified replacement demands that the content does not change: on
any difference it moves the new content aside, puts the previous version back and reports the first
differing byte with the text around it in both versions. Missing directories above the file are
created first; an ancestor that is no directory stops everything before the first change.
-/

namespace Pagewright

open Text

/-- How a file is replaced. -/
structure ReplaceOptions where
  /-- What follows the file name in the name of the previous version. -/
  backupSuffix : String := "~"
  /-- What follows the file name in the name of a rejected new version. -/
  newSuffix : String := ".new"
  /-- How many bytes around a difference are reported on each side. -/
  contextBytes : Nat := 40
  deriving DecidableEq, Repr

structure Replaced where
  target : Path
  backup : Option Path
  verified : Bool
  deriving DecidableEq, Repr

/-- Why a replacement failed. -/
inductive ReplaceError where
  /-- An ancestor of the target is no directory. -/
  | blocked (target component : Path)
  /-- The new content differs from the previous version, which is back in its place. -/
  | changed (target newPath : Path) (offset : Nat) (expected actual : String)
  /-- The previous version has disappeared. -/
  | backupGone (path : Path)
  | file (path : Path) (error : FileError)
  deriving DecidableEq, Repr

def ReplaceError.message : ReplaceError → String
  | .blocked target component =>
    "cannot create parent of " ++ target.text ++ ": " ++ component.text ++
      " exists but is not a directory"
  | .changed target newPath offset expected actual =>
    "unexpected change in " ++ target.text ++ " at byte " ++ toString offset ++ ": expected " ++
      quoted expected ++ ", found " ++ quoted actual ++ " (new content saved to " ++
      newPath.text ++ ")"
  | .backupGone path => "expected backup file " ++ path.text ++ " is missing"
  | .file path error => path.text ++ ": " ++ error.message

def ReplaceError.isChange : ReplaceError → Bool
  | .changed _ _ _ _ _ => true
  | _ => false

/-- The offset of the first byte at which two contents differ or one of them ends. -/
def firstMismatch : Bytes → Bytes → Option Nat
  | [], [] => none
  | a :: as, b :: bs => if a = b then (firstMismatch as bs).map (· + 1) else some 0
  | _, _ => some 0

theorem firstMismatch_eq_none_iff {as bs : Bytes} : firstMismatch as bs = none ↔ as = bs := by
  induction as generalizing bs with
  | nil => cases bs <;> simp [firstMismatch]
  | cons a as ih =>
    cases bs with
    | nil => simp [firstMismatch]
    | cons b bs => by_cases hab : a = b <;> simp [firstMismatch, hab, ih]

/-- The bytes up to `width` before an offset and up to `width` from it on. -/
def window (content : Bytes) (offset width : Nat) : Bytes :=
  (content.take (offset + width)).drop (offset - width)

def excerpt (content : Bytes) (offset width : Nat) : String :=
  Utf8.decodeLossy (window content offset width)

abbrev Replacing := ExceptT ReplaceError FileProgram

namespace Replacing

/-- Carries out an operation whose failure is reported for a path. -/
def attempt {α : Type} (p : Path) (op : FileProgram (Except FileError α)) : Replacing α :=
  ExceptT.mk do
    match ← op with
    | .ok a => return .ok a
    | .error e => return .error (.file p e)

/-- Removes a file that is in the way. -/
def removeIfPresent (p : Path) : Replacing Unit := do
  if ← (FileProgram.exists? p : FileProgram Bool) then attempt p (.remove p)

/-- Stops at the first path that is something else than a directory. -/
def checkDirectories (target : Path) : List Path → Replacing Unit
  | [] => return ()
  | p :: ps => do
    if (← (FileProgram.inspect p : FileProgram (Option EntryKind))) == some .file then
      throw (.blocked target p)
    checkDirectories target ps

end Replacing

open Replacing

def makeAncestors (target : Path) : Replacing Unit := do
  match target.parent? with
  | none => return ()
  | some parent =>
    if parent.text.isEmpty then return ()
    checkDirectories target parent.ancestors
    unless ← (FileProgram.exists? parent : FileProgram Bool) do
      attempt parent (.makeDirectories (parent.text.length + 1) parent)

def readBackup (backup : Path) : Replacing Bytes :=
  ExceptT.mk do
    match ← FileProgram.read backup with
    | .ok content => return .ok content
    | .error .notFound => return .error (.backupGone backup)
    | .error e => return .error (.file backup e)

/-- Compares the new content, which is in place, with the previous version and goes back to that one
when they differ. -/
def verifyReplaced (target backup : Path) (content : Bytes) (options : ReplaceOptions) :
    Replacing Replaced := do
  let previous ← readBackup backup
  let newPath := target.sibling options.newSuffix
  removeIfPresent newPath
  match firstMismatch previous content with
  | none => return { target, backup := some backup, verified := true }
  | some offset =>
    attempt target (.rename target newPath)
    attempt backup (.rename backup target)
    throw (.changed target newPath offset (excerpt previous offset options.contextBytes)
      (excerpt content offset options.contextBytes))

/-- Gives a file new content and keeps the previous version as a backup. -/
def replaceFile (target : Path) (text : String) (verify : Bool) (options : ReplaceOptions) :
    Replacing Replaced := do
  makeAncestors target
  let backup := target.sibling options.backupSuffix
  let hadPrevious ← (FileProgram.exists? target : FileProgram Bool)
  removeIfPresent backup
  if hadPrevious then attempt target (.rename target backup)
  let content := Utf8.encode text
  attempt target (.write target content)
  if verify && hadPrevious then verifyReplaced target backup content options
  else return { target, backup := if hadPrevious then some backup else none, verified := false }

end Pagewright
