import Pagewright.File.Tree

/-!
# File programs

Everything that touches files is written as a `FileProgram`: a value that asks for one operation
after another and goes on with the answer. `run` carries a program out on a `FileTree`; the command
line carries the same programs out on the real files. As the operations of a program are visible one
by one, a program can also be followed to any point in between, or with operations that fail.
-/

namespace Pagewright

open Text

/-- One operation on files. -/
inductive FileOp where
  | inspect (p : Path)
  | read (p : Path)
  | list (p : Path)
  | write (p : Path) (content : Bytes)
  | remove (p : Path)
  | rename (p q : Path)
  | makeDirectory (p : Path)
  | workingDirectory
  deriving DecidableEq, Repr

@[reducible] def FileOp.Answer : FileOp → Type
  | .inspect _ => Option EntryKind
  | .read _ => Except FileError Bytes
  | .list _ => Except FileError (List String)
  | .write _ _ => Except FileError Unit
  | .remove _ => Except FileError Unit
  | .rename _ _ => Except FileError Unit
  | .makeDirectory _ => Except FileError Unit
  | .workingDirectory => Path

/-- The answer and the tree after a change that fails or gives a new tree. -/
def FileOp.settle (t : FileTree) : Except FileError FileTree → Except FileError Unit × FileTree
  | .ok t' => (.ok (), t')
  | .error e => (.error e, t)

/-- Carries out an operation on a tree. An operation that fails changes nothing. -/
def FileOp.perform (t : FileTree) : (op : FileOp) → op.Answer × FileTree
  | .inspect p => (t.inspect p, t)
  | .read p => (t.read p, t)
  | .list p => (t.list p, t)
  | .write p content => settle t (t.write p content)
  | .remove p => settle t (t.remove p)
  | .rename p q => settle t (t.rename p q)
  | .makeDirectory p => settle t (t.makeDirectory p)
  | .workingDirectory => (FileTree.pathOf t.workingDirectory, t)

/-- A result, or an operation and how to go on with its answer. -/
inductive FileProgram (α : Type) where
  | done (a : α)
  | step (op : FileOp) (next : op.Answer → FileProgram α)

namespace FileProgram

variable {α β : Type}

def bind : FileProgram α → (α → FileProgram β) → FileProgram β
  | .done a, k => k a
  | .step op next, k => .step op fun answer => (next answer).bind k

instance : Monad FileProgram where
  pure := .done
  bind := bind

instance : LawfulMonad FileProgram := by
  refine LawfulMonad.mk' FileProgram (fun prog => ?_) (fun _ _ => rfl) fun prog _ _ => ?_
  · induction prog with
    | done a => rfl
    | step op next ih => exact congrArg (FileProgram.step op) (funext ih)
  · induction prog with
    | done a => rfl
    | step op next ih => exact congrArg (FileProgram.step op) (funext ih)

/-- The program of one operation. -/
def perform (op : FileOp) : FileProgram op.Answer :=
  .step op .done

/-- Carries out a program on a tree. -/
def run (t : FileTree) : FileProgram α → α × FileTree
  | .done a => (a, t)
  | .step op next =>
    let (answer, t') := op.perform t
    (next answer).run t'

def inspect (p : Path) : FileProgram (Option EntryKind) :=
  perform (.inspect p)

def exists? (p : Path) : FileProgram Bool :=
  return (← inspect p).isSome

def read (p : Path) : FileProgram (Except FileError Bytes) :=
  perform (.read p)

def list (p : Path) : FileProgram (Except FileError (List String)) :=
  perform (.list p)

/-- Makes a file hold bytes. -/
def write (p : Path) (content : Bytes) : FileProgram (Except FileError Unit) :=
  perform (.write p content)

def remove (p : Path) : FileProgram (Except FileError Unit) :=
  perform (.remove p)

def rename (p q : Path) : FileProgram (Except FileError Unit) :=
  perform (.rename p q)

def makeDirectory (p : Path) : FileProgram (Except FileError Unit) :=
  perform (.makeDirectory p)

def workingDirectory : FileProgram Path :=
  perform .workingDirectory

/-- Whether a program can be in a directory: reading its own entry `.` fails for no other reason
than that it is a directory. -/
def enter (p : Path) : FileProgram (Except FileError Unit) := do
  if p.text.isEmpty then return .error .notFound
  match ← read (p.join ".") with
  | .error .isADirectory => return .ok ()
  | .error e => return .error e
  | .ok _ => return .error .notADirectory

/-- Creates a directory and those above it that are missing; `fuel` bounds their number. A directory
that is there already is no failure. -/
def makeDirectories : Nat → Path → FileProgram (Except FileError Unit)
  | 0, _ => return .error .notFound
  | fuel + 1, p => do
    if p.text.isEmpty then return .ok ()
    match ← makeDirectory p with
    | .ok _ => return .ok ()
    | .error .notFound =>
      match p.parent? with
      | none => return .error (.other "failed to create whole tree")
      | some parent =>
        match ← makeDirectories fuel parent with
        | .error e => return .error e
        | .ok _ => settleExisting p (← makeDirectory p)
    | .error e => settleExisting p (.error e)
where
  /-- A failure to create a directory that is there counts as success. -/
  settleExisting (p : Path) (result : Except FileError Unit) :
      FileProgram (Except FileError Unit) := do
    match result with
    | .ok _ => return .ok ()
    | .error e => return if (← inspect p) == some .directory then .ok () else .error e

def readText (p : Path) : FileProgram (Except FileError String) := do
  match ← read p with
  | .error e => return .error e
  | .ok content =>
    match Utf8.decode? content with
    | .ok text => return .ok text
    | .error _ => return .error .notUtf8

/-- A program made of two runs the second one where the first one ends. -/
theorem run_bind (t : FileTree) (p : FileProgram α) (k : α → FileProgram β) :
    (p.bind k).run t = (k (p.run t).1).run (p.run t).2 := by
  induction p generalizing t with
  | done a => rfl
  | step op next ih => exact ih _ _

end FileProgram

end Pagewright
