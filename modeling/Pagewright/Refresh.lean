import Pagewright.Document.Render
import Pagewright.File.Replace
import Pagewright.Script.Executor

/-!
# Refreshing a document

`refresh` reads a document, runs its scripts, renders it and replaces the output file, in this
order; nothing is written unless everything before has succeeded. A published rendering has no
directives left, so it may not go to the path that its source was read from.
-/

namespace Pagewright

open Text

/-- Why a refresh failed. -/
inductive RefreshError where
  | read (path : Path) (error : FileError)
  | parse (path : Path) (error : DocumentError)
  | execution (path : Path) (error : ScriptFailure)
  /-- A published rendering would replace its source. -/
  | publishedOverSource (path : Path)
  | write (error : ReplaceError)
  deriving Repr

namespace RefreshError

def message? : RefreshError → Option String
  | .read path error => some (path.text ++ ": " ++ error.message)
  | .parse path error => some (path.text ++ ": " ++ error.message)
  | .execution path error => error.message?.map fun m => path.text ++ ": " ++ m
  | .publishedOverSource path =>
    some (path.text ++ ": published output strips directives and cannot replace its source")
  | .write error => some error.message

/-- Whether the output would have changed and was left as it was. -/
def isChange : RefreshError → Bool
  | .write error => error.isChange
  | _ => false

end RefreshError

/-- How documents are refreshed. -/
structure RefreshOptions where
  mode : Rendition := .source
  replace : ReplaceOptions := {}
  deriving DecidableEq, Repr

structure RefreshReport where
  source : Path
  target : Path
  backup : Option Path
  components : Nat
  scripts : Nat
  verified : Bool
  deriving DecidableEq, Repr

abbrev Refreshing := ExceptT RefreshError FileProgram

def absolutePath (p : Path) : FileProgram (Except FileError Path) := do
  return match p.absolute? (← FileProgram.workingDirectory) with
    | some q => .ok q
    | none => .error .emptyPath

def Document.load (shapes : ShapeTable) (p : Path) : Refreshing Document :=
  ExceptT.mk do
    match ← absolutePath p with
    | .error e => return .error (.read p e)
    | .ok source =>
      match ← FileProgram.readText source with
      | .error e => return .error (.read p e)
      | .ok text => return (Document.parse shapes source text).mapError (.parse source)

/-- Whether a path, as spelled, is that of a document. -/
def isPathOf (doc : Document) (p : Path) : FileProgram Bool := do
  return match p.absolute? (← FileProgram.workingDirectory) with
    | some q => q.isAlike doc.path
    | none => false

/-- Refreshes a source into an output by an executor that starts in a state. -/
def refreshFrom {σ : Type} (shapes : ShapeTable) (run : Executor.Stateful σ) (state : σ)
    (options : RefreshOptions) (source output : Path) (verify : Bool) :
    Refreshing RefreshReport := do
  let doc ← Document.load shapes source
  if options.mode = .published then
    if ← (isPathOf doc output : FileProgram Bool) then throw (.publishedOverSource doc.path)
  let (doc, result) ← (doc.runScriptsFrom run state : FileProgram _)
  if let .error e := result then throw (.execution doc.path e)
  let replaced ← ExceptT.adapt RefreshError.write
    (replaceFile output (doc.render options.mode) verify options.replace)
  return {
    source := doc.path
    target := replaced.target
    backup := replaced.backup
    components := doc.components.length
    scripts := doc.scripts.length
    verified := replaced.verified }

def refresh (shapes : ShapeTable) (run : Executor) (options : RefreshOptions)
    (source output : Path) (verify : Bool) : Refreshing RefreshReport :=
  refreshFrom shapes run.stateful () options source output verify

def refreshInPlace (shapes : ShapeTable) (run : Executor) (options : RefreshOptions)
    (p : Path) : Refreshing RefreshReport :=
  refresh shapes run options p p false

end Pagewright
