import Pagewright.CommandLine.Arguments
import Pagewright.Config.Load
import Pagewright.Document.Outline
import Pagewright.Refresh
import Pagewright.Script.Process

/-!
# Running the command line

`run` is the whole program: it reads the arguments, loads the configuration of the document and then
lists its components or refreshes it. The outcome is an exit code and what goes to the two output
streams. The code is 2 when the arguments are refused and when an output would have changed, 1 after
any other failure.
-/

namespace Pagewright.CommandLine

open Config

/-- How a run of the program ended. -/
structure Outcome where
  code : Nat := 0
  output : String := ""
  complaint : String := ""
  deriving DecidableEq, Repr

def usage : String :=
  "usage: regenerate <path> [-o|--output <file>] [--verify] [--published]\n" ++
  "                  [--inspect json|tree] [-c|--config <file>] [-v|--verbose]\n"

def versionText : String := "regenerate 0.1.0\n"

/-- The layers of the configuration that an invocation asks for. -/
def Invocation.layers (i : Invocation) : List Layer :=
  [.project ⟨i.document⟩] ++
    (i.config.map fun file => Layer.file ⟨file⟩ true).toList ++
    (if i.published then [.override "output.mode" (.text "published")] else []) ++
    (if i.verify then [.override "verify.enabled" (.bool true)] else []) ++
    (match i.verbosity with
      | 0 => []
      | 1 => [.override "logging.level" (.text "debug")]
      | _ => [.override "logging.level" (.text "trace")])

def executorOf (s : Settings) : Executor :=
  match s.interpreter? with
  | some interpreter => interpreter.run
  | none => .none

/-- The wording of a refresh error. Updates that are no object have no wording of their own. -/
def wordingOf (e : RefreshError) : String :=
  e.message?.getD "a script has written no object of slot updates"

def failure (e : RefreshError) : Outcome :=
  if e.isChange then { code := 2, complaint := "Change detected: " ++ wordingOf e ++ "\n" }
  else { code := 1, complaint := "Error: " ++ wordingOf e ++ "\n" }

def listComponents (s : Settings) (document : Path) (format : ListingFormat) :
    FileProgram Outcome := do
  match ← (Document.load s.shapeTable document).run with
  | .error e => return { code := 1, complaint := "Error: " ++ wordingOf e ++ "\n" }
  | .ok doc =>
    return match format with
      | .json => { output := doc.outlineJson.pretty ++ "\n" }
      | .tree => { output := doc.outlineTree }

def refreshDocument (s : Settings) (document : Path) (output : Option Path) :
    FileProgram Outcome := do
  let options : RefreshOptions := { mode := s.output.mode, replace := s.replaceOptions }
  let result ← match output with
    | some output =>
      (refresh s.shapeTable (executorOf s) options document output s.verify.enabled).run
    | none => (refreshInPlace s.shapeTable (executorOf s) options document).run
  match result with
  | .error e => return failure e
  | .ok report =>
    return {
      output := "Regenerated " ++ report.target.text ++ " (" ++ toString report.components ++
        " components, " ++ toString report.scripts ++ " scripts)\n" }

/-- Does what an invocation asks for. -/
def Invocation.run (i : Invocation) : FileProgram Outcome := do
  match ← (load i.layers).run with
  | .error e => return { code := 1, complaint := "Configuration error: " ++ e.message ++ "\n" }
  | .ok settings =>
    match i.inspect with
    | some format => listComponents settings ⟨i.document⟩ format
    | none => refreshDocument settings ⟨i.document⟩ (i.output.map Path.mk)

def run (args : List String) : FileProgram Outcome := do
  match parse args with
  | .error e => return { code := 2, complaint := e.message ++ "\n" ++ usage }
  | .ok .help => return { output := usage }
  | .ok .version => return { output := versionText }
  | .ok (.run i) => i.run

end Pagewright.CommandLine
