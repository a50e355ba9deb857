import Pagewright.Config.Key
import Pagewright.Config.Settings
import Pagewright.Config.Toml.Reader
import Pagewright.File.Program

/-!
# Loading a configuration

A configuration is made of layers over the defaults: files, in order, and after all of them the
overrides of single keys. A layer that is the project file of a document is the `.regenerate.toml`
in the nearest of the directories that the path of the document names (`findProjectFile`), if there
is one.
-/

namespace Pagewright.Config

open Text

def projectFileName : String := ".regenerate.toml"

/-- One layer of a configuration. -/
inductive Layer where
  /-- A file, which may be missing when it is not required. -/
  | file (path : Path) (required : Bool)
  | project (document : Path)
  | override (key : String) (value : Value)

inductive LoadError where
  /-- The key of an override has not the form of a key. -/
  | badKey (key : String)
  | missingFile (path : Path)
  | unreadableFile (path : Path) (error : FileError)
  /-- A file is not TOML, or has a key that cannot be set. -/
  | badFile (path : Path)
  | badOverride (key : String)
  /-- A setting is missing or has a value of the wrong kind. -/
  | badSettings
  deriving DecidableEq, Repr

def LoadError.message : LoadError → String
  | .badKey key => "invalid configuration key \"" ++ key ++ "\""
  | .missingFile path => "configuration file \"" ++ path.text ++ "\" not found"
  | .unreadableFile path error => path.text ++ ": " ++ error.message
  | .badFile path => path.text ++ ": invalid configuration file"
  | .badOverride key => "cannot set configuration key \"" ++ key ++ "\""
  | .badSettings => "invalid configuration value"

abbrev Loading := ExceptT LoadError FileProgram

def firstFile : List Path → FileProgram (Option Path)
  | [] => return none
  | p :: ps => do
    if (← FileProgram.inspect p) == some .file then return some p
    firstFile ps

/-- The project file of a document: the nearest one in the directories that its path names, as it is
spelled. -/
def findProjectFile (document : Path) : FileProgram (Option Path) :=
  firstFile (document.ancestors.map fun dir => dir.join projectFileName)

/-- The path of a file with the ending that may be left out. What follows the file name, a slash or
a dot that names nothing, is dropped. -/
def withEnding? (p : Path) : Option Path :=
  p.fileName?.map fun name =>
    match p.parent? with
    | some parent => ⟨(parent.join name).text ++ ".toml"⟩
    | none => ⟨name ++ ".toml"⟩

/-- The file that a path means: itself, or the one with the usual ending. -/
def locateFile (p : Path) : FileProgram (Option Path) :=
  firstFile (p :: (withEnding? p).toList)

/-- Lays a file over a configuration. One that is not required may be missing or beyond reading;
what can be read has to be TOML. -/
def loadFile (root : Value) (p : Path) (required : Bool) : Loading Value :=
  ExceptT.mk do
    match ← locateFile p with
    | none => return if required then .error (.missingFile p) else .ok root
    | some q =>
      match ← FileProgram.readText q with
      | .error e => return if required then .error (.unreadableFile q e) else .ok root
      | .ok text =>
        return match (Toml.parse? text).bind root.addMembers? with
          | some root => .ok root
          | none => .error (.badFile q)

def loadFiles (root : Value) : List Layer → Loading Value
  | [] => return root
  | .file p required :: rest => do loadFiles (← loadFile root p required) rest
  | .project document :: rest => do
    match ← (findProjectFile document : FileProgram (Option Path)) with
    | some p => loadFiles (← loadFile root p true) rest
    | none => loadFiles root rest
  | .override _ _ :: rest => loadFiles root rest

/-- The overrides among some layers with their keys read; a later one takes the place of an earlier
one of the same key. -/
def overrides? : List Layer → Except LoadError (List (Key × Value))
  | [] => .ok []
  | .override text v :: rest =>
    match Key.parse? text with
    | none => .error (.badKey text)
    | some key => do
      let later ← overrides? rest
      return if later.any (·.1 == key) then later else (key, v) :: later
  | _ :: rest => overrides? rest

def applyOverrides (root : Value) : List (Key × Value) → Except LoadError Value
  | [] => .ok root
  | (key, v) :: rest =>
    match key.assign? root v with
    | some root => applyOverrides root rest
    | none => .error (.badOverride key.head)

def load (layers : List Layer) : Loading Settings := do
  let changes ← (ExceptT.mk (return overrides? layers) : Loading _)
  let root ← loadFiles .defaults layers
  let root ← (ExceptT.mk (return applyOverrides root changes) : Loading _)
  match Settings.ofValue? root with
  | some settings => return settings
  | none => throw .badSettings

end Pagewright.Config
