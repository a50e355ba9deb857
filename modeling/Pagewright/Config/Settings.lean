import Pagewright.Config.Value
import Pagewright.Document.Render
import Pagewright.File.Replace
import Pagewright.Script.Interpreter

/-!
# Settings

The settings that a configuration comes to, in groups. `Settings.ofValue?` reads them from a value
that holds all of them; `Value.defaults` is the value that every configuration starts from, and its
settings are the default ones (`ofValue?_defaults`). A group may also be a list, which gives its
settings by position. Members that are no settings are skipped.
-/

namespace Pagewright.Config

/-- How the output is written. -/
structure OutputSettings where
  mode : Rendition := .source
  backupSuffix : String := "~"
  newSuffix : String := ".new"
  deriving DecidableEq, Repr

/-- Whether the output has to stay as it is. -/
structure VerifySettings where
  enabled : Bool := false
  contextBytes : Nat := 40
  deriving DecidableEq, Repr

structure ScriptSettings where
  enabled : Bool := false
  interpreter : String := "sh"
  args : List String := []
  stateVariable : String := "REGENERATE_PAGE_STATE"
  deriving DecidableEq, Repr

structure LoggingSettings where
  level : String := "info"
  deriving DecidableEq, Repr

/-- A page shape; the defaults of its slots are in the order in which they are given. -/
structure ShapeSettings where
  name : String
  description : String := ""
  defaults : List (String × String) := []
  deriving DecidableEq, Repr

structure Settings where
  output : OutputSettings := {}
  verify : VerifySettings := {}
  scripts : ScriptSettings := {}
  logging : LoggingSettings := {}
  shapes : List ShapeSettings := []
  deriving DecidableEq, Repr

namespace Value

/-- The configuration that all others are laid over. -/
def defaults : Value :=
  .table [
    ("output", .table [("mode", .text "source"), ("backup_suffix", .text "~"),
      ("new_suffix", .text ".new")]),
    ("verify", .table [("enabled", .bool false), ("context_bytes", .integer 40)]),
    ("scripts", .table [("enabled", .bool false), ("interpreter", .text "sh"),
      ("args", .list []), ("state_env", .text "REGENERATE_PAGE_STATE")]),
    ("logging", .table [("level", .text "info")])]

/-- What a group holds, by the name or the position of a setting. -/
def group? : Value → Option (String → Nat → Option Value)
  | .table ms => some fun name _ => find? name ms
  | .list vs => some fun _ position => vs[position]?
  | _ => none

def modeNamed? (name : String) : Option Rendition :=
  match small name with
  | "source" => some .source
  | "published" => some .published
  | _ => none

/-- A mode: its name, or a table with the name for its only member. -/
def toMode? : Value → Option Rendition
  | .text name => modeNamed? name
  | .table [(name, _)] => modeNamed? name
  | _ => none

def toTexts? (v : Value) : Option (List String) := do
  (← v.toList?).mapM toText?

/-- What an optional setting holds, or its default. -/
def readOr {α : Type} (read : Value → Option α) (other : α) : Option Value → Option α
  | some v => read v
  | none => some other

def toOutput? (v : Value) : Option OutputSettings := do
  let g ← v.group?
  return {
    mode := ← (← g "mode" 0).toMode?
    backupSuffix := ← (← g "backup_suffix" 1).toText?
    newSuffix := ← (← g "new_suffix" 2).toText? }

def toVerify? (v : Value) : Option VerifySettings := do
  let g ← v.group?
  return {
    enabled := ← (← g "enabled" 0).toBool?
    contextBytes := ← (← g "context_bytes" 1).toNat? }

def toScripts? (v : Value) : Option ScriptSettings := do
  let g ← v.group?
  return {
    enabled := ← (← g "enabled" 0).toBool?
    interpreter := ← (← g "interpreter" 1).toText?
    args := ← readOr toTexts? [] (g "args" 2)
    stateVariable := ← (← g "state_env" 3).toText? }

def toLogging? (v : Value) : Option LoggingSettings := do
  let g ← v.group?
  return { level := ← (← g "level" 0).toText? }

def toSlotDefault? (v : Value) : Option (String × String) := do
  let g ← v.group?
  return (← (← g "slot" 0).toText?, ← (← g "value" 1).toText?)

def toSlotDefaults? (v : Value) : Option (List (String × String)) := do
  (← v.toList?).mapM toSlotDefault?

def toShape? (v : Value) : Option ShapeSettings := do
  let g ← v.group?
  return {
    name := ← (← g "name" 0).toText?
    description := ← readOr toText? "" (g "description" 1)
    defaults := ← readOr toSlotDefaults? [] (g "defaults" 2) }

def toShapes? (v : Value) : Option (List ShapeSettings) := do
  (← v.toList?).mapM toShape?

end Value

namespace Settings

def ofValue? (v : Value) : Option Settings := do
  let g ← v.group?
  return {
    output := ← (← g "output" 0).toOutput?
    verify := ← (← g "verify" 1).toVerify?
    scripts := ← (← g "scripts" 2).toScripts?
    logging := ← (← g "logging" 3).toLogging?
    shapes := ← Value.readOr Value.toShapes? [] (g "shapes" 4) }

/-- Without any file and any override the settings are the default ones. -/
theorem ofValue?_defaults : ofValue? .defaults = some {} := by
  decide +kernel

def shapeTable (s : Settings) : ShapeTable :=
  .ofList (s.shapes.map fun shape => Shape.ofList shape.name shape.description shape.defaults)

def replaceOptions (s : Settings) : ReplaceOptions where
  backupSuffix := s.output.backupSuffix
  newSuffix := s.output.newSuffix
  contextBytes := s.verify.contextBytes

/-- The interpreter of scripts, when they are enabled. -/
def interpreter? (s : Settings) : Option Interpreter :=
  if s.scripts.enabled then
    some {
      program := s.scripts.interpreter
      args := s.scripts.args
      stateVariable := s.scripts.stateVariable }
  else none

end Settings

end Pagewright.Config
