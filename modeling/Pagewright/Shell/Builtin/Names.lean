import Pagewright.Shell.Builtin.Basic

/-!
# Built-in commands for names of commands

The built-in commands that say what a name stands for at the start of a command: an alias, or a
program that is looked for only once.
-/

namespace Pagewright.Shell

namespace Builtin

def aliasText (name text : String) : String :=
  name ++ "=" ++ singleQuoted text

/-- Carries out an operation that may fail for each argument; the status tells whether one did. -/
def forEach (args : List String) (act : String → Run Bool) : Run Unit := do
  let done ← args.mapM act
  Run.settle (if done.all id then 0 else 1)

def refuseAlias (command name : String) : Run Bool := do
  Run.emit 2 (rawBytes (command ++ ": " ++ name ++ " not found\n"))
  return false

def setAliases : Action := fun args => do
  if args.isEmpty then
    for (name, text) in inPlaces 39 (← get).aliases do Run.say (aliasText name text ++ "\n")
  forEach args fun a => do
    let name := String.ofList (a.toList.takeWhile (· != '='))
    match a.toList.drop name.length, (← get).aliases.find? (·.1 == a) with
    | '=' :: text, _ =>
      if name.isEmpty then refuseAlias "alias" a
      else
        let text := String.ofList text
        modify fun s =>
          if s.aliases.any (·.1 == name) then
            { s with aliases := s.aliases.map fun old =>
                if old.1 == name then (name, text) else old }
          else { s with aliases := s.aliases ++ [(name, text)] }
        return true
    | _, some (name, text) =>
      Run.say (aliasText name text ++ "\n")
      return true
    | _, none => refuseAlias "alias" a

def removeAliases : Action := fun args => do
  let (told, names) ← options ['a'] [] args
  if told.isEmpty then
    forEach names fun name => do
      if (← get).aliases.any (·.1 == name) then
        modify fun s => { s with aliases := s.aliases.filter (·.1 != name) }
        return true
      else refuseAlias "unalias" name
  else
    modify fun s => { s with aliases := [] }
    Run.settle 0

/-- Looks for programs, or shows those that have been found; `-r` forgets them. -/
def remember (isKnown : String → Bool) : Action := fun args => do
  let (told, names) ← options ['r'] [] args
  if !told.isEmpty then
    modify fun s => { s with located := [] }
    Run.settle 0
  else
    if names.isEmpty then
      for (_, path) in inPlaces 31 (← get).located do Run.say (path ++ "\n")
    forEach names fun name => do
      if isKnown name || (← get).functions.any (·.1 == name) then return true
      match ← Run.locate name with
      | .ok _ => return true
      | .error _ =>
        Run.complain (name ++ ": not found")
        return false

end Builtin

end Pagewright.Shell
