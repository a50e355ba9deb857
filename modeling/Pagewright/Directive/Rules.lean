import Pagewright.Directive.Match
import Pagewright.Text.Quoted

/-!
# Recognising directives

A line that is no directive is plain text. A directive is checked by rules in a fixed order
(`Directive.check`), the first one broken being the one reported: the name may be used, the section
markers go with the comment markers, and the form suits the kind of the name. `ofLine` puts
matching and checking together.
-/

namespace Pagewright.Directive

open Text

/-- The rule that a directive breaks. -/
inductive Violation where
  | noSlotName (name : String)
  | sourceSlot (name : String)
  /-- The section starts and ends on a line that is not a whole comment. -/
  | sectionOutsideComment
  /-- A section ends on a line that only starts a comment. -/
  | endBesideCommentStart
  /-- A section starts on a line that only ends a comment. -/
  | startBesideCommentEnd
  | scriptWithoutBody
  /-- A keyword stands where a rendered slot is opened. -/
  | keywordRendered (name : String)
  /-- A word follows a name that takes none. -/
  | needlessArgument (name value : String)
  | shapeWithoutName
  | shapeNotAlone
  | scriptReopensComment
  deriving DecidableEq, Repr

def Violation.message : Violation → String
  | .noSlotName name => "unknown directive name " ++ quoted name
  | .sourceSlot name =>
    "built-in slot " ++ quoted name ++ " is read-only and cannot be used as a data slot"
  | .sectionOutsideComment => "empty section, but the line is not a closed comment"
  | .endBesideCommentStart => "end of section in a comment start"
  | .startBesideCommentEnd => "start of section in a comment end"
  | .scriptWithoutBody => "empty script section, scripts must have a body"
  | .keywordRendered name => "reserved keyword " ++ quoted name ++ " used as a slot name"
  | .needlessArgument name value =>
    "unexpected argument " ++ quoted value ++ " after " ++ quoted name
  | .shapeWithoutName => "class directive requires a shape identifier"
  | .shapeNotAlone => "class directive must be a single self-contained line"
  | .scriptReopensComment => "script markers must not close and reopen the comment"

def checkNoArgument (d : Directive) : Except Violation Unit :=
  match d.value with
  | some value => .error (.needlessArgument d.name value)
  | none => .ok ()

/-- The rules on the form of each kind. -/
def checkForm (d : Directive) : Except Violation Unit :=
  match d.kind with
  | .slot => d.checkNoArgument
  | .script =>
    if d.isOneLine then .error .scriptWithoutBody
    else if d.value.isSome then d.checkNoArgument
    else if d.startsSection && d.endsComment then .error (.keywordRendered d.name)
    else if d.endsSection && d.startsComment then .error .scriptReopensComment
    else .ok ()
  | .shape =>
    if !d.isOneLine then .error .shapeNotAlone
    else if d.value.isNone then .error .shapeWithoutName
    else .ok ()

/-- The rules on the name and on the markers, then those on the form. -/
def check (d : Directive) : Except Violation Unit :=
  if d.kind == .slot && !namesSlot d.name then .error (.noSlotName d.name)
  else if d.kind == .slot && isSourceSlot d.name then .error (.sourceSlot d.name)
  else if d.isOneLine && !(d.startsComment && d.endsComment) then
    .error .sectionOutsideComment
  else if !d.startsSection && !d.endsComment then .error .endBesideCommentStart
  else if !d.endsSection && !d.startsComment then .error .startBesideCommentEnd
  else d.checkForm

/-- The lawful directive on a line, `none` for plain text. -/
def ofLine (line : String) : Except Violation (Option Directive) :=
  match match? line with
  | none => .ok none
  | some d => if d.isMarked then d.check.map fun _ => some d else .ok none

end Pagewright.Directive
