import Pagewright.Directive.Basic
import Pagewright.Text.Blank

/-!
# Matching a line

The loose form of a directive line is

    blanks [ "<!--" blanks ] [ "[" ] name [ blanks word ] [ "]" ] [ blanks "-->" ] blanks

where each bracketed part may be missing, blanks are any number of blank characters (one at least
before the word), the name is an identifier and the word is a run of identifier characters. No part
can take what another one needs, so one scan from left to right that takes each part as long as it
can finds the only reading of a line (`scan`). Whether the line is a directive, and a lawful one, is
decided afterwards.
-/

namespace Pagewright.Directive

open Text

def afterMark? (mark cs : List Char) : Option (List Char) :=
  if mark.isPrefixOf cs then some (cs.drop mark.length) else none

/-- Whether a text starts with `mark`, and the rest after it. -/
def takeMark (mark cs : List Char) : Bool × List Char :=
  match afterMark? mark cs with
  | some rest => (true, rest)
  | none => (false, cs)

def commentStart : List Char := ['<', '!', '-', '-']

def commentEnd : List Char := ['-', '-', '>']

def scan (line : List Char) : Option Directive :=
  let (startsComment, cs) := takeMark commentStart (dropBlanks line)
  let (startsSection, cs) := takeMark ['['] (dropBlanks cs)
  match cs with
  | [] => none
  | c :: _ =>
    if isNameStart c then
      let name := String.ofList (cs.takeWhile isNameChar)
      let cs := dropBlanks (cs.dropWhile isNameChar)
      let word := cs.takeWhile isNameChar
      let (endsSection, cs) := takeMark [']'] (cs.dropWhile isNameChar)
      let (endsComment, cs) := takeMark commentEnd (dropBlanks cs)
      if (dropBlanks cs).isEmpty then
        some {
          startsComment, endsComment, startsSection, endsSection, name
          addressesSlot := NameKind.of name == .slot
          value := if word.isEmpty then none else some (String.ofList word) }
      else none
    else none

/-- The directive that a line in the loose form holds. -/
def match? (line : String) : Option Directive :=
  scan line.toList

end Pagewright.Directive
