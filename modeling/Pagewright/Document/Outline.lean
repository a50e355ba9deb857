import Pagewright.Document.Basic
import Pagewright.Json.Basic

/-!
# Outlines

An outline lists the components of a document with their first lines, as JSON or as a tree of one
line per component.
-/

namespace Pagewright

open Text

/-- One component in an outline. -/
inductive Summary where
  | plainText (line lines : Nat)
  | script (line : Nat) (text : String)
  | shapeChoice (line : Nat) (identifier : String)
  | slot (line : Nat) (name : String) (display : SlotDisplay) (text : String)
  deriving DecidableEq, Repr

def SlotDisplay.label : SlotDisplay → String
  | .rendered => "rendered"
  | .commentOnly => "comment-only"

namespace Summary

def ofComponent (c : Component) : Summary :=
  match c.kind with
  | .plainText => .plainText c.start c.body.lines.length
  | .script _ => .script c.start c.text
  | .shapeChoice _ identifier => .shapeChoice c.start identifier
  | .slot name display => .slot c.start name display c.text

def line : Summary → Nat
  | .plainText line _ => line
  | .script line _ => line
  | .shapeChoice line _ => line
  | .slot line _ _ _ => line

/-- A summary as a JSON object. -/
def toJson : Summary → Json
  | .plainText line lines =>
    .object [("kind", .string "plain-text"), ("line", .ofNat line), ("lines", .ofNat lines)]
  | .script line text =>
    .object [("kind", .string "script"), ("line", .ofNat line), ("text", .string text)]
  | .shapeChoice line identifier =>
    .object [("kind", .string "class-selector"), ("line", .ofNat line),
      ("identifier", .string identifier)]
  | .slot line name display text =>
    .object [("kind", .string "data-slot"), ("line", .ofNat line), ("name", .string name),
      ("slot", .string display.label), ("text", .string text)]

/-- How many lines a script's entry reports. -/
def scriptLines (text : String) : Nat :=
  (lines text).length

def entry : Summary → String
  | .plainText line lines => "plain-text @" ++ toString line ++ " (" ++ toString lines ++ " lines)"
  | .script line text =>
    "script @" ++ toString line ++ " (" ++ toString (scriptLines text) ++ " lines)"
  | .shapeChoice line identifier => "class @" ++ toString line ++ " " ++ identifier
  | .slot line name display text =>
    "slot @" ++ toString line ++ " " ++ name ++ " [" ++ display.label ++ "] " ++ quoted text

end Summary

namespace Document

def outline (doc : Document) : List Summary :=
  doc.components.map Summary.ofComponent

/-- The outline as JSON: the path, the shape, the components and the slots. -/
def outlineJson (doc : Document) : Json :=
  .object [
    ("source", .string doc.path.text),
    ("shape", .string doc.slots.shape),
    ("components", .array (doc.outline.map Summary.toJson)),
    ("slots", .array (doc.slots.toList.map fun (slot, value) =>
      .array [.string slot, .string value]))]

def outlineTree (doc : Document) : String :=
  "document " ++ doc.path.text ++ "\n" ++
    String.join (doc.outline.map fun s => "├─ " ++ s.entry ++ "\n") ++
    "└─ shape " ++ doc.slots.shape ++ "\n"

end Document

end Pagewright
