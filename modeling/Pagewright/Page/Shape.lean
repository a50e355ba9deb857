import Std.Data.ExtTreeMap.Basic
import Std.Data.ExtTreeMap.Lemmas

/-!
# Page shapes

A shape is a named set of slot values that a page starts with. A table holds shapes by name and
always has the default one, `Page`. Shapes given later replace earlier ones of the same name, the
default one included, so that the default shape is always the table's entry for its name.
-/

namespace Pagewright

/-- Slot values by slot name, in increasing order of the names. -/
abbrev SlotValues := Std.ExtTreeMap String String

/-- A named page layout: the values its slots start with. -/
structure Shape where
  name : String
  description : String := ""
  defaults : SlotValues := ∅

/-- Shapes by name. -/
structure ShapeTable where
  shapes : Std.ExtTreeMap String Shape
  default : Shape

namespace Shape

def defaultName : String := "Page"

def plainPage : Shape where
  name := defaultName
  description := "Plain page with no preset slots"

/-- A shape whose slots start with the given values, the last one of each slot. -/
def ofList (name description : String) (defaults : List (String × String)) : Shape where
  name
  description
  defaults := defaults.foldl (fun m (slot, value) => m.insert slot value) ∅

end Shape

namespace ShapeTable

def standard : ShapeTable where
  shapes := (∅ : Std.ExtTreeMap String Shape).insert Shape.defaultName Shape.plainPage
  default := Shape.plainPage

def add (t : ShapeTable) (s : Shape) : ShapeTable where
  shapes := t.shapes.insert s.name s
  default := if s.name = Shape.defaultName then s else t.default

/-- The standard table extended with shapes, in order. -/
def ofList (shapes : List Shape) : ShapeTable :=
  shapes.foldl add standard

def get? (t : ShapeTable) (name : String) : Option Shape :=
  t.shapes[name]?

def names (t : ShapeTable) : List String :=
  t.shapes.keys

end ShapeTable

end Pagewright
