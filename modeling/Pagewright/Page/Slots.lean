import Pagewright.Name
import Pagewright.Page.Shape
import Pagewright.Path
import Pagewright.Text.Quoted

/-!
# The slots of a page

A page maps slot names to texts. Three slots describe the source file; they come back whenever a
shape is installed, and no other operation changes them. Every other slot is a default of the shape
last installed or was set under a lawful slot name, so `set` and `clear` refuse the names of those
three and everything that is no slot name, and a refused call changes nothing.
-/

namespace Pagewright

open Text

/-- What a page knows of its source file. -/
structure SourceFacts where
  path : String
  directory : String
  fileName : String
  deriving DecidableEq, Repr

def SourceFacts.ofPath (p : Path) : SourceFacts where
  path := p.text
  directory := (p.parent?.map Path.text).getD ""
  fileName := p.fileName?.getD ""

/-- The slots of one page and the name of its shape. -/
structure PageSlots where
  shape : String
  values : SlotValues
  source : SourceFacts

/-- Why a slot may not be written. -/
inductive SlotRefusal where
  | describesSource (slot : String)
  | unlawfulName (slot : String)
  deriving DecidableEq, Repr

def SlotRefusal.message : SlotRefusal → String
  | .describesSource slot => "slot " ++ quoted slot ++ " is built in and cannot be modified"
  | .unlawfulName slot => quoted slot ++ " is not a valid slot name"

namespace PageSlots

/-- The slots that describe the source file, alone. -/
def sourceSlots (source : SourceFacts) : SlotValues :=
  (((∅ : SlotValues).insert pathSlot source.path).insert
    directorySlot source.directory).insert fileNameSlot source.fileName

/-- The slots that a shape starts with: those of the source file and its defaults of other names. -/
def startingSlots (source : SourceFacts) (s : Shape) : SlotValues :=
  s.defaults.foldl (fun m slot value => if isSourceSlot slot then m else m.insert slot value)
    (sourceSlots source)

def ofFacts (source : SourceFacts) (s : Shape) : PageSlots where
  shape := s.name
  values := startingSlots source s
  source

def new (s : Shape) (p : Path) : PageSlots :=
  ofFacts (.ofPath p) s

/-- Takes up a shape afresh and forgets every slot set before. -/
def install (ps : PageSlots) (s : Shape) : PageSlots :=
  ofFacts ps.source s

def get? (ps : PageSlots) (slot : String) : Option String :=
  ps.values[slot]?

def value (ps : PageSlots) (slot : String) : String :=
  (ps.get? slot).getD ""

def permit (slot : String) : Except SlotRefusal Unit :=
  if isSourceSlot slot then .error (.describesSource slot)
  else if namesSlot slot then .ok ()
  else .error (.unlawfulName slot)

/-- Gives a slot a value. -/
def set (ps : PageSlots) (slot value : String) : Except SlotRefusal PageSlots :=
  (permit slot).map fun _ => { ps with values := ps.values.insert slot value }

def clear (ps : PageSlots) (slot : String) : Except SlotRefusal PageSlots :=
  (permit slot).map fun _ => { ps with values := ps.values.erase slot }

def toList (ps : PageSlots) : List (String × String) :=
  ps.values.toList

@[simp] theorem source_install (ps : PageSlots) (s : Shape) :
    (ps.install s).source = ps.source := rfl

end PageSlots

end Pagewright
