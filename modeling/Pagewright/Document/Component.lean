import Pagewright.Directive.Basic
import Pagewright.Page.Slots
import Pagewright.Text.Lines

/-!
# Components

A document is a sequence of components: plain text, script blocks, choices of a shape and slots. A
component collects lines while it is open and gets its text when it finishes. Finishing is also when
it takes effect on the page (`Component.effect`): a slot is set to its text, a shape choice installs
its shape, a script joins the queue, and plain text does nothing. A closing directive must fit
(`Component.checkClosing`): the name agrees, keywords in any letter case and slot names exactly, and
it starts a comment for a rendered slot and does not for a comment-only one.
-/

namespace Pagewright

open Text

/-- How the content of a slot stands in the document. -/
inductive SlotDisplay where
  /-- The content is the slot's value and visible markup as well. -/
  | rendered
  /-- The content is kept inside a comment. -/
  | commentOnly
  deriving DecidableEq, Repr

/-- What a component is, apart from its place and its lines. -/
inductive ComponentKind where
  | plainText
  | script (keyword : String)
  | shapeChoice (keyword identifier : String)
  | slot (name : String) (display : SlotDisplay)
  deriving DecidableEq, Repr

/-- The lines between the markers, and their text once the component is finished. -/
structure Body where
  lines : List String := []
  text? : Option String := none
  deriving DecidableEq, Repr

/-- Consecutive lines that belong together. -/
structure Component where
  start : Nat
  kind : ComponentKind
  body : Body := {}
  deriving DecidableEq, Repr

/-- A script that waits for its execution. -/
structure PendingScript where
  line : Nat
  source : String
  deriving DecidableEq, Repr

/-- What the components of a document act on. -/
structure Page where
  slots : PageSlots
  scripts : List PendingScript := []

/-- Why a component may not open, close or take effect. -/
inductive ComponentError where
  | opensInside (directive : String)
  | closesNothing (directive : String)
  | closesOther (opening closing : String)
  | staysOpen (name : String) (start : Nat)
  /-- A rendered slot is closed by a line that starts no comment. -/
  | closeWithoutComment (name : String)
  /-- A comment-only slot is closed by a line that starts a comment. -/
  | closeWithComment (name : String)
  | noSuchShape (identifier : String)
  | slot (error : SlotRefusal)
  deriving DecidableEq, Repr

/-- The wording of a component error. -/
def ComponentError.message : ComponentError → String
  | .opensInside directive =>
    "unexpected section start " ++ quoted directive ++
      " inside component, nested open not permitted"
  | .closesNothing directive =>
    "unexpected section end " ++ quoted directive ++ ", nothing open"
  | .closesOther opening closing =>
    "name " ++ quoted closing ++ " in end comment doesn't match name " ++ quoted opening ++
      " in start comment"
  | .staysOpen name start =>
    "unterminated component " ++ quoted name ++ " (opened at line " ++ toString start ++
      ") at end of document"
  | .closeWithoutComment name =>
    "end comment for rendered slot " ++ quoted name ++ " does not have a comment start"
  | .closeWithComment name =>
    "end comment for comment-only slot " ++ quoted name ++ " has an unexpected comment start"
  | .noSuchShape identifier => "unknown page shape " ++ quoted identifier
  | .slot error => error.message

namespace Component

def plainText (start : Nat) : Component :=
  { start, kind := .plainText }

def kindOf (d : Directive) : ComponentKind :=
  match d.kind with
  | .script => .script d.name
  | .shape => .shapeChoice d.name (d.value.getD "")
  | .slot => .slot d.name (if d.endsComment then .rendered else .commentOnly)

def ofDirective (d : Directive) (start : Nat) : Component :=
  { start, kind := kindOf d }

/-- Adds a line. -/
def push (c : Component) (line : String) : Component :=
  { c with body := { c.body with lines := c.body.lines ++ [line] } }

/-- The component with its text made from its lines. -/
def withText (c : Component) : Component :=
  { c with body := { c.body with text? := some (joinLines c.body.lines) } }

def hasText (c : Component) : Bool :=
  c.body.text?.isSome

/-- The text, empty while the component is open. -/
def text (c : Component) : String :=
  c.body.text?.getD ""

def isPlain (c : Component) : Bool :=
  c.kind == .plainText

def name? (c : Component) : Option String :=
  match c.kind with
  | .plainText => none
  | .script keyword => some keyword
  | .shapeChoice keyword _ => some keyword
  | .slot name _ => some name

def bodyLine (c : Component) : Nat :=
  c.start + 1

/-- What a finished component does to the page. -/
def effect (shapes : ShapeTable) (c : Component) (page : Page) :
    Except ComponentError Page :=
  match c.kind with
  | .plainText => .ok page
  | .script _ => .ok { page with scripts := page.scripts ++ [⟨c.bodyLine, c.text⟩] }
  | .shapeChoice _ identifier =>
    match shapes.get? identifier with
    | some s => .ok { page with slots := page.slots.install s }
    | none => .error (.noSuchShape identifier)
  | .slot name _ =>
    match page.slots.set name c.text with
    | .ok slots => .ok { page with slots }
    | .error e => .error (.slot e)

def closesName (c : Component) (closing : Directive) : Bool :=
  match c.kind with
  | .plainText => false
  | .script _ => closing.kind == .script
  | .shapeChoice _ _ => closing.kind == .shape
  | .slot name _ => closing.addressesSlot && closing.name == name

def checkClosing (c : Component) (closing : Directive) : Except ComponentError Unit :=
  if !c.closesName closing then .error (.closesOther (c.name?.getD "") closing.name)
  else
    match c.kind with
    | .slot name .rendered =>
      if closing.startsComment then .ok () else .error (.closeWithoutComment name)
    | .slot name .commentOnly =>
      if closing.startsComment then .error (.closeWithComment name) else .ok ()
    | _ => .ok ()

/-- Finishes a component without a closing directive: the component with its text, and the page
after it has taken effect. -/
def finish (shapes : ShapeTable) (c : Component) (page : Page) :
    Component × Except ComponentError Page :=
  (c.withText, c.withText.effect shapes page)

/-- Finishes a component by a closing directive. The component has its text also when the directive
does not fit. -/
def closeBy (shapes : ShapeTable) (c : Component) (closing : Directive) (page : Page) :
    Component × Except ComponentError Page :=
  match c.checkClosing closing with
  | .ok _ => c.finish shapes page
  | .error e => (c.withText, .error e)

@[simp] theorem text_withText (c : Component) : c.withText.text = joinLines c.body.lines := rfl

@[simp] theorem hasText_withText (c : Component) : c.withText.hasText = true := rfl

@[simp] theorem kind_push (c : Component) (line : String) : (c.push line).kind = c.kind := rfl

@[simp] theorem start_push (c : Component) (line : String) : (c.push line).start = c.start := rfl

@[simp] theorem kind_withText (c : Component) : c.withText.kind = c.kind := rfl

@[simp] theorem start_withText (c : Component) : c.withText.start = c.start := rfl

end Component

end Pagewright
