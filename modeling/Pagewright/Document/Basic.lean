import Pagewright.Directive.Rules
import Pagewright.Document.Component

/-!
# Documents

`Document.parse` reads a document line by line. Between two lines there is a `Draft`: the components
that are finished, the one that is open, if any, and the page. Plain lines go to the open component,
or start a plain-text one. A directive first finishes open plain text; then it closes the open
component, or opens one, which is finished at once when the directive ends it too. A document
must not end inside a component, plain text apart. The first error ends the reading.
-/

namespace Pagewright

open Text

/-- What is wrong in a document. -/
inductive DocumentFault where
  | directive (violation : Directive.Violation)
  | component (error : ComponentError)
  deriving DecidableEq, Repr

def DocumentFault.message : DocumentFault → String
  | .directive violation => violation.message
  | .component error => error.message

/-- A fault and its place. -/
structure DocumentError where
  /-- The number of the line, or of lines when the fault is found at the end. -/
  number : Nat
  /-- The line, `none` at the end of the document. -/
  line : Option String
  fault : DocumentFault
  deriving DecidableEq, Repr

def DocumentError.message (e : DocumentError) : String :=
  match e.line with
  | some line =>
    "error parsing line " ++ toString e.number ++ " " ++ quoted line ++ ": " ++
      e.fault.message
  | none => "error at end of document: " ++ e.fault.message

structure Document where
  path : Path
  components : List Component
  page : Page

/-- What has been read of a document. -/
structure Draft where
  finished : List Component := []
  current : Option Component := none
  page : Page

namespace Draft

/-- Nothing read: the page of a source path in its default shape. -/
def empty (shapes : ShapeTable) (path : Path) : Draft :=
  { page := { slots := .new shapes.default path } }

def addText (d : Draft) (number : Nat) (line : String) : Draft :=
  let c := d.current.getD (.plainText number)
  { d with current := some (c.push line) }

/-- Finishes plain text that is open; it has no effect on the page. -/
def settle (d : Draft) : Draft :=
  match d.current with
  | some c =>
    if c.isPlain then { d with finished := d.finished ++ [c.withText], current := none } else d
  | none => d

/-- Takes a directive when no plain text is open. -/
def addSettled (shapes : ShapeTable) (d : Draft) (number : Nat) (dir : Directive) :
    Except ComponentError Draft :=
  match d.current with
  | some c =>
    if dir.startsSection then .error (.opensInside dir.text)
    else
      match c.closeBy shapes dir d.page with
      | (c, .ok page) => .ok { finished := d.finished ++ [c], current := none, page }
      | (_, .error e) => .error e
  | none =>
    if !dir.startsSection then .error (.closesNothing dir.text)
    else
      let c := Component.ofDirective dir number
      if dir.isOneLine then
        match c.finish shapes d.page with
        | (c, .ok page) => .ok { finished := d.finished ++ [c], current := none, page }
        | (_, .error e) => .error e
      else .ok { d with current := some c }

/-- Takes a directive. -/
def addDirective (shapes : ShapeTable) (d : Draft) (number : Nat) (dir : Directive) :
    Except ComponentError Draft :=
  addSettled shapes d.settle number dir

def addLine (shapes : ShapeTable) (d : Draft) (number : Nat) (line : String) :
    Except DocumentError Draft :=
  match Directive.ofLine line with
  | .error v => .error ⟨number, some line, .directive v⟩
  | .ok none => .ok (d.addText number line)
  | .ok (some dir) =>
    match d.addDirective shapes number dir with
    | .ok d => .ok d
    | .error e => .error ⟨number, some line, .component e⟩

/-- Takes lines, the first of which has the given number. -/
def addLines (shapes : ShapeTable) (d : Draft) (number : Nat) :
    List String → Except DocumentError Draft
  | [] => .ok d
  | line :: rest =>
    match d.addLine shapes number line with
    | .ok d => d.addLines shapes (number + 1) rest
    | .error e => .error e

/-- The document when there are no more lines; `count` lines were read. -/
def toDocument (d : Draft) (path : Path) (count : Nat) : Except DocumentError Document :=
  match d.settle.current with
  | some c =>
    .error ⟨count, none, .component (.staysOpen (c.name?.getD "") c.start)⟩
  | none => .ok { path, components := d.settle.finished, page := d.page }

end Draft

namespace Document

def ofLines (shapes : ShapeTable) (path : Path) (lines : List String) :
    Except DocumentError Document :=
  match (Draft.empty shapes path).addLines shapes 1 lines with
  | .ok d => d.toDocument path lines.length
  | .error e => .error e

def parse (shapes : ShapeTable) (path : Path) (source : String) :
    Except DocumentError Document :=
  ofLines shapes path (lines source)

def scripts (doc : Document) : List PendingScript :=
  doc.page.scripts

def slots (doc : Document) : PageSlots :=
  doc.page.slots

/-- The document with other slot values. -/
def withSlots (doc : Document) (ps : PageSlots) : Document :=
  { doc with page := { doc.page with slots := ps } }

end Document

end Pagewright
