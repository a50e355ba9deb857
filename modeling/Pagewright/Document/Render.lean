import Pagewright.Document.Basic

/-!
# Rendering

The source rendering writes every directive back in its normal form, so that it can be read again;
the published one keeps what a visitor sees. The text of a slot is the value that the page has for
it now, not the text that stood in the document: this is how scripts reach the output.
-/

namespace Pagewright

/-- What a rendering keeps. -/
inductive Rendition where
  /-- Every directive, ready to be read again. -/
  | source
  /-- Nothing but what a visitor of the page sees. -/
  | published
  deriving DecidableEq, Repr

/-- The source rendering of a component whose slot, if it is one, has `value`. -/
def ComponentKind.sourceText (text value : String) : ComponentKind → String
  | .plainText => text ++ "\n"
  | .script keyword => "<!-- [" ++ keyword ++ "\n" ++ text ++ "\n" ++ keyword ++ "] -->\n"
  | .shapeChoice keyword identifier => "<!-- [" ++ keyword ++ " " ++ identifier ++ "] -->\n"
  | .slot name .rendered =>
    if value = "" then "<!-- [" ++ name ++ "] -->\n"
    else "<!-- [" ++ name ++ " -->\n" ++ value ++ "\n<!-- " ++ name ++ "] -->\n"
  | .slot name .commentOnly => "<!-- [" ++ name ++ "\n" ++ value ++ "\n" ++ name ++ "] -->\n"

/-- The published rendering of a component whose slot, if it is one, has `value`. -/
def ComponentKind.publishedText (text value : String) : ComponentKind → String
  | .plainText => text ++ "\n"
  | .slot _ .rendered => if value = "" then "" else value ++ "\n"
  | _ => ""

namespace Component

/-- The value that a page has for the slot of a component, empty when it has none. -/
def slotValue (c : Component) (ps : PageSlots) : String :=
  match c.kind with
  | .slot name _ => ps.value name
  | _ => ""

def render (c : Component) (ps : PageSlots) : Rendition → String
  | .source => c.kind.sourceText c.text (c.slotValue ps)
  | .published => c.kind.publishedText c.text (c.slotValue ps)

end Component

def renderComponents (cs : List Component) (ps : PageSlots) (mode : Rendition) : String :=
  String.join (cs.map (·.render ps mode))

def Document.render (doc : Document) (mode : Rendition) : String :=
  renderComponents doc.components doc.slots mode

end Pagewright
