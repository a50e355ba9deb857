import Pagewright.Name

/-!
# Directives

A directive is a comment line with a name in it. Square brackets say where a section begins and
ends, and the comment goes on over the lines between when it is not closed:

| line                     | meaning                                                   |
|--------------------------|-----------------------------------------------------------|
| `<!-- [headline] -->`    | the value of a slot stands here                           |
| `<!-- [headline -->`     | a rendered slot begins, up to `<!-- headline] -->`        |
| `<!-- [notes`            | a slot inside a comment begins, up to `notes] -->`        |
| `<!-- [script`           | a script begins, up to `script] -->`                      |
| `<!-- [class Story] -->` | the page takes the shape `Story`                          |

`Directive` holds what is on the line; `Directive.text` writes it in its normal spacing.
-/

namespace Pagewright

/-- The markers, the name and the argument of one line. -/
structure Directive where
  startsComment : Bool := false
  endsComment : Bool := false
  startsSection : Bool := false
  endsSection : Bool := false
  /-- The name addresses a slot. -/
  addressesSlot : Bool
  name : String
  /-- The word after the name, if there is one. -/
  value : Option String := none
  deriving DecidableEq, Repr

namespace Directive

def kind (d : Directive) : NameKind :=
  NameKind.of d.name

/-- A line is a directive when it has a marker of a comment and one of a section. -/
def isMarked (d : Directive) : Bool :=
  (d.startsComment || d.endsComment) && (d.startsSection || d.endsSection)

def isOneLine (d : Directive) : Bool :=
  d.startsSection && d.endsSection

/-- A directive in its normal spacing. -/
def text (d : Directive) : String :=
  (if d.startsComment then "<!-- " else "") ++
    (if d.startsSection then "[" else "") ++
    d.name ++
    (match d.value with
    | some v => " " ++ v
    | none => "") ++
    (if d.endsSection then "]" else "") ++
    (if d.endsComment then " -->" else "")

end Directive

end Pagewright
