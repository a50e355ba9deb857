import Pagewright.Text.Utf8

/-!
# Lines of input

What the command `read` takes from its input. `InputLine.take` cuts off a line; a backslash keeps
the byte behind it from separating anything, and joins two lines when it ends the first.
`InputLine.fields` splits the line into at most a given number of fields, of which the last one
takes all that is left: without its separator when it is the only thing left, and without white
space at the end in any case.
-/

namespace Pagewright.Shell

open Text

namespace InputLine

inductive Item where
  | plain (b : UInt8)
  | guarded (b : UInt8)
  /-- Two lines are joined here. -/
  | joint
  deriving DecidableEq, Repr

end InputLine

structure InputLine where
  items : List InputLine.Item
  rest : Bytes
  /-- The line has an end, and not the input alone. -/
  isWhole : Bool
  deriving DecidableEq, Repr

namespace InputLine

def cons (i : Item) (line : InputLine) : InputLine :=
  { line with items := i :: line.items }

/-- Cuts off the first line of an input; `raw` says that backslashes are like other bytes, `behind`
that one has just been read. Null bytes are left out. -/
def take (raw : Bool) : (behind : Bool) → Bytes → InputLine
  | _, [] => { items := [], rest := [], isWhole := false }
  | behind, b :: bs =>
    if b = 0 then take raw behind bs
    else if behind then cons (if b = 0x0A then .joint else .guarded b) (take raw false bs)
    else if b = 0x5C ∧ !raw then take raw true bs
    else if b = 0x0A then { items := [], rest := bs, isWhole := true }
    else cons (.plain b) (take raw false bs)

structure Split where
  /-- How many fields may still be ended. -/
  left : Nat
  /-- The fields that are ended, the last one first. -/
  done : List Bytes := []
  field : Bytes := []
  /-- White space has just ended a field, or the one before the last. -/
  spaced : Bool := false
  /-- How much of the last field counts unless more than white space follows. -/
  kept : Option Nat := none
  deriving DecidableEq, Repr

namespace Split

def isSpace (b : UInt8) : Bool :=
  b == 0x20 || b == 0x09 || b == 0x0A

def plain (separators : Bytes) (s : Split) (b : UInt8) : Split :=
  let ends := separators.contains b
  let blank := ends && isSpace b
  if s.left = 0 then
    if blank then { s with field := b :: s.field, kept := s.kept.or (some s.field.length) }
    else
      { s with
        field := b :: s.field
        kept := if ends && s.spaced then s.kept else none
        spaced := false }
  else if s.spaced && ends then { s with spaced := blank }
  else if !ends then { s with field := b :: s.field, spaced := false }
  else if blank && s.field.isEmpty then s
  else if s.left = 1 then
    { s with left := 0, field := b :: s.field, spaced := blank, kept := some s.field.length }
  else
    { s with left := s.left - 1, done := s.field.reverse :: s.done, field := [], spaced := blank }

def step (separators : Bytes) (s : Split) : Item → Split
  | .plain b => s.plain separators b
  | .guarded b => { s with field := b :: s.field, spaced := false }
  | .joint => { s with spaced := false }

/-- The fields when the line is over. An empty one at the end is none. -/
def fields (s : Split) : List Bytes :=
  let last := s.field.reverse.take (s.kept.getD s.field.length)
  s.done.reverse ++ (if last.isEmpty then [] else [last])

end Split

/-- The fields of a line, `count` at most. -/
def fields (separators : Bytes) (count : Nat) (items : List Item) : List Bytes :=
  (items.foldl (Split.step separators) { left := count }).fields

end InputLine

end Pagewright.Shell
