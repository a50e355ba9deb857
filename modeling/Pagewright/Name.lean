/-!
# Names in directives

The name in a directive addresses a slot of the page unless it is one of the two keywords, whose
letters count in either case. A slot name is an ASCII identifier that is no keyword. Three slots
describe the source file, and nothing else may write them.
-/

namespace Pagewright

/-- What the name of a directive stands for. -/
inductive NameKind where
  | slot
  | script
  | shape
  deriving DecidableEq, Repr

/-- Equality of texts up to the case of ASCII letters. -/
def sameIgnoringCase (a b : String) : Bool :=
  a.toList.map Char.toLower == b.toList.map Char.toLower

/-- The kind of a name. -/
def NameKind.of (name : String) : NameKind :=
  if sameIgnoringCase name "script" then .script
  else if sameIgnoringCase name "class" then .shape
  else .slot

/-- A character that may start an identifier. -/
def isNameStart (c : Char) : Bool :=
  c == '_' || c.isAlpha

def isNameChar (c : Char) : Bool :=
  c == '_' || c.isAlphanum

def isIdentifier : List Char → Bool
  | [] => false
  | c :: cs => isNameStart c && cs.all isNameChar

/-- A name that a slot may have. -/
def namesSlot (name : String) : Bool :=
  isIdentifier name.toList && NameKind.of name == .slot

def pathSlot : String := "source_path"

def directorySlot : String := "source_dir"

def fileNameSlot : String := "base_file_name"

/-- A slot that describes the source file. -/
def isSourceSlot (slot : String) : Bool :=
  slot == pathSlot || slot == directorySlot || slot == fileNameSlot

/-- Every character that may start an identifier may also continue one. -/
theorem isNameChar_of_isNameStart {c : Char} (h : isNameStart c = true) : isNameChar c = true := by
  simp only [isNameStart, isNameChar, Char.isAlphanum, Bool.or_eq_true] at *
  exact h.imp_right Or.inl

theorem namesSlot_iff {name : String} :
    namesSlot name = true ↔ isIdentifier name.toList = true ∧ NameKind.of name = .slot := by
  simp [namesSlot]

end Pagewright
