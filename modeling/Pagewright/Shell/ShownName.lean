import Pagewright.Shell.Escape

/-!
# Names in complaints

Tools show the names of files so that they could be written in a script: a name with characters that
are special there stands in quotes, and bytes that cannot be shown are written as escapes.
-/

namespace Pagewright.Shell

namespace ShownName

/-- The letter or the octal digits behind the backslash of a character that cannot be shown. -/
def escape? (c : Char) : Option (List Char) :=
  let letters := [('\x07', 'a'), ('\x08', 'b'), ('\x0c', 'f'), ('\n', 'n'), ('\r', 'r'),
    ('\t', 't'), ('\x0b', 'v')]
  match letters.find? (·.1 == c) with
  | some (_, letter) => some [letter]
  | none =>
    if ' ' ≤ c && c ≤ '~' then none
    else
      let digits := Nat.toDigits 8 c.toNat
      some (List.replicate (3 - digits.length) '0' ++ digits)

def isSpecial (c : Char) : Bool :=
  " !\"$&'()*;<=>?[\\^\x60|".toList.contains c || (escape? c).isSome

/-- Whether a name can stand without quotes, also in front of a colon. -/
def isPlain (cs : List Char) : Bool :=
  !cs.isEmpty && !cs.contains ':' && cs != ['\x7b'] && cs != ['\x7d'] &&
    cs.head? != some '#' && cs.head? != some '~' && !cs.any isSpecial

def fitsDouble (cs : List Char) : Bool :=
  cs.contains '\'' && cs.all fun c =>
    c == ' ' || c == '\'' || !(isSpecial c || ['\x7b', '\x7d', '#', '~'].contains c)

/-- The inside of single quotes; `escaping` says that an escape has just been written. -/
def inside : (escaping : Bool) → List Char → List Char
  | _, [] => []
  | escaping, c :: cs =>
    match escape? c with
    | some text => (if escaping then [] else "'$'".toList) ++ '\\' :: text ++ inside true cs
    | none =>
      if c = '\'' then "'\\''".toList ++ inside false cs
      else (if escaping then "''".toList else []) ++ c :: inside false cs

end ShownName

def quotedName (s : String) : String :=
  let cs := s.toList
  if ShownName.fitsDouble cs then "\"" ++ s ++ "\""
  else "'" ++ String.ofList (ShownName.inside false cs) ++ "'"

/-- An argument in quotes, with escapes like those of a text in a program. -/
def citedName (s : String) : String :=
  let cite (c : Char) : List Char :=
    match ShownName.escape? c with
    | some text => '\\' :: text
    | none => if c = '\'' || c = '\\' then ['\\', c] else [c]
  "'" ++ String.ofList (s.toList.flatMap cite) ++ "'"

def shownName (s : String) : String :=
  if ShownName.isPlain s.toList then s else quotedName s

end Pagewright.Shell
