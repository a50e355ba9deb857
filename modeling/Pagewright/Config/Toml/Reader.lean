import Pagewright.Config.Toml.Tree

/-!
# Reading TOML

`parse?` gives the members that a TOML text writes. The text is a list of lines: blank ones, headers
and assignments, each with a comment after it or without. The readers here take what they read from
the front of the text and give it together with the rest. Lists and inline tables nest at most 79
deep, and a dotted key has at most 79 names.
-/

namespace Pagewright.Config.Toml

/-- The greatest depth of nesting, and the greatest number of names in a key. -/
def nestingLimit : Nat := 79

def isBlank (c : Char) : Bool :=
  c == ' ' || c == '\t'

def skipBlanks (cs : List Char) : List Char :=
  cs.dropWhile isBlank

/-- A character that may stand in a comment, a string or a line: no control character but the
tab. -/
def isPrintable (c : Char) : Bool :=
  c == '\t' || (' ' ≤ c && c != '\x7f')

def skipComment : List Char → List Char
  | '#' :: cs => cs.dropWhile isPrintable
  | cs => cs

/-- The text after the end of a line, which may be that of the text. -/
def skipLineEnd? : List Char → Option (List Char)
  | [] => some []
  | '\n' :: cs => some cs
  | '\r' :: '\n' :: cs => some cs
  | _ => none

/-- The text after what may stand between the items of a list: blanks, line ends and comments. -/
def skipBetween : (fuel : Nat) → List Char → List Char
  | 0, cs => cs
  | fuel + 1, cs =>
    match skipBlanks cs with
    | '#' :: cs => skipBetween fuel (cs.dropWhile isPrintable)
    | '\n' :: cs => skipBetween fuel cs
    | '\r' :: '\n' :: cs => skipBetween fuel cs
    | cs => cs

def letterEscape? : Char → Option Char
  | 'b' => some '\x08'
  | 't' => some '\t'
  | 'n' => some '\n'
  | 'f' => some '\x0c'
  | 'r' => some '\r'
  | '"' => some '"'
  | '\\' => some '\\'
  | _ => none

def hexEscape? (ds : List Char) : Option Char :=
  if ds.all isHexDigit ∧ (number 16 ds).isValidChar then some (Char.ofNat (number 16 ds)) else none

def readEscape? : List Char → Option (Char × List Char)
  | 'u' :: a :: b :: c :: d :: cs => (hexEscape? [a, b, c, d]).map (·, cs)
  | 'U' :: a :: b :: c :: d :: e :: f :: g :: h :: cs =>
    (hexEscape? [a, b, c, d, e, f, g, h]).map (·, cs)
  | c :: cs => (letterEscape? c).map (·, cs)
  | [] => none

/-- Puts a character before what a reader of the rest gives. -/
def consRead (c : Char) (r : Option (List Char × List Char)) : Option (List Char × List Char) :=
  r.map fun (cs, rest) => (c :: cs, rest)

def readBasic : (fuel : Nat) → List Char → Option (List Char × List Char)
  | 0, _ => none
  | _ + 1, [] => none
  | _ + 1, '"' :: cs => some ([], cs)
  | fuel + 1, '\\' :: cs =>
    match readEscape? cs with
    | some (c, cs) => consRead c (readBasic fuel cs)
    | none => none
  | fuel + 1, c :: cs => if isPrintable c then consRead c (readBasic fuel cs) else none

def readLiteral : List Char → Option (List Char × List Char)
  | [] => none
  | '\'' :: cs => some ([], cs)
  | c :: cs => if isPrintable c then consRead c (readLiteral cs) else none

/-- What ends a string of several lines: three quotes, of which up to two more in front belong to
the string. -/
def closing? (quote : Char) : List Char → Option (List Char × List Char)
  | a :: b :: c :: cs =>
    if a = quote ∧ b = quote ∧ c = quote then
      let more := (cs.takeWhile (· == quote)).take 2
      some (more, cs.drop more.length)
    else none
  | _ => none

def skipLines : List Char → List Char
  | '\n' :: cs => skipLines cs
  | '\r' :: '\n' :: cs => skipLines cs
  | c :: cs => if isBlank c then skipLines cs else c :: cs
  | [] => []

/-- The text after the white space that a backslash at the end of a line takes with it. -/
def skipFolded? (cs : List Char) : Option (List Char) :=
  match skipBlanks cs with
  | '\n' :: cs => some (skipLines cs)
  | '\r' :: '\n' :: cs => some (skipLines cs)
  | _ => none

/-- Reads a string of several lines after its opening quotes. Each line end counts as a line
feed. -/
def readLong (quote : Char) (escapes : Bool) : (fuel : Nat) → List Char →
    Option (List Char × List Char)
  | 0, _ => none
  | _ + 1, [] => none
  | fuel + 1, c :: cs =>
    match closing? quote (c :: cs) with
    | some r => some r
    | none =>
      if escapes ∧ c = '\\' then
        match skipFolded? cs with
        | some cs => readLong quote escapes fuel cs
        | none =>
          match readEscape? cs with
          | some (c, cs) => consRead c (readLong quote escapes fuel cs)
          | none => none
      else if c = '\r' then
        match cs with
        | '\n' :: cs => consRead '\n' (readLong quote escapes fuel cs)
        | _ => none
      else if c = '\n' ∨ isPrintable c then consRead c (readLong quote escapes fuel cs)
      else none

/-- The text after a line end that directly follows opening quotes. -/
def dropFirstLineEnd : List Char → List Char
  | '\n' :: cs => cs
  | '\r' :: '\n' :: cs => cs
  | cs => cs

def readShortString (cs : List Char) : Option (String × List Char) :=
  let r := match cs with
    | '"' :: cs => readBasic (cs.length + 1) cs
    | '\'' :: cs => readLiteral cs
    | _ => none
  r.map fun (s, cs) => (String.ofList s, cs)

def readString (cs : List Char) : Option (String × List Char) :=
  match cs with
  | '"' :: '"' :: '"' :: cs => long '"' true cs
  | '\'' :: '\'' :: '\'' :: cs => long '\'' false cs
  | cs => readShortString cs
where
  long (quote : Char) (escapes : Bool) (cs : List Char) : Option (String × List Char) :=
    (readLong quote escapes (cs.length + 1) (dropFirstLineEnd cs)).map fun (s, cs) =>
      (String.ofList s, cs)

def isBareChar (c : Char) : Bool :=
  c.isAlphanum || c == '_' || c == '-'

def readName (cs : List Char) : Option (String × List Char) :=
  match cs with
  | '"' :: _ => readShortString cs
  | '\'' :: _ => readShortString cs
  | cs =>
    match cs.takeWhile isBareChar with
    | [] => none
    | name => some (String.ofList name, cs.dropWhile isBareChar)

/-- Reads a key of at most `count` names and the blanks around it. -/
def readKey : (count : Nat) → List Char → Option (List String × List Char)
  | 0, _ => none
  | count + 1, cs => do
    let (name, cs) ← readName (skipBlanks cs)
    match skipBlanks cs with
    | '.' :: cs =>
      let (names, cs) ← readKey count cs
      return (name :: names, cs)
    | cs => return ([name], cs)

def isTokenChar (c : Char) : Bool :=
  c.isAlphanum || c == '_' || c == '-' || c == '+' || c == '.' || c == ':'

/-- Reads a bare token. A blank may stand between a date and a time. -/
def readToken (cs : List Char) : Option (Entry × List Char) :=
  let token := cs.takeWhile isTokenChar
  let rest := cs.dropWhile isTokenChar
  let withTime := match splitDate? token, rest with
    | some (_, []), ' ' :: rest => ofToken? (token ++ ' ' :: rest.takeWhile isTokenChar)
    | _, _ => none
  match withTime with
  | some v => some (.scalar v, (rest.drop 1).dropWhile isTokenChar)
  | none => (ofToken? token).map fun v => (.scalar v, rest)

/-- Reads items and the closing bracket after them. A comma may follow the last item. -/
def readItems (readItem : List Char → Option (Entry × List Char)) : (fuel : Nat) → List Char →
    Option (List Entry × List Char)
  | 0, _ => none
  | fuel + 1, cs =>
    match skipBetween cs.length cs with
    | ']' :: cs => some ([], cs)
    | cs => do
      let (v, cs) ← readItem cs
      match skipBetween cs.length cs with
      | ']' :: cs => return ([v], cs)
      | ',' :: cs =>
        let (vs, cs) ← readItems readItem fuel cs
        return (v :: vs, cs)
      | _ => none

def readAssignment (readItem : List Char → Option (Entry × List Char)) (cs : List Char) :
    Option ((List String × Entry) × List Char) := do
  let (key, cs) ← readKey nestingLimit cs
  match cs with
  | '=' :: cs =>
    let (v, cs) ← readItem (skipBlanks cs)
    return ((key, v), cs)
  | _ => none

def readInline (readItem : List Char → Option (Entry × List Char)) : (fuel : Nat) → List Char →
    Option (List (List String × Entry) × List Char)
  | 0, _ => none
  | fuel + 1, cs => do
    let (a, cs) ← readAssignment readItem cs
    match skipBlanks cs with
    | '\x7d' :: cs => return ([a], cs)
    | ',' :: cs =>
      let (rest, cs) ← readInline readItem fuel cs
      return (a :: rest, cs)
    | _ => none

/-- Reads a value that nests at most `depth` deep. -/
def readValue : (depth : Nat) → List Char → Option (Entry × List Char)
  | _, '"' :: cs => readText ('"' :: cs)
  | _, '\'' :: cs => readText ('\'' :: cs)
  | 0, '[' :: _ => none
  | depth + 1, '[' :: cs => do
    let (vs, cs) ← readItems (readValue depth) (cs.length + 1) cs
    return (.list vs, cs)
  | 0, '\x7b' :: _ => none
  | depth + 1, '\x7b' :: cs =>
    match skipBlanks cs with
    | '\x7d' :: cs => some (.inline [], cs)
    | cs => do
      let (assignments, cs) ← readInline (readValue depth) (cs.length + 1) cs
      return (← inlineTable? assignments, cs)
  | _, cs => readToken cs
where
  readText (cs : List Char) : Option (Entry × List Char) :=
    (readString cs).map fun (s, cs) => (.string s, cs)

def readHeader (cs : List Char) : Option (Statement × List Char) :=
  match cs with
  | '[' :: cs => do
    let (key, cs) ← readKey nestingLimit cs
    match cs with
    | ']' :: ']' :: cs => return (.addTable key, cs)
    | _ => none
  | cs => do
    let (key, cs) ← readKey nestingLimit cs
    match cs with
    | ']' :: cs => return (.openTable key, cs)
    | _ => none

def readStatement (cs : List Char) : Option (Statement × List Char) :=
  match cs with
  | '[' :: cs => readHeader cs
  | cs => (readAssignment (readValue nestingLimit) cs).map fun ((key, v), cs) => (.assign key v, cs)

def readLines : (fuel : Nat) → List Char → Option (List Statement)
  | 0, _ => none
  | fuel + 1, cs =>
    match skipBlanks cs with
    | [] => some []
    | '#' :: cs => do readLines fuel (← skipLineEnd? (skipComment ('#' :: cs)))
    | '\n' :: cs => readLines fuel cs
    | '\r' :: cs => do readLines fuel (← skipLineEnd? ('\r' :: cs))
    | cs => do
      let (s, cs) ← readStatement cs
      return s :: (← readLines fuel (← skipLineEnd? (skipComment (skipBlanks cs))))

/-- The members that a text writes. A byte order mark may stand in front. -/
def parse? (s : String) : Option (List (String × Value)) :=
  let cs := match s.toList with
    | '\uFEFF' :: cs => cs
    | cs => cs
  (readLines (cs.length + 1) cs).bind build?

end Pagewright.Config.Toml
