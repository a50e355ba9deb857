import Pagewright.Shell.Command

/-!
# Reading scripts

`readLine` reads the commands of one line of a script, with as many lines after it as the commands
need; a script is read and carried out line by line. The text of a here-document stands behind the
line with its mark, so it is known only after the command that it belongs to. The commands are
therefore read twice when there is such a text: once to find it, and once more to put it in its
place. At the start of a command the texts of aliases take the place of their names, and are read as
if they stood in the script.
-/

namespace Pagewright.Shell

/-- The line that a here-document ends at. -/
structure HereMark where
  text : List Char
  /-- Tabs in front of a line are left out. -/
  dropsTabs : Bool
  /-- Nothing is expanded in the text. -/
  isQuoted : Bool

structure Source where
  rest : List Char
  /-- The number of the line that the rest starts in. -/
  line : Nat := 1
  /-- How many here-documents there have been. -/
  count : Nat := 0
  /-- The numbers and marks of the here-documents whose texts start in the next line. -/
  waiting : List (Nat × HereMark) := []
  texts : List (Nat × List Piece) := []
  mark? : Option HereMark := none
  /-- How much of the script was left behind the last redirections of a compound command. -/
  redirected : Option Nat := none
  aliases : List (String × String) := []
  /-- The names whose texts are being read, and how much of the script is left after each. -/
  within : List (String × Nat) := []

/-- Why a script cannot be read, and the line where this shows. -/
structure ScriptFault where
  line : Nat
  message : String

abbrev Reader := StateT Source (Except ScriptFault)

namespace Reader

def refuse {α : Type} (message : String) : Reader α := do
  throw ⟨(← get).line, message⟩

def rest : Reader (List Char) :=
  return (← get).rest

def moveTo (cs : List Char) : Reader Unit :=
  modify fun s => { s with rest := cs }

def moveToLine (cs : List Char) : Reader Unit :=
  modify fun s => { s with rest := cs, line := s.line + 1 }

def moveAcross (text cs : List Char) : Reader Unit :=
  modify fun s => { s with rest := cs, line := s.line + text.count '\n' }

def isBreak (c : Char) : Bool :=
  c == ' ' || c == '\t' || c == '\n' || c == ';' || c == '&' || c == '|' || c == '<' || c == '>' ||
    c == '(' || c == ')'

/-- A character that a plain run of a word goes up to. -/
def isSpecial (c : Char) : Bool :=
  isBreak c || c == '\\' || c == '\'' || c == '"' || c == '$' || c == '\x60'

def isSpecialQuoted (c : Char) : Bool :=
  c == '\\' || c == '"' || c == '$' || c == '\x60'

/-- A parameter that is no name. -/
def isSpecialParameter (c : Char) : Bool :=
  c == '@' || c == '*' || c == '#' || c == '?' || c == '-' || c == '$' || c == '!'

/-- Drops blanks, joined lines and comments; `fuel` bounds their number. -/
def skipBlanks : (fuel : Nat) → Reader Unit
  | 0 => return ()
  | fuel + 1 => do
    match ← rest with
    | ' ' :: cs => moveTo cs; skipBlanks fuel
    | '\t' :: cs => moveTo cs; skipBlanks fuel
    | '\\' :: '\n' :: cs => moveToLine cs; skipBlanks fuel
    | '#' :: cs => moveTo (cs.dropWhile (· != '\n'))
    | _ => return ()

def tokenText : List Char → String
  | [] => "end of file"
  | '\n' :: _ => "newline"
  | ';' :: ';' :: _ => "\";;\""
  | '&' :: '&' :: _ => "\"&&\""
  | '|' :: '|' :: _ => "\"||\""
  | c :: cs =>
    let token := if isBreak c then [c] else c :: cs.takeWhile fun c => !isSpecial c
    "\"" ++ String.ofList token ++ "\""

def closingWords : List String :=
  ["then", "else", "elif", "fi", "do", "done", "esac", "\x7d"]

/-- The unquoted word that starts here, when it is plain. -/
def plainWord (cs : List Char) : Option (String × List Char) :=
  let word := cs.takeWhile fun c => !isSpecial c
  match cs.dropWhile fun c => !isSpecial c with
  | [] => some (String.ofList word, [])
  | c :: rest => if isBreak c then some (String.ofList word, c :: rest) else none

/-- Puts the text of an alias in the place of its name when that stands here, and again for the word
that comes to stand here; `fuel` bounds the number of texts. In its own text a name stands for
itself. -/
def putAliases : (fuel : Nat) → Reader Unit
  | 0 => return ()
  | fuel + 1 => do
    let s ← get
    if !s.aliases.isEmpty then
      let left := s.rest.length
      let within := s.within.filter (·.2 < left)
      set { s with within }
      if let some (word, after) := plainWord s.rest then
        let isFree := !keywords.contains word && !within.any (·.1 == word)
        if let some (name, text) := s.aliases.find? fun a => isFree && a.1 == word then
          let within := (name, after.length) :: within
          set { s with rest := text.toList ++ after, within }
          skipBlanks (text.length + left)
          putAliases fuel

/-- Puts the text of an alias in the place of its name when the text of another alias that ends in a
blank goes up to here. -/
def putMoreAliases (fuel : Nat) : Reader Unit := do
  let s ← get
  if !s.within.isEmpty then
    let left := s.rest.length
    let ended := s.within.filter (left ≤ ·.2)
    let endsInBlank (name : String) : Bool :=
      s.aliases.any fun (n, text) => n == name && (text.endsWith " " || text.endsWith "\t")
    set { s with within := s.within.filter (·.2 < left) }
    if ended.any fun (name, _) => endsInBlank name then putAliases fuel

def atWord (word : String) (cs : List Char) : Bool :=
  match plainWord cs with
  | some (w, _) => w == word
  | none => false

/-- The digit of a stream in front of a redirection, if one starts here, and what follows it. -/
def streamDigit? : List Char → Option (Option Nat × List Char)
  | '<' :: cs => some (none, '<' :: cs)
  | '>' :: cs => some (none, '>' :: cs)
  | c :: '<' :: cs => if c.isDigit then some (some (c.toNat - '0'.toNat), '<' :: cs) else none
  | c :: '>' :: cs => if c.isDigit then some (some (c.toNat - '0'.toNat), '>' :: cs) else none
  | _ => none

/-- Whether reserved words are known here: they are words like others right behind the redirections
of a compound command. -/
def knowsReserved : Reader Bool := do
  let s ← get
  return s.redirected != some s.rest.length

/-- Refuses what stands here; `expecting` is the token that should stand here, and `asCommand` says
that reserved words are known here. A line feed counts as read, so the fault shows in the next line.
So does a word, by `readWord`: the fault shows in the line where it ends. -/
def unexpectedToken {α : Type} (readWord : Reader Word) (asCommand : Bool) (expecting : String) :
    Reader α := do
  let cs ← rest
  let token := if expecting = "word" then expecting else "\"" ++ expecting ++ "\""
  let note := if expecting.isEmpty then "" else " (expecting " ++ token ++ ")"
  if cs.head? == some '\n' then modify fun s => { s with line := s.line + 1 }
  let isReserved := asCommand && (← knowsReserved) && keywords.any fun w => atWord w cs
  let isWord := cs.head?.any fun c => !isBreak c && !isReserved
  if (streamDigit? cs).isSome then
    refuse ("Syntax error: redirection unexpected" ++ note)
  else if isWord then do
    let _ ← readWord
    refuse ("Syntax error: word unexpected" ++ note)
  else
    refuse ("Syntax error: " ++ tokenText cs ++ " unexpected" ++ note)

def unexpected {α : Type} (readWord : Reader Word) (expecting : String) : Reader α :=
  unexpectedToken readWord true expecting

abbrev MarkText := Option (List Char × Bool × List Char)

def MarkText.cons (cs : List Char) (isQuoted : Bool) (m : MarkText) : MarkText :=
  m.map fun (text, quotedToo, rest) => (cs ++ text, isQuoted || quotedToo, rest)

/-- The mark of a here-document; `quote` is the quote that is open. There is no mark when the quote
stays open. -/
def markText (quote : Option Char) : List Char → MarkText
  | [] => if quote.isNone then some ([], false, []) else none
  | [c] =>
    match quote with
    | none => if isBreak c then some ([], false, [c]) else some ([c], false, [])
    | some q => if c == q then some ([], true, []) else none
  | c :: d :: cs =>
    let escapes : Bool := d == '"' || d == '\\' || d == '$' || d == '\x60'
    match quote with
    | none =>
      if isBreak c then some ([], false, c :: d :: cs)
      else if c == '\\' then (markText none cs).cons [d] true
      else if c == '"' || c == '\'' then (markText (some c) (d :: cs)).cons [] true
      else (markText none (d :: cs)).cons [c] false
    | some q =>
      if c == q then (markText none (d :: cs)).cons [] true
      else if c == '\\' && q == '"' then
        (markText quote cs).cons (if escapes then [d] else [c, d]) true
      else (markText quote (d :: cs)).cons [c] true

/-- A text whose lines stand as they are, up to its mark. -/
def takeLines (mark : HereMark) : (fuel : Nat) → Reader (List Char)
  | 0 => return []
  | fuel + 1 => do
    match ← rest with
    | [] => return []
    | cs =>
      let line := cs.takeWhile (· != '\n')
      let after := (cs.dropWhile (· != '\n')).drop 1
      let line := if mark.dropsTabs then line.dropWhile (· == '\t') else line
      moveToLine after
      if line = mark.text then return []
      return line ++ '\n' :: (← takeLines mark fuel)

/-- Starts a line of the text of a here-document, and tells whether the text ends here. -/
def startLine : Reader Bool := do
  let s ← get
  let some mark := s.mark? | return false
  let cs := if mark.dropsTabs then s.rest.dropWhile (· == '\t') else s.rest
  moveTo cs
  let isMark := !cs.isEmpty && cs.takeWhile (· != '\n') = mark.text
  if isMark then moveToLine ((cs.dropWhile (· != '\n')).drop 1)
  return isMark

/-- The text between backquotes, its escapes undone, and what follows; double quotes around it have
an escape of their own. -/
def backquoted (quoted : Bool) : List Char → Option (List Char × List Char)
  | [] => none
  | '\x60' :: cs => some ([], cs)
  | '\\' :: c :: cs =>
    (backquoted quoted cs).map fun (text, rest) =>
      if c == '$' || c == '\x60' || c == '\\' || (quoted && c == '"') then (c :: text, rest)
      else ('\\' :: c :: text, rest)
  | c :: cs => (backquoted quoted cs).map fun (text, rest) => (c :: text, rest)

/-- The change that a parameter's operator stands for, and the text after it. -/
def readChange : List Char → Option (Change × Bool × List Char)
  | ':' :: '-' :: cs => some (.orElse, true, cs)
  | ':' :: '=' :: cs => some (.assignElse, true, cs)
  | ':' :: '+' :: cs => some (.insteadOf, true, cs)
  | ':' :: '?' :: cs => some (.demand, true, cs)
  | '-' :: cs => some (.orElse, false, cs)
  | '=' :: cs => some (.assignElse, false, cs)
  | '+' :: cs => some (.insteadOf, false, cs)
  | '?' :: cs => some (.demand, false, cs)
  | '#' :: '#' :: cs => some (.dropFront true, false, cs)
  | '#' :: cs => some (.dropFront false, false, cs)
  | '%' :: '%' :: cs => some (.dropBack true, false, cs)
  | '%' :: cs => some (.dropBack false, false, cs)
  | _ => none

def parameterName : List Char → Option (String × List Char)
  | [] => none
  | c :: cs =>
    if isNameStart c then
      some (String.ofList (c :: cs.takeWhile isNameChar), cs.dropWhile isNameChar)
    else if c.isDigit || isSpecialParameter c then some (String.singleton c, cs)
    else none

def bracedName (cs : List Char) : Option (String × List Char) :=
  match cs.takeWhile Char.isDigit with
  | [] => parameterName cs
  | ds => some (String.ofList ds, cs.dropWhile Char.isDigit)

/-- What quotes the pieces of a parameter between braces. -/
inductive Quoting where
  | none
  | quotes
  | here
  | arithmetic
  deriving DecidableEq

/-- Where pieces are read: this decides what is special in them and what ends them. -/
inductive Place where
  | word
  /-- Between double quotes, which may stand between the braces of a parameter. -/
  | quotes (inBraces : Bool)
  /-- After the operator of a parameter, up to the brace; `inQuotes` says that double quotes of its
  own are open, between which a brace is plain. -/
  | braces (quoting : Quoting) (inQuotes : Bool)
  | here
  /-- In an arithmetic expression, up to its two parentheses, `depth` others being open. -/
  | arithmetic (depth : Nat)

def Place.quoting : Place → Quoting
  | .word => .none
  | .quotes _ => .quotes
  | .braces quoting _ => quoting
  | .here => .here
  | .arithmetic _ => .arithmetic

def Place.isQuoted (p : Place) : Bool :=
  p.quoting != .none

def Place.inBraces : Place → Bool
  | .quotes inBraces => inBraces
  | .braces _ _ => true
  | _ => false

/-- The fault of a text that ends in a place, if it may not. -/
def Place.faultAtEnd : Place → Option String
  | .quotes _ => some "Syntax error: Unterminated quoted string"
  | .arithmetic _ => some "Syntax error: Missing '))'"
  | .braces .quotes _ => some "Syntax error: Unterminated quoted string"
  | .braces .arithmetic _ => some "Syntax error: Missing '))'"
  | .braces _ _ => some "Syntax error: Missing '\x7d'"
  | _ => none

/-- A character that ends a plain run. -/
def Place.stops (p : Place) (c : Char) : Bool :=
  match p with
  | .word => isSpecial c
  | .quotes _ => isSpecialQuoted c
  | .braces .none _ => c == '\\' || c == '\'' || c == '"' || c == '$' || c == '\x60' || c == '\x7d'
  | .braces _ _ => isSpecialQuoted c || c == '\x7d'
  | .here => c == '\\' || c == '$' || c == '\x60'
  | .arithmetic _ => c == '\\' || c == '$' || c == '\x60' || c == '(' || c == ')'

def consPlain (cs : List Char) (ps : List Piece) : List Piece :=
  match ps with
  | .plain s :: ps => .plain (String.ofList cs ++ s) :: ps
  | ps => .plain (String.ofList cs) :: ps

/-- Whether a list of commands ends here: at a closing word or sign, or at the end. -/
def atEnd (cs : List Char) : Bool :=
  match cs with
  | [] => true
  | ')' :: _ => true
  | ';' :: ';' :: _ => true
  | cs => closingWords.any fun w => atWord w cs

mutual

/-- Reads pieces up to what ends them in their place; the end itself is read where it is a sign. -/
def readPieces : (fuel : Nat) → Place → Reader (List Piece)
  | 0, _ => refuse "Syntax error: too deep"
  | fuel + 1, place => do
    let cs ← rest
    let hasMark := (← get).mark?.isSome
    let stops (c : Char) : Bool := place.stops c || (hasMark && c == '\n')
    let finish : Reader (List Piece) :=
      match place.faultAtEnd with
      | some fault => refuse fault
      | none => return []
    match cs with
    | [] => finish
    | c :: more =>
      if !stops c then
        let run := cs.takeWhile fun c => !stops c
        moveAcross run (cs.dropWhile fun c => !stops c)
        return consPlain run (← readPieces fuel place)
      else if hasMark && c == '\n' then
        moveToLine more
        if ← startLine then return consPlain ['\n'] (← finish)
        return consPlain ['\n'] (← readPieces fuel place)
      else if c == '\\' then
        match more with
        | '\n' :: more => moveToLine more; readPieces fuel place
        | [] => moveTo []; return [.plain "\\"]
        | e :: more =>
          moveTo more
          let inHere := match place with
            | .here => true
            | _ => false
          if !place.isQuoted then
            return .quoted [.plain (String.singleton e)] :: (← readPieces fuel place)
          else if e == '$' || e == '\x60' || e == '\\' || (e == '"' && !inHere) ||
              (e == '\x7d' && place.inBraces) then
            return consPlain [e] (← readPieces fuel place)
          else return consPlain ['\\', e] (← readPieces fuel place)
      else if c == '$' then
        let piece ← readDollar fuel place.quoting more
        return piece :: (← readPieces fuel place)
      else if c == '\x60' then
        match backquoted place.isQuoted more with
        | none =>
          moveAcross more []
          refuse "Syntax error: EOF in backquote substitution"
        | some (text, more) =>
          let script ← readNested fuel text
          moveAcross text more
          return .output script :: (← readPieces fuel place)
      else
        match place, c with
        | .quotes _, _ => moveTo more; return []
        | .braces _ true, '\x7d' =>
          moveTo more
          return consPlain ['\x7d'] (← readPieces fuel place)
        | .braces _ false, '\x7d' => moveTo more; return []
        | .arithmetic 0, ')' =>
          match more with
          | ')' :: more => moveTo more; return []
          | more => moveTo more; return consPlain [')'] (← readPieces fuel place)
        | .arithmetic (d + 1), ')' =>
          moveTo more
          return consPlain [')'] (← readPieces fuel (.arithmetic d))
        | .arithmetic d, '(' =>
          moveTo more
          return consPlain ['('] (← readPieces fuel (.arithmetic (d + 1)))
        | _, '"' =>
          moveTo more
          match place with
          | .braces .none _ =>
            let inner ← readPieces fuel (.quotes true)
            return .quoted inner :: (← readPieces fuel place)
          | .braces quoting inQuotes => readPieces fuel (.braces quoting !inQuotes)
          | _ =>
            let inner ← readPieces fuel (.quotes false)
            return .quoted inner :: (← readPieces fuel place)
        | _, '\'' =>
          let text := more.takeWhile (· != '\'')
          match more.dropWhile (· != '\'') with
          | [] =>
            moveAcross text []
            refuse "Syntax error: Unterminated quoted string"
          | _ :: more =>
            moveAcross text more
            return .quoted [.plain (String.ofList text)] :: (← readPieces fuel place)
        | _, _ => return []

def readWord : (fuel : Nat) → Reader Word
  | 0 => refuse "Syntax error: too deep"
  | fuel + 1 => readPieces fuel .word

def readDollar : (fuel : Nat) → Quoting → List Char → Reader Piece
  | 0, _, _ => refuse "Syntax error: too deep"
  | fuel + 1, quoting, cs => do
    match cs with
    | '(' :: '(' :: cs =>
      moveTo cs
      return .arithmetic (← readPieces fuel (.arithmetic 0))
    | '(' :: cs =>
      let outer ← get
      set { outer with rest := cs, waiting := [], mark? := none }
      let script ← readList fuel
      match ← rest with
      | ')' :: cs =>
        modify fun s => { s with rest := cs, waiting := outer.waiting, mark? := outer.mark? }
        return .output script
      | _ => unexpected (readWord fuel) ")"
    | '\x7b' :: '#' :: c :: cs =>
      if isNameChar c then
        match bracedName (c :: cs) with
        | some (name, '\x7d' :: cs) => moveTo cs; return .lengthOf name
        | some (_, cs) => readWrong fuel quoting cs
        | none => readWrong fuel quoting cs
      else
        match c, cs with
        | '\x7d', cs => moveTo cs; return .parameter "#"
        | c, '\x7d' :: cs =>
          if isSpecialParameter c then moveTo cs; return .lengthOf (String.singleton c)
          else readWrong fuel quoting ('\x7d' :: cs)
        | c, cs => readChanged fuel quoting "#" (c :: cs)
    | '\x7b' :: cs =>
      match bracedName cs with
      | some (name, '\x7d' :: cs) => moveTo cs; return .parameter name
      | some (name, cs) => readChanged fuel quoting name cs
      | none => readWrong fuel quoting (if cs.head? == some '\x7d' then cs else cs.drop 1)
    | cs =>
      match parameterName cs with
      | some (name, cs) => moveTo cs; return .parameter name
      | none => moveTo cs; return .plain "$"

def readChanged : (fuel : Nat) → Quoting → (name : String) → List Char → Reader Piece
  | 0, _, _, _ => refuse "Syntax error: too deep"
  | fuel + 1, quoting, name, cs => do
    match readChange cs with
    | none => readWrong fuel quoting ((if cs.head? == some ':' then cs.drop 1 else cs).drop 1)
    | some (change, emptyToo, cs) =>
      moveTo cs
      let pattern := match change with
        | .dropFront _ => true
        | .dropBack _ => true
        | _ => false
      let place : Place := .braces (if pattern then .none else quoting) false
      return .changed name change emptyToo (← readPieces fuel place)

/-- Reads what is left of a parameter between braces that is not written as one. -/
def readWrong : (fuel : Nat) → Quoting → List Char → Reader Piece
  | 0, _, _ => refuse "Syntax error: too deep"
  | fuel + 1, quoting, cs => do
    moveTo cs
    let _ ← readPieces fuel (.braces quoting false)
    return .wrong

/-- Reads a script that stands in another one as a text of its own, with lines of its own; what
comes after its commands is left out. -/
def readNested : (fuel : Nat) → List Char → Reader Command
  | 0, _ => refuse "Syntax error: too deep"
  | fuel + 1, text => do
    let outer ← get
    set { outer with
      rest := text, line := 1, waiting := [], mark? := none, redirected := none, within := [] }
    let script ← readList fuel
    modify fun s => { outer with count := s.count, texts := s.texts }
    return script

def readRedirection? : (fuel : Nat) → List Char → Reader (Option Redirection)
  | 0, _ => return none
  | fuel + 1, cs => do
    let some (digit?, sign) := streamDigit? cs | return none
    let stream (other : Nat) : Nat := digit?.getD other
    let operand (other : Nat) (direction : Direction) (cs : List Char) :
        Reader (Option Redirection) := do
      moveTo cs
      skipBlanks fuel
      if let some (_, sign) := streamDigit? (← rest) then
        moveTo sign
        unexpected (readWord fuel) ""
      match ← readWord fuel with
      | [] => unexpected (readWord fuel) ""
      | word => return some (.redirect (stream other) direction word)
    match sign with
    | '<' :: '<' :: cs =>
      let (dropsTabs, cs) := match cs with
        | '-' :: cs => (true, cs)
        | cs => (false, cs)
      moveTo cs
      skipBlanks fuel
      let cs ← rest
      if cs.head?.all isBreak then unexpected (readWord fuel) ""
      let some (text, isQuoted, after) := markText none cs
        | moveAcross cs []
          refuse "Syntax error: Unterminated quoted string"
      let number := (← get).count
      modify fun s => { s with
        rest := after
        count := number + 1
        waiting := s.waiting ++ [(number, { text, dropsTabs, isQuoted })] }
      let text? := (← get).texts.find? (·.1 == number)
      return some (.redirect (stream 0) .here [.quoted ((text?.map Prod.snd).getD [])])
    | '<' :: '&' :: cs => operand 0 .same cs
    | '<' :: '>' :: cs => operand 0 .both cs
    | '<' :: cs => operand 0 .input cs
    | '>' :: '&' :: cs => operand 1 .same cs
    | '>' :: '>' :: cs => operand 1 .append cs
    | '>' :: '|' :: cs => operand 1 .replace cs
    | '>' :: cs => operand 1 .output cs
    | _ => return none

/-- Reads the text of a here-document. -/
def readHere : (fuel : Nat) → HereMark → Reader (List Piece)
  | 0, _ => refuse "Syntax error: too deep"
  | fuel + 1, mark => do
    if mark.isQuoted then
      return [.plain (String.ofList (← takeLines mark (← rest).length))]
    else
      modify fun s => { s with mark? := some mark }
      let pieces ← if ← startLine then pure [] else readPieces fuel .here
      modify fun s => { s with mark? := none }
      return pieces

def readTexts : (fuel : Nat) → Reader Unit
  | 0 => refuse "Syntax error: too deep"
  | fuel + 1 => do
    match (← get).waiting with
    | [] => return ()
    | (number, mark) :: waiting =>
      let start := { (← get) with waiting := [] }
      set start
      let pieces ← readHere fuel mark
      let found ← get
      let pieces ← if found.count = start.count then pure pieces else do
          set { start with texts := found.texts }
          readHere fuel mark
      modify fun s => { s with waiting, texts := (number, pieces) :: s.texts }
      readTexts fuel

/-- Goes on after the line feed of a command, and after the texts that start there. -/
def nextLine : (fuel : Nat) → List Char → Reader Unit
  | 0, _ => refuse "Syntax error: too deep"
  | fuel + 1, cs => do
    moveToLine cs
    readTexts fuel

def skipLines : (fuel : Nat) → Reader Unit
  | 0 => return ()
  | fuel + 1 => do
    skipBlanks fuel
    match ← rest with
    | '\n' :: cs => nextLine fuel cs; skipLines fuel
    | _ => return ()

def expectWord : (fuel : Nat) → (word : String) → Reader Unit
  | 0, _ => refuse "Syntax error: too deep"
  | fuel + 1, word => do
    skipLines fuel
    let isKnown ← knowsReserved
    match plainWord (← rest) with
    | some (w, cs) =>
      if isKnown && w == word then moveTo cs else unexpected (readWord fuel) word
    | none => unexpected (readWord fuel) word

def readRedirections : (fuel : Nat) → Reader (List Redirection)
  | 0 => return []
  | fuel + 1 => do
    skipBlanks fuel
    match ← readRedirection? fuel (← rest) with
    | some r => return r :: (← readRedirections fuel)
    | none => return []

/-- Reads the words, assignments and redirections of a simple command. Its line is the one that its
first part ends in. -/
def readSimple : (fuel : Nat) → (line : Option Nat) → List (String × Word) → List Word →
    List Redirection → Reader Command
  | 0, _, _, _, _ => refuse "Syntax error: too deep"
  | fuel + 1, line?, assignments, words, redirections => do
    skipBlanks fuel
    let start := (← get).line
    if words.isEmpty then putAliases fuel else putMoreAliases fuel
    let cs ← rest
    match ← readRedirection? fuel cs with
    | some r => readSimple fuel (line?.or (some start)) assignments words (redirections ++ [r])
    | none =>
      let name := cs.takeWhile isNameChar
      match words, cs.drop name.length with
      | [], '=' :: value =>
        if isName (String.ofList name) then
          moveTo value
          let w ← readWord fuel
          let line := line?.getD (← get).line
          readSimple fuel line (assignments ++ [(String.ofList name, w)]) words redirections
        else
          let w ← readWord fuel
          let line := line?.getD (← get).line
          readSimple fuel line assignments (words ++ [w]) redirections
      | _, _ =>
        match ← readWord fuel with
        | [] =>
          match cs, assignments, words, redirections with
          | '(' :: cs, [], [name], [] =>
            moveTo cs
            readFunction fuel name
          | _, _, _, _ => return .simple (line?.getD start) assignments words redirections
        | w => do
          let line := line?.getD (← get).line
          readSimple fuel line assignments (words ++ [w]) redirections

/-- Reads a function from after its open parenthesis. -/
def readFunction : (fuel : Nat) → (name : Word) → Reader Command
  | 0, _ => refuse "Syntax error: too deep"
  | fuel + 1, name => do
    skipBlanks fuel
    match ← rest with
    | ')' :: cs =>
      moveTo cs
      match name with
      | [.plain name] =>
        if !isName name || specialBuiltins.contains name then
          refuse "Syntax error: Bad function name"
        skipLines fuel
        return .define name (← readCommand fuel)
      | _ => refuse "Syntax error: Bad function name"
    | _ => unexpectedToken (readWord fuel) false ")"

def readWords : (fuel : Nat) → Reader (List Word)
  | 0 => return []
  | fuel + 1 => do
    skipBlanks fuel
    match ← readWord fuel with
    | [] => return []
    | w => return w :: (← readWords fuel)

def readPatterns : (fuel : Nat) → Reader (List Word)
  | 0 => return []
  | fuel + 1 => do
    skipBlanks fuel
    let w ← readWord fuel
    let cs ← rest
    if w.isEmpty && !cs.isEmpty && cs.head? != some '\n' then moveTo (cs.drop 1)
    skipBlanks fuel
    match ← rest with
    | '|' :: cs => moveTo cs; return w :: (← readPatterns fuel)
    | ')' :: cs => moveTo cs; return [w]
    | _ => unexpectedToken (readWord fuel) false ")"

def readBranches : (fuel : Nat) → Reader (List (List Word × Command))
  | 0 => refuse "Syntax error: too deep"
  | fuel + 1 => do
    skipLines fuel
    let cs ← rest
    if atWord "esac" cs then
      moveTo (cs.drop 4)
      return []
    match cs with
    | '(' :: cs => moveTo cs
    | _ => pure ()
    let patterns ← readPatterns fuel
    let body ← readList fuel
    skipLines fuel
    match ← rest with
    | ';' :: ';' :: cs =>
      moveTo cs
      return (patterns, body) :: (← readBranches fuel)
    | cs =>
      if atWord "esac" cs then
        moveTo (cs.drop 4)
        return [(patterns, body)]
      else unexpected (readWord fuel) ";;"

def readOther : (fuel : Nat) → Reader Command
  | 0 => refuse "Syntax error: too deep"
  | fuel + 1 => do
    let cs ← rest
    let isKnown ← knowsReserved
    if isKnown && atWord "elif" cs then
      moveTo (cs.drop 4)
      let test ← readBody fuel
      expectWord fuel "then"
      let body ← readBody fuel
      return .conditional test body (← readOther fuel)
    else if isKnown && atWord "else" cs then
      moveTo (cs.drop 4)
      let body ← readBody fuel
      expectWord fuel "fi"
      return body
    else
      expectWord fuel "fi"
      return .sequence []

def readCommand : (fuel : Nat) → Reader Command
  | 0 => refuse "Syntax error: too deep"
  | fuel + 1 => do
    skipBlanks fuel
    let source ← get
    let cs := source.rest
    let withRedirections (c : Command) : Reader Command := do
      match ← readRedirections fuel with
      | [] => return c
      | rs =>
        modify fun s => { s with redirected := some s.rest.length }
        return .redirected source.line c rs
    match cs with
    | '(' :: cs =>
      moveTo cs
      let body ← readBody fuel
      match ← rest with
      | ')' :: cs => moveTo cs; withRedirections (.subshell body)
      | _ => unexpected (readWord fuel) ")"
    | cs =>
      match plainWord cs with
      | some ("\x7b", after) =>
        moveTo after
        let body ← readBody fuel
        expectWord fuel "\x7d"
        withRedirections body
      | some ("if", after) =>
        moveTo after
        let test ← readBody fuel
        expectWord fuel "then"
        let body ← readBody fuel
        withRedirections (.conditional test body (← readOther fuel))
      | some ("while", after) =>
        moveTo after
        let test ← readBody fuel
        expectWord fuel "do"
        let body ← readBody fuel
        expectWord fuel "done"
        withRedirections (.loop true test body)
      | some ("until", after) =>
        moveTo after
        let test ← readBody fuel
        expectWord fuel "do"
        let body ← readBody fuel
        expectWord fuel "done"
        withRedirections (.loop false test body)
      | some ("for", after) =>
        moveTo after
        skipBlanks fuel
        let cs ← rest
        let name := cs.takeWhile isNameChar
        let isWhole := (cs.drop name.length).head?.all isBreak
        if !isWhole || !isName (String.ofList name) then
          let _ ← readWord fuel
          refuse "Syntax error: Bad for loop variable"
        moveTo (cs.drop name.length)
        skipLines fuel
        let cs ← rest
        let words ← if atWord "in" cs then do
            moveTo (cs.drop 2)
            let words ← readWords fuel
            skipBlanks fuel
            match ← rest with
            | ';' :: ';' :: _ => unexpectedToken (readWord fuel) false ""
            | ';' :: _ => pure ()
            | '\n' :: _ => pure ()
            | _ => unexpectedToken (readWord fuel) false ""
            pure (some words)
          else pure none
        skipBlanks fuel
        match ← rest with
        | ';' :: cs => moveTo cs
        | _ => pure ()
        expectWord fuel "do"
        let body ← readBody fuel
        expectWord fuel "done"
        withRedirections (.each source.line (String.ofList name) words body)
      | some ("case", after) =>
        moveTo after
        skipBlanks fuel
        let subject ← readWord fuel
        if subject.isEmpty then unexpected (readWord fuel) "word"
        expectWord fuel "in"
        withRedirections (.choose source.line subject (← readBranches fuel))
      | some (word, _) =>
        let isClosing := closingWords.contains word || word = "in" || word = "!"
        if isClosing then unexpected (readWord fuel) ""
        else readChecked fuel
      | none => readChecked fuel

def readChecked : (fuel : Nat) → Reader Command
  | 0 => refuse "Syntax error: too deep"
  | fuel + 1 => do
    match ← readSimple fuel none [] [] [] with
    | .simple _ [] [] [] => unexpected (readWord fuel) ""
    | c => return c

/-- Reads commands joined by bars. -/
def readPipeline : (fuel : Nat) → Reader Command
  | 0 => refuse "Syntax error: too deep"
  | fuel + 1 => do
    skipBlanks fuel
    putAliases fuel
    let cs ← rest
    if atWord "!" cs then
      moveTo (cs.drop 1)
      skipBlanks fuel
      return .not (← readPiped fuel)
    readPiped fuel

def readPiped : (fuel : Nat) → Reader Command
  | 0 => refuse "Syntax error: too deep"
  | fuel + 1 => do
    skipBlanks fuel
    putAliases fuel
    let c ← readCommand fuel
    skipBlanks fuel
    match ← rest with
    | '|' :: '|' :: _ => return c
    | '|' :: cs =>
      moveTo cs
      skipLines fuel
      return .pipe c (← readPiped fuel)
    | _ => return c

def readJoined : (fuel : Nat) → Command → Reader Command
  | 0, _ => refuse "Syntax error: too deep"
  | fuel + 1, c => do
    skipBlanks fuel
    match ← rest with
    | '&' :: '&' :: cs =>
      moveTo cs
      skipLines fuel
      readJoined fuel (.both c (← readPipeline fuel))
    | '|' :: '|' :: cs =>
      moveTo cs
      skipLines fuel
      readJoined fuel (.either c (← readPipeline fuel))
    | _ => return c

def readList : (fuel : Nat) → Reader Command
  | 0 => refuse "Syntax error: too deep"
  | fuel + 1 => do
    skipLines fuel
    putAliases fuel
    if atEnd (← rest) then return .sequence []
    let c ← readJoined fuel (← readPipeline fuel)
    skipBlanks fuel
    match ← rest with
    | ';' :: ';' :: _ => return c
    | ';' :: cs => moveTo cs; follow fuel c
    | '&' :: cs => moveTo cs; follow fuel (.background c)
    | '\n' :: cs => nextLine fuel cs; follow fuel c
    | _ => return c

def readBody : (fuel : Nat) → Reader Command
  | 0 => refuse "Syntax error: too deep"
  | fuel + 1 => do
    match ← readList fuel with
    | .sequence [] =>
      if (← rest).isEmpty then return .sequence [] else unexpected (readWord fuel) ""
    | c => return c

/-- Reads the commands after a first one. -/
def follow : (fuel : Nat) → Command → Reader Command
  | 0, _ => refuse "Syntax error: too deep"
  | fuel + 1, c => do
    match ← readList fuel with
    | .sequence cs => return .sequence (c :: cs)
    | d => return .sequence [c, d]

end

/-- The pieces of a text in which only parameters and commands are expanded. -/
def readText? (text : String) : Option (List Piece) :=
  let cs := text.toList
  match (readPieces (20 * cs.length + 20) .here).run { rest := cs } with
  | .ok (pieces, _) => some pieces
  | .error _ => none

def readCommands : (fuel : Nat) → Reader (List Command)
  | 0 => refuse "Syntax error: too deep"
  | fuel + 1 => do
    skipBlanks fuel
    putAliases fuel
    match ← rest with
    | [] => return []
    | '\n' :: cs => nextLine fuel cs; return []
    | _ =>
      let c ← readJoined fuel (← readPipeline fuel)
      skipBlanks fuel
      match ← rest with
      | ';' :: ';' :: _ => unexpected (readWord fuel) ""
      | ';' :: cs => moveTo cs; return c :: (← readCommands fuel)
      | '&' :: cs => moveTo cs; return .background c :: (← readCommands fuel)
      | [] => return [c]
      | '\n' :: cs => nextLine fuel cs; return [c]
      | _ => unexpected (readWord fuel) ""

/-- Reads something with the texts of its here-documents, which are found on a first reading. -/
def withTexts {α : Type} (reader : Reader α) : Reader α := do
  let start ← get
  let found ← reader
  let texts := (← get).texts
  if texts.isEmpty then return found
  set { start with texts }
  let found ← reader
  modify fun s => { s with count := 0, waiting := [], texts := [] }
  return found

/-- Reads the next line with commands; there is none at the end of the script. -/
def readLine (fuel : Nat) : Reader (Option (List Command)) := do
  if (← rest).isEmpty then return none
  return some (← withTexts (readCommands fuel))

end Reader

end Pagewright.Shell
