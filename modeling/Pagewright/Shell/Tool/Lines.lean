import Pagewright.Shell.Expression.Reader
import Pagewright.Shell.Format
import Pagewright.Shell.Tool.Basic

/-!
# Tools for lines

The tools that choose, count, order and change lines or characters of their input.
-/

namespace Pagewright.Shell.Tool

open Text

def unopened (file : String) (e : FileError) : String :=
  "cannot open " ++ quotedName file ++ " for reading: " ++ e.reason

/-- The number that a value writes and the sign in front of it. -/
def signedCount? (value : String) : Option (Option Char × Nat) :=
  let (sign, ds) : Option Char × List Char := match value.toList with
    | '-' :: ds => (some '-', ds)
    | '+' :: ds => (some '+', ds)
    | ds => (none, ds)
  if !ds.isEmpty && ds.all Char.isDigit then some (sign, (leadingNumber ds).1) else none

/-- The arguments with a first one like `-5` in the form of an option of its own. -/
def withCount : List String → List String
  | [] => []
  | a :: rest =>
    match a.toList with
    | '-' :: ds => if !ds.isEmpty && ds.all Char.isDigit then "-n" :: String.ofList ds :: rest
        else a :: rest
    | _ => a :: rest

/-- A tool that cuts out a part of each operand, with a heading for each when there are several;
the part is told by a count of lines or of characters. What follows a part at the front of standard
input is left there when that is a file. -/
def cutting (atFront : Bool) (lines : Option Char → Nat → List (List Char) → List (List Char))
    (chars : Option Char → Nat → Bytes → Bytes) : Tool := fun call =>
  Tool.withOptions
    { letters := ['q'], valued := ['n', 'c'], names := [("lines", 'n'), ("bytes", 'c')] } 1
    (fun call told => do
      let heads := told.operands.length > 1 && !told.has 'q'
      let cut (bytes : Bytes) : Except ToolReply Bytes :=
        match told.value? 'c' with
        | some value =>
          match signedCount? value with
          | some (sign, n) => .ok (chars sign n bytes)
          | none => .error (.failure call 1 ("invalid number of bytes: " ++ citedName value))
        | none =>
          let value := (told.value? 'n').getD "10"
          match signedCount? value with
          | some (sign, n) =>
            let (all, isOpen) := linesOf (charsOf bytes)
            let marked := all.mapIdx fun k line =>
              line ++ (if isOpen && k + 1 = all.length then [] else ['\n'])
            .ok (bytesOf (lines sign n marked).flatten)
          | none => .error (.failure call 1 ("invalid number of lines: " ++ citedName value))
      match cut [] with
      | .error reply => return reply
      | .ok _ =>
        let reply ← call.forContents told.operands 1 unopened fun file bytes =>
          let name := if file = "-" then "standard input" else file
          let head := rawBytes ("\n==> " ++ name ++ " <==\n")
          let part := ((cut bytes).toOption).getD []
          { output := (if heads then head else []) ++ part
            left := if file = "-" && atFront && call.isFromFile then some (bytes.drop part.length)
              else none }
        return if heads then { reply with output := reply.output.drop 1 } else reply)
    { call with args := withCount call.args }

/-- The first lines (`-n`) or bytes (`-c`) of each operand; a minus sign counts from the end. -/
def head : Tool :=
  cutting true (fun sign n all => if sign = some '-' then all.take (all.length - n) else all.take n)
    (fun sign n all => if sign = some '-' then all.take (all.length - n) else all.take n)

/-- The last lines (`-n`) or bytes (`-c`) of each operand; a plus sign counts from the start. -/
def tail : Tool :=
  cutting false (fun sign n all => all.drop (if sign = some '+' then n - 1 else all.length - n))
    (fun sign n all => all.drop (if sign = some '+' then n - 1 else all.length - n))

/-- Counts the lines (`-l`), words (`-w`) and bytes (`-c`) of each operand, with a total for
several. -/
def wc : Tool := withOptions { letters := ['l', 'w', 'c', 'm'] } 1 fun call told => do
  let isSpace (c : Char) : Bool := c == ' ' || ('\t' ≤ c && c ≤ '\r')
  let counts (cs : List Char) : List Nat :=
    let words := (cs.foldl (fun (n, inside) c =>
      if isSpace c then (n, false) else (if inside then n else n + 1, true)) (0, false)).1
    let all : List (List Char × Nat) :=
      [(['l'], cs.count '\n'), (['w'], words), (['c', 'm'], cs.length)]
    let chosen := all.filter fun (letters, _) => letters.any told.has
    (if chosen.isEmpty then all else chosen).map Prod.snd
  let mut complaints : ToolReply := {}
  let mut rows : List (List Nat × String) := []
  for file in if told.operands.isEmpty then ["-"] else told.operands do
    match ← call.content file with
    | .ok bytes =>
      rows := rows ++ [(counts (charsOf bytes), if told.operands.isEmpty then "" else file)]
    | .error e =>
      let message := if file.isEmpty then "invalid zero-length file name"
        else ToolCall.complaint file e
      complaints := complaints ++ .failure call 1 message
  let sum (rows : List (List Nat × String)) : List Nat :=
    rows.foldl (fun (sums : List Nat) row => if sums.isEmpty then row.1
      else List.zipWith (· + ·) sums row.1) []
  if told.operands.length > 1 then rows := rows ++ [(sum rows, "total")]
  let isStream := told.operands.isEmpty || told.operands.contains "-"
  let isSingle := told.operands.length ≤ 1 && rows.all fun row => row.1.length = 1
  let widest := rows.foldl (fun w row => row.1.foldl (fun w n => max w (toString n).length) w) 1
  let width := if isSingle then 1 else if isStream then 7 else widest
  let cell (n : Nat) : String :=
    String.ofList (List.replicate (width - (toString n).length) ' ') ++ toString n
  let reply : ToolReply := complaints ++ .ofLines (rows.map fun (ns, name) =>
    " ".intercalate (ns.map cell ++ if name.isEmpty then [] else [name]))
  return { reply with left := if isStream then some [] else none }

def matchesIn (e : Expression) (caseless : Bool) : (fuel : Nat) → Cursor → List (List Char)
  | 0, _ => []
  | fuel + 1, p =>
    match e.find? caseless p with
    | none => []
    | some (first, stop) =>
      let found := first.upTo stop
      if found.isEmpty then
        if stop.rest.isEmpty then [] else matchesIn e caseless fuel (stop.advance 1)
      else found :: matchesIn e caseless fuel stop

/-- The expression that the options of a search tell of: one of several patterns, each of which may
have to be a whole line or word. -/
def searched? (told : ToolArguments) (patterns : List String) : Option Expression := do
  let one (pattern : String) : Option Expression :=
    let cs := pattern.toList
    if told.has 'F' then some (Expression.literal cs) else Expression.read? (told.has 'E') cs
  let all ← (patterns.flatMap fun p => p.splitOn "\n").mapM one
  let e := match all.reverse with
    | [] => Expression.empty
    | last :: others => others.foldl (fun e a => .either a e) last
  let around (a b e : Expression) : Expression := .join a (.join e b)
  return if told.has 'x' then around .start .finish e
    else if told.has 'w' then around (.clear false) (.clear true) e else e

def grepUsage : String := "Usage: grep [OPTION]... PATTERNS [FILE]..."

/-- The lines of its operands in which a pattern is found. Patterns are basic expressions, extended
ones (`-E`) or plain texts (`-F`); the other options say what is written of the lines. -/
def grep : Tool :=
  withOptions
    { letters := ['E', 'F', 'G', 'i', 'v', 'n', 'c', 'l', 'L', 'q', 's', 'h', 'H', 'o', 'x', 'w']
      valued := ['e', 'm']
      usage := grepUsage } 2 fun call told => do
    let given := (told.given.filter (·.1 == 'e')).map Prod.snd
    let (patterns, operands) := match given, told.operands with
      | [], p :: operands => ([p], operands)
      | given, operands => (given, operands)
    if patterns.isEmpty then
      return {
        status := 2
        complaint := grepUsage ++ "\nTry 'grep --help' for more information.\n" }
    let some e := searched? told patterns |
      return .failure call 2 "Unmatched ( or \\("
    let caseless := told.has 'i'
    let named := told.has 'H' || (operands.length > 1 && !told.has 'h')
    let search (file : String) (bytes : Bytes) : ToolReply :=
      let name := if file = "-" then "(standard input)" else file
      let front : List Char := if named then (name ++ ":").toList else []
      let all := (linesOf (charsOf bytes)).1.mapIdx fun n line => (n + 1, line)
      let found := all.filter fun (_, line) => e.isIn caseless line != told.has 'v'
      let found := match told.value? 'm' with
        | some n => found.take (leadingNumber n.toList).1
        | none => found
      let count (n : Nat) : List Char := if told.has 'n' then Nat.toDigits 10 n ++ [':'] else []
      let parts (line : List Char) : List (List Char) :=
        if told.has 'o' then matchesIn e caseless (line.length + 1) { rest := line } else [line]
      let lines : List (List Char) :=
        if told.has 'q' then []
        else if told.has 'l' then if found.isEmpty then [] else [name.toList]
        else if told.has 'L' then if found.isEmpty then [name.toList] else []
        else if told.has 'c' then [front ++ Nat.toDigits 10 found.length]
        else found.flatMap fun (n, line) => (parts line).map fun part => front ++ count n ++ part
      -- until all operands are read, a status of 1 says that something was found
      { output := linesBytes lines, status := if found.isEmpty then 0 else 1 }
    let reply ← call.forContents operands 2 (fun f e => f ++ ": " ++ e.reason) search
    let isFound := reply.status = 1 || (reply.status = 2 && told.has 'q')
    return {
      output := reply.output
      complaint := if told.has 's' then "" else reply.complaint
      status := if reply.complaint.isEmpty then (if isFound then 0 else 1) else 2 }

def lineNumber (line : List Char) : Int :=
  match line.dropWhile fun c => c == ' ' || c == '\t' with
  | '-' :: ds => -((leadingNumber ds).1 : Int)
  | ds => (leadingNumber ds).1

/-- The lines of its operands in increasing order; `-n` orders by numbers, `-r` turns the order
around and `-u` keeps one of equal lines. -/
def sort : Tool := withOptions { letters := ['n', 'r', 'u', 's'] } 2 fun call told =>
  let isUpTo (a b : List Char) : Bool := String.ofList a ≤ String.ofList b
  let before (a b : List Char) : Bool :=
    if told.has 'n' then
      if lineNumber a = lineNumber b then told.has 'u' || told.has 's' || isUpTo a b
      else lineNumber a < lineNumber b
    else isUpTo a b
  let order (a b : List Char) : Bool := if told.has 'r' then before b a else before a b
  call.onText told.operands 2 (fun f e => "cannot read: " ++ ToolCall.complaint f e) fun cs =>
    let sorted := (linesOf cs).1.mergeSort order
    let isSame (a b : List Char) : Bool :=
      if told.has 'n' then lineNumber a = lineNumber b else a = b
    let kept := if told.has 'u' then (sorted.splitBy isSame).filterMap List.head? else sorted
    { output := linesBytes kept }

/-- Lines of which equal ones in a row are kept once: with their number (`-c`), only those that
repeat (`-d`), or only those that do not (`-u`). -/
def uniq : Tool := withOptions { letters := ['c', 'd', 'u'] } 1 fun call told =>
  call.onText told.operands 1 ToolCall.complaint fun cs =>
    let groups := (linesOf cs).1.splitBy (· == ·)
    let chosen := groups.filter fun g =>
      (!told.has 'd' || g.length > 1) && (!told.has 'u' || g.length = 1)
    { output := linesBytes (chosen.filterMap fun g => g.head?.map fun line =>
        if told.has 'c' then
          let n := Nat.toDigits 10 g.length
          List.replicate (7 - n.length) ' ' ++ n ++ ' ' :: line
        else line) }

/-- The ranges of positions that a list writes; one without an end goes on for ever. -/
def ranges? (list : String) : Option (List (Nat × Option Nat)) :=
  (list.splitOn ",").mapM fun part =>
    let number? (s : String) : Option Nat :=
      if s.isEmpty || !s.all Char.isDigit then none else some (leadingNumber s.toList).1
    match part.splitOn "-" with
    | [n] => (number? n).map fun n => (n, some n)
    | [a, ""] => (number? a).map fun a => (a, none)
    | ["", b] => (number? b).map fun b => (1, some b)
    | [a, b] => (number? a).bind fun a => (number? b).map fun b => (a, some b)
    | _ => none

def select {α : Type} (ranges : List (Nat × Option Nat)) (xs : List α) : List α :=
  (xs.mapIdx fun n x => (n + 1, x)).filterMap fun (n, x) =>
    if ranges.any fun (a, b) => a ≤ n && b.all (n ≤ ·) then some x else none

/-- Parts of each line: characters (`-c`, `-b`) or fields (`-f`) between delimiters (`-d`); `-s`
drops lines without a delimiter. -/
def cut : Tool := withOptions { letters := ['s', 'n'], valued := ['c', 'b', 'f', 'd'] } 1
  fun call told => do
    let list := (told.value? 'f').orElse fun _ => (told.value? 'c').orElse fun _ => told.value? 'b'
    match list, list.bind ranges? with
    | none, _ => return .misuse call 1 "you must specify a list of bytes, characters, or fields"
    | some _, none => return .misuse call 1 "invalid field value"
    | some _, some ranges =>
      let d := (((told.value? 'd').getD "\t").toList.head?).getD '\t'
      call.onText told.operands 1 ToolCall.complaint fun cs =>
        let part (line : List Char) : Option (List Char) :=
          if !told.has 'f' then some (select ranges line)
          else if !line.contains d then if told.has 's' then none else some line
          else some ([d].intercalate (select ranges (line.splitOn d)))
        { output := linesBytes ((linesOf cs).1.filterMap part) }

def rev : Tool := withOptions {} 1 fun call told =>
  call.onText told.operands 1 (fun f e => "cannot open " ++ f ++ ": " ++ e.reason) fun cs =>
    { output := bytesOf (['\n'].intercalate ((cs.splitOn '\n').map List.reverse)) }

/-- The characters of a set, its ranges, classes and escapes written out; `fuel` bounds their
number. -/
def readSet : (fuel : Nat) → List Char → List Char
  | 0, _ => []
  | _, [] => []
  | fuel + 1, '[' :: ':' :: cs =>
    match CharSet.readClass? (cs.map (·, true)) with
    | some (ranges, rest) =>
      ranges.flatMap (fun (a, b) => between a b) ++ readSet fuel (rest.map Prod.fst)
    | none => '[' :: readSet fuel (':' :: cs)
  | fuel + 1, cs =>
    match character cs with
    | none => []
    | some (a, '-' :: rest) =>
      match character rest with
      | some (b, rest) => between a b ++ readSet fuel rest
      | none => a :: readSet fuel ('-' :: rest)
    | some (a, rest) => a :: readSet fuel rest
where
  between (a b : Char) : List Char :=
    (List.range (b.toNat + 1 - a.toNat)).map fun n => Char.ofNat (a.toNat + n)
  character : List Char → Option (Char × List Char)
    | [] => none
    | ['\\'] => some ('\\', [])
    | '\\' :: c :: cs =>
      let ds := ((c :: cs).take 3).takeWhile isOctal
      if ds.isEmpty then some ((letterEscape? c).getD c, cs)
      else some (Char.ofNat (octalByte ds).toNat, (c :: cs).drop ds.length)
    | c :: cs => some (c, cs)

/-- Puts characters of one set in the place of those of another, deletes them (`-d`), or keeps one
of equal ones in a row (`-s`); `-c` takes the characters that are not in the set. -/
def tr : Tool :=
  withOptions
    { letters := ['c', 'C', 'd', 's'],
      names := [("delete", 'd'), ("complement", 'c'), ("squeeze-repeats", 's')] } 1
    fun call told => do
      let deletes := told.has 'd'
      let squeezes := told.has 's'
      let sets := told.operands.map fun a =>
        let cs := a.toList
        readSet (cs.length + 1) cs
      let inverted := told.has 'c' || told.has 'C'
      match sets, told.operands with
      | [], _ => return .misuse call 1 "missing operand"
      | [_], operand :: _ =>
        if !deletes && !squeezes then
          return .misuse call 1 ("missing operand after " ++ citedName operand ++
            "\nTwo strings must be given when translating.")
      | [_, _], [_, operand] =>
        if deletes && !squeezes then
          return .misuse call 1 ("extra operand " ++ citedName operand ++
            "\nOnly one string may be given when deleting without squeezing repeats.")
      | _, operands => return .misuse call 1 ("extra operand " ++ citedName (operands.getD 2 ""))
      let set := sets.headD []
      let inSet (c : Char) : Bool := set.contains c != inverted
      let values := sets.getD 1 []
      let value (c : Char) : Char :=
        if inverted then values.getLast?.getD c
        else
          match set.reverse.idxOf? c with
          | some n => (values[set.length - 1 - n]?.orElse fun _ => values.getLast?).getD c
          | none => c
      let translates := !deletes && sets.length = 2
      let classes := ((told.operands.getD 1 "").splitOn "[:").drop 1
      let isCase (c : String) : Bool := c.startsWith "upper:]" || c.startsWith "lower:]"
      if translates && !classes.all isCase then
        return .failure call 1 ("when translating, the only character classes that may appear " ++
          "in\nstring2 are 'upper' and 'lower'")
      let squeezed (c : Char) : Bool :=
        if translates || deletes then values.contains c else inSet c
      call.onText [] 1 ToolCall.complaint fun cs =>
        let cs := if deletes then cs.filter fun c => !inSet c
          else if translates then cs.map fun c => if inSet c then value c else c
          else cs
        let isRepeat (a b : Char) : Bool := a == b && squeezed a
        let cs := if squeezes then (cs.splitBy isRepeat).filterMap List.head? else cs
        { output := bytesOf cs }

end Pagewright.Shell.Tool
