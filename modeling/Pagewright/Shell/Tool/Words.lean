import Pagewright.Shell.Format
import Pagewright.Shell.Tool.Basic

/-!
# Tools for words

The tools that answer from their arguments and the environment alone.
-/

namespace Pagewright.Shell.Tool

open Text

/-- Writes its operands with blanks between them; `-n` leaves the line open and `-e` undoes
escapes. -/
def echo : Tool := ofFunction fun call =>
  let isGroup (a : String) : Bool :=
    a.startsWith "-" && a.length > 1 && (a.toList.drop 1).all ['n', 'e', 'E'].contains
  let letters := (call.args.takeWhile isGroup).flatMap fun a => a.toList.drop 1
  let text := " ".intercalate (call.args.dropWhile isGroup)
  let undoes := (letters.filter (· != 'n')).getLast? == some 'e'
  let (bytes, ended) := if undoes then unescape true (text.length + 1) text.toList
    else (rawBytes text, false)
  { output := if ended || letters.contains 'n' then bytes else bytes ++ [0x0A] }

def printf : Tool := ofFunction fun call =>
  match call.args.dropWhile (· == "--") with
  | [] => .misuse call 1 "missing operand"
  | form :: args =>
    let formatted := format form args
    let message (arg : String) (fault : NumberFault) : ToolReply :=
      .failure call 1 (citedName arg ++ ": " ++ match fault with
        | .noNumber => "expected a numeric value"
        | .notWhole => "value not completely converted"
        | .outOfRange => "Numerical result out of range")
    let halted : ToolReply := match formatted.halt with
      | some (.badConversion text) => .failure call 1 (text ++ ": invalid conversion specification")
      | some .noLetter => .failure call 1 "%: invalid conversion specification"
      | _ => {}
    let faults := formatted.faults.map fun (arg, fault) => message arg fault
    faults.foldl ToolReply.append { output := formatted.output } ++ halted

/-- The last part of a path, without an ending. -/
def basename : Tool := ofFunction fun call =>
  let name (p : String) : List Char :=
    let trimmed := (p.toList.reverse.dropWhile (· == '/')).takeWhile (· != '/')
    if trimmed.isEmpty && !p.isEmpty then ['/'] else trimmed.reverse
  match call.args with
  | [] => .misuse call 1 "missing operand"
  | [p] => .ofLines [String.ofList (name p)]
  | [p, ending] =>
    let n := name p
    let e := ending.toList
    let isEnd := e.isSuffixOf n && e.length < n.length
    .ofLines [String.ofList (if isEnd then n.take (n.length - e.length) else n)]
  | _ :: _ :: extra :: _ => .misuse call 1 ("extra operand " ++ citedName extra)

def dirname : Tool := ofFunction fun call =>
  let parent (p : String) : String :=
    let up := (p.toList.reverse.dropWhile (· == '/')).dropWhile (· != '/')
    let trimmed := (up.dropWhile (· == '/')).reverse
    if !trimmed.isEmpty then String.ofList trimmed
    else if !up.isEmpty || p.startsWith "/" then "/" else "."
  if call.args.isEmpty then .misuse call 1 "missing operand" else .ofLines (call.args.map parent)

/-- The numbers from one to another in steps; `-s` gives what stands between them and `-w` makes
them equally wide. -/
def seq : Tool := fun call => do
  let isNumber (a : String) : Bool := (Arithmetic.decimal? a).isSome
  let bounds := call.args.reverse.takeWhile isNumber |>.reverse
  let told := ToolArguments.read { letters := ['w'], valued := ['s'] }
    (call.args.take (call.args.length - bounds.length))
  let numbers := bounds.filterMap Arithmetic.decimal?
  match told with
  | .error message => return .misuse call 1 message
  | .ok told =>
    if let some a := told.operands.head? then
      return .misuse call 1 ("invalid floating point argument: " ++ citedName a)
    let range (first step last : Int) : ToolReply :=
      if step = 0 then .misuse call 1 "invalid Zero increment value: '0'"
      else
        let count := if step < 0 then (first - last) / -step + 1 else (last - first) / step + 1
        let texts := (List.range count.toNat).map fun (n : Nat) => toString (first + n * step)
        let width := if told.has 'w' then texts.foldl (fun w t => max w t.length) 0 else 0
        let wide (t : String) : String :=
          String.ofList (List.replicate (width - t.length) '0') ++ t
        if texts.isEmpty then {}
        else .ofText (((told.value? 's').getD "\n").intercalate (texts.map wide) ++ "\n")
    return match numbers with
      | [last] => range 1 1 last
      | [first, last] => range first 1 last
      | [first, step, last] => range first step last
      | [] => .misuse call 1 "missing operand"
      | _ => .misuse call 1 ("extra operand " ++ citedName (bounds.getD 3 ""))

/-- The value of an environment variable, or the whole environment. -/
def printenv : Tool := ofFunction fun call =>
  match call.args with
  | [] => .ofLines (call.environment.map fun (name, value) => name ++ "=" ++ value)
  | names =>
    let values := names.map fun n => (call.environment.find? (·.1 == n)).map Prod.snd
    { ToolReply.ofLines (values.filterMap id) with status := if values.contains none then 1 else 0 }

def pwd : Tool := ofFunction fun call => .ofLines [toRaw call.directory.text]

def idle (status : Nat) : Tool := ofFunction fun _ => { status }

/-- Waits for no time at all. -/
def sleep : Tool := ofFunction fun call =>
  let isTime (a : String) : Bool :=
    let digits := a.toList.filter (· != '.')
    let isUnit (c : Char) : Bool := ['s', 'm', 'h', 'd'].contains c
    let digits := if digits.getLast?.any isUnit then digits.dropLast else digits
    !digits.isEmpty && digits.all Char.isDigit
  if call.args.isEmpty then .misuse call 1 "missing operand"
  else
    match call.args.find? fun a => !isTime a with
    | some a => .misuse call 1 ("invalid time interval " ++ citedName a)
    | none => {}

end Pagewright.Shell.Tool
