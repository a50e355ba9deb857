/-!
# Going through options

What the command `getopts` does: it is called again and again and finds the options of an argument
list one by one. `OptionScan` is how far it has come; `OptionScan.step` goes on to the next option.
-/

namespace Pagewright.Shell

/-- How far an argument list has been gone through. -/
structure OptionScan where
  next : Nat := 1
  /-- How much of the argument before it has been looked at, when it is a group of options. -/
  within : Option Nat := none
  deriving DecidableEq, Repr

structure ScanStep where
  /-- The letter of the option, or the sign of a fault or of the end. -/
  letter : Char
  /-- What becomes of the value that goes with an option: nothing at the end of the options; else it
  is taken away or replaced. -/
  value : Option (Option String)
  complaint : Option String := none
  isEnd : Bool := false
  after : OptionScan
  deriving DecidableEq, Repr

namespace OptionScan

/-- Whether an option of a letter is known, and then whether it takes a value: its letter stands in
front of a colon. -/
def takesValue? (letter : Char) : List Char → Option Bool
  | [] => none
  | [c] => if c = letter then some false else none
  | c :: ':' :: cs => if c = letter then some true else takesValue? letter cs
  | c :: cs => if c = letter then some false else takesValue? letter cs

/-- The option of a letter, with the rest of its group; `next` is the number of the argument after
the group. With a colon in front of the known letters, faults are told by the letter and the value
and not by a complaint. -/
def found (known : List Char) (args : List String) (letter : Char) (group : List Char)
    (next : Nat) : ScanStep :=
  let isQuiet := known.head? == some ':'
  let faulty (sign : Char) (message : String) (after : OptionScan) : ScanStep :=
    { letter := if isQuiet then sign else '?'
      value := some (if isQuiet then some (String.singleton letter) else none)
      complaint := if isQuiet then none else some message
      after }
  let inGroup : OptionScan :=
    { next, within := some (((args[next - 2]?).getD "").length - group.length) }
  match takesValue? letter known, group, args[next - 1]? with
  | none, _, _ => faulty '?' ("Illegal option -" ++ String.singleton letter) inGroup
  | some false, _, _ => { letter, value := some (some ""), after := inGroup }
  | some true, [], some value =>
    { letter, value := some (some value), after := { next := next + 1 } }
  | some true, [], none =>
    faulty ':' ("No arg for -" ++ String.singleton letter ++ " option") { next }
  | some true, group, _ => { letter, value := some (some (String.ofList group)), after := { next } }

def step (known : List Char) (args : List String) (scan : OptionScan) : ScanStep :=
  let isEnd (next : Nat) : ScanStep :=
    { letter := '?', value := none, isEnd := true, after := { next } }
  let group := match scan.within with
    | some n => if scan.next ≤ 1 then [] else ((args[scan.next - 2]?).getD "").toList.drop n
    | none => []
  match group with
  | c :: cs => found known args c cs scan.next
  | [] =>
    match ((args[scan.next - 1]?).getD "").toList with
    | ['-', '-'] => isEnd (scan.next + 1)
    | '-' :: c :: cs => found known args c cs (scan.next + 1)
    | _ => isEnd scan.next

end OptionScan

end Pagewright.Shell
