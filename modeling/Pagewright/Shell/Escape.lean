import Pagewright.Shell.Raw

/-!
# Escapes in output

The escapes that `echo`, `printf` and the arguments of its conversion `%b` know: single letters,
octal digits for any byte, and `\c`, which ends the output.
-/

namespace Pagewright.Shell

open Text

def letterEscape? : Char → Option Char
  | 'a' => some '\x07'
  | 'b' => some '\x08'
  | 'e' => some '\x1b'
  | 'f' => some '\x0c'
  | 'n' => some '\n'
  | 'r' => some '\r'
  | 't' => some '\t'
  | 'v' => some '\x0b'
  | '\\' => some '\\'
  | _ => none

def isOctal (c : Char) : Bool :=
  '0' ≤ c && c ≤ '7'

def octalByte (ds : List Char) : UInt8 :=
  UInt8.ofNat (ds.foldl (fun n d => n * 8 + (d.toNat - '0'.toNat)) 0)

/-- The bytes of a text with escapes, and whether `\c` ended it. In an argument, octal digits follow
a zero. -/
def unescape (argument : Bool) : (fuel : Nat) → List Char → Bytes × Bool
  | 0, _ => ([], false)
  | _, [] => ([], false)
  | fuel + 1, '\\' :: cs =>
    let after (bs : Bytes) (rest : List Char) : Bytes × Bool :=
      let (more, ended) := unescape argument fuel rest
      (bs ++ more, ended)
    match cs with
    | [] => ([0x5C], false)
    | 'c' :: rest => if argument then ([], true) else after (rawBytes "\\c") rest
    | e :: rest =>
      match letterEscape? e with
      | some c => after (bytesOf [c]) rest
      | none =>
        let digits := if argument && e == '0' then (rest.take 3).takeWhile isOctal
          else (cs.take 3).takeWhile isOctal
        if argument && e == '0' then after [octalByte digits] (rest.drop digits.length)
        else if digits.isEmpty then after (bytesOf ['\\', e]) rest
        else after [octalByte digits] (cs.drop digits.length)
  | fuel + 1, c :: cs =>
    let (more, ended) := unescape argument fuel cs
    (bytesOf [c] ++ more, ended)

end Pagewright.Shell
