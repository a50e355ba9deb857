import Pagewright.Text.Hidden

/-!
# Quoted text

Names and lines inside messages stand between double quotes. A quote and a backslash get a
backslash, the tab, carriage return, line feed and the null character have letters of their own, and
every other hidden character is written by its code point in lower-case hexadecimal. A single quote
stands for itself.
-/

namespace Pagewright.Text

def hexDigits (n : Nat) : String :=
  String.ofList (Nat.toDigits 16 n)

/-- One character as it stands between the quotes. -/
def quotedChar (c : Char) : String :=
  match c with
  | '\x00' => "\\0"
  | '\t' => "\\t"
  | '\r' => "\\r"
  | '\n' => "\\n"
  | '"' => "\\\""
  | '\\' => "\\\\"
  | c => if isHidden c then "\\u\x7b" ++ hexDigits c.toNat ++ "\x7d" else String.singleton c

/-- A text between double quotes, with its special characters escaped. -/
def quoted (s : String) : String :=
  "\"" ++ String.join (s.toList.map quotedChar) ++ "\""

end Pagewright.Text
