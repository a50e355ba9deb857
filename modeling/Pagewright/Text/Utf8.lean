/-!
# Bytes and text

Files hold bytes; a document is text. `encode` is UTF-8. Decoding runs a machine over the bytes that
stands between characters or inside one (`State`), and cuts the bytes into `Piece`s: a character, a
longest run that begins a character and does not complete it, or the same at the end of the bytes.
`decode?` accepts the bytes without such a run, `decodeLossy` writes U+FFFD for each of them.
-/

namespace Pagewright.Text

/-- A sequence of bytes: what a file holds. -/
abbrev Bytes := List UInt8

namespace Utf8

def encode (s : String) : Bytes :=
  s.toList.flatMap String.utf8EncodeChar

/-- A character begun: how many bytes it still owes, the least and the greatest byte that may come
next, the bits read and the number of bytes they came from. -/
structure Partial where
  owed : Nat
  least : Nat
  greatest : Nat
  bits : Nat
  taken : Nat
  deriving DecidableEq, Repr

inductive State where
  | ready
  | inside (p : Partial)
  deriving DecidableEq, Repr

/-- A stretch of the input, by what it decodes to. -/
inductive Piece where
  | char (c : Char)
  /-- That many bytes that begin no character, or one that the next byte does not continue. -/
  | illFormed (count : Nat)
  /-- That many bytes of a character that the input ends inside. -/
  | cutOff (count : Nat)
  deriving DecidableEq, Repr

/-- The effect of a byte that comes between characters. The least second byte shuts out overlong
forms, the greatest shuts out surrogates and code points above U+10FFFF. -/
def start (byte : UInt8) : List Piece × State :=
  let b := byte.toNat
  if b < 0x80 then ([.char (Char.ofNat b)], .ready)
  else if b < 0xC2 then ([.illFormed 1], .ready)
  else if b < 0xE0 then ([], .inside ⟨1, 0x80, 0xBF, b - 0xC0, 1⟩)
  else if b < 0xF0 then
    let least := if b == 0xE0 then 0xA0 else 0x80
    let greatest := if b == 0xED then 0x9F else 0xBF
    ([], .inside ⟨2, least, greatest, b - 0xE0, 1⟩)
  else if b < 0xF5 then
    let least := if b == 0xF0 then 0x90 else 0x80
    let greatest := if b == 0xF4 then 0x8F else 0xBF
    ([], .inside ⟨3, least, greatest, b - 0xF0, 1⟩)
  else ([.illFormed 1], .ready)

/-- The effect of one byte. A byte that does not continue the character begun starts anew. -/
def step : State → UInt8 → List Piece × State
  | .ready, byte => start byte
  | .inside p, byte =>
    let b := byte.toNat
    if p.least ≤ b ∧ b ≤ p.greatest then
      let bits := p.bits * 64 + (b - 0x80)
      if p.owed ≤ 1 then ([.char (Char.ofNat bits)], .ready)
      else ([], .inside ⟨p.owed - 1, 0x80, 0xBF, bits, p.taken + 1⟩)
    else
      let (pieces, state) := start byte
      (.illFormed p.taken :: pieces, state)

def piecesFrom : State → Bytes → List Piece
  | .ready, [] => []
  | .inside p, [] => [.cutOff p.taken]
  | state, b :: bs =>
    let (pieces, state) := step state b
    pieces ++ piecesFrom state bs

def pieces (bs : Bytes) : List Piece :=
  piecesFrom .ready bs

/-- The first place at which bytes are not UTF-8. -/
inductive Fault where
  | illFormed (count index : Nat)
  | cutOff (index : Nat)
  deriving DecidableEq, Repr

def Fault.message : Fault → String
  | .illFormed count index =>
    s!"invalid utf-8 sequence of {count} bytes from index {index}"
  | .cutOff index => s!"incomplete utf-8 byte sequence from index {index}"

/-- The characters of the pieces, or the first fault; `index` bytes came before. -/
def charsOfPieces (index : Nat) : List Piece → Except Fault (List Char)
  | [] => .ok []
  | .char c :: ps => (charsOfPieces (index + c.utf8Size) ps).map (c :: ·)
  | .illFormed count :: _ => .error (.illFormed count index)
  | .cutOff _ :: _ => .error (.cutOff index)

def decode? (bs : Bytes) : Except Fault String :=
  (charsOfPieces 0 (pieces bs)).map String.ofList

/-- What a piece shows where ill-formed input is tolerated. -/
def Piece.shown : Piece → Char
  | .char c => c
  | _ => '\uFFFD'

/-- The text of the bytes, with the replacement character for each run that is not UTF-8. -/
def decodeLossy (bs : Bytes) : String :=
  String.ofList ((pieces bs).map Piece.shown)

end Utf8

end Pagewright.Text
