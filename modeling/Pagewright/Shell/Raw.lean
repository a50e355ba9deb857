import Pagewright.Path
import Pagewright.Text.Utf8

/-!
# Raw texts

Scripts and tools know bytes and no characters beyond ASCII. The texts that they work on are raw:
they hold, for each byte, the character with the number of the byte. `rawText` and `rawBytes` pass
between bytes and raw texts, `toRaw` and `ofRaw` between texts and their raw forms.
-/

namespace Pagewright.Shell

open Text

def charsOf (bs : Bytes) : List Char :=
  bs.map fun b => Char.ofNat b.toNat

def bytesOf (cs : List Char) : Bytes :=
  cs.map fun c => UInt8.ofNat c.toNat

theorem bytesOf_charsOf (bs : Bytes) : bytesOf (charsOf bs) = bs := by
  induction bs with
  | nil => rfl
  | cons b bs ih =>
    have valid : (b.toNat).isValidChar := Or.inl (Nat.lt_trans b.toNat_lt (by decide))
    have char : Char.ofNat b.toNat = Char.ofNatAux b.toNat valid := dif_pos valid
    have here : UInt8.ofNat (Char.ofNat b.toNat).toNat = b := by
      rw [char]
      exact UInt8.ofNat_toNat
    simp only [bytesOf, charsOf, List.map_cons] at ih ⊢
    rw [here, ih]

/-- The raw text of bytes. -/
def rawText (bs : Bytes) : String :=
  String.ofList (charsOf bs)

def rawBytes (raw : String) : Bytes :=
  bytesOf raw.toList

@[simp] theorem rawBytes_rawText (bs : Bytes) : rawBytes (rawText bs) = bs := by
  simp [rawBytes, rawText, bytesOf_charsOf]

/-- The raw form of a text. -/
def toRaw (s : String) : String :=
  rawText (Utf8.encode s)

/-- The text of a raw form; what is not UTF-8 is replaced. -/
def ofRaw (raw : String) : String :=
  Utf8.decodeLossy (rawBytes raw)

/-- The path of a file that is named in a directory. An empty name names nothing. -/
def fileIn (directory : Path) (raw : String) : Path :=
  if raw.isEmpty then ⟨""⟩ else directory.join (ofRaw raw)

end Pagewright.Shell
