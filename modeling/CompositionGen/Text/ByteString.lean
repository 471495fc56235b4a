import CompositionGen.Text.Quoted
import CompositionGen.Text.Utf8

/-!
# Byte strings

Names of files and what programs are given may hold any bytes. A byte is kept as the character of
its number, so that byte strings can be handled as texts whether they are UTF-8 or not. A text that
has only ASCII characters is the byte string of its bytes.
-/

namespace CompositionGen

/-- A string with the character of its number for each byte. -/
abbrev ByteString := String

namespace ByteString

def ofBytes (bytes : List UInt8) : ByteString :=
  String.ofList (bytes.map fun b => Char.ofNat b.toNat)

/-- The bytes of a string. A character that is none counts as one that is in no text. -/
def bytes (s : ByteString) : List UInt8 := s.toList.map fun c => UInt8.ofNat (min c.toNat 0xFF)

def ofText (text : String) : ByteString := ofBytes (Utf8.encode text)

/-- The text that has these bytes, if they are UTF-8. -/
def text? (s : ByteString) : Option String := Utf8.decode? s.bytes

/-- The string as a text, with a mark for what is not UTF-8. -/
def display (s : ByteString) : String :=
  String.ofList ((Utf8.pieces s.bytes).map fun
    | .char c => c
    | .other _ => '\ufffd')

/-- The quoted form; what is not UTF-8 is given byte by byte. -/
def quoted (s : ByteString) : String :=
  String.ofList ('"' :: (Utf8.pieces s.bytes).flatMap quotedPiece ++ ['"'])
where
  quotedByte (b : UInt8) : List Char :=
    let digits := (Nat.toDigits 16 b.toNat).map Char.toUpper
    ['\\', 'x'] ++ List.replicate (2 - digits.length) '0' ++ digits
  quotedPiece : Utf8.Piece → List Char
    | .char c => Text.quotedChar c
    | .other bytes => bytes.flatMap quotedByte

end ByteString

end CompositionGen
