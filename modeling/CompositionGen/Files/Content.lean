import CompositionGen.Library.Export
import CompositionGen.Text.Utf8

/-!
# File contents

What a file holds, piece by piece: a byte, or a whole compiled library. The bytes of a library are
not spelled out, so that no bytes written one by one make up a library, but it can be read,
written and copied like them.
-/

namespace CompositionGen

inductive Cell where
  | byte (value : UInt8)
  /-- A compiled library; it may export no declaration. -/
  | library (declared : Option LibraryExport)
  deriving DecidableEq, Inhabited, Repr

/-- The byte that a cell counts as: a library counts as one that is in no text. -/
def Cell.toByte : Cell → UInt8
  | byte value => value
  | library _ => 0xFF

abbrev Content := List Cell

namespace Content

def ofBytes (bytes : List UInt8) : Content := bytes.map .byte

def ofText (text : String) : Content := ofBytes (Utf8.encode text)

def toBytes (content : Content) : List UInt8 := content.map Cell.toByte

def text? (content : Content) : Option String := Utf8.decode? content.toBytes

def library? : Content → Option (Option LibraryExport)
  | .library declared :: _ => some declared
  | _ => none

end Content

end CompositionGen
