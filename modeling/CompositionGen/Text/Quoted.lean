import CompositionGen.Text.Unprintable

/-!
# Quoted text

The form in which reports quote a path, a name or a text: in double quotes, with the quote and
the backslash escaped, short escapes for the common control characters, and every other
character without a glyph of its own given by its code point.
-/

namespace CompositionGen.Text

/-- A code point in lower-case hexadecimal without padding, in braces. -/
def codePoint (c : Char) : List Char :=
  ['\\', 'u', '{'] ++ Nat.toDigits 16 c.toNat ++ ['}']

def quotedChar (c : Char) : List Char :=
  match c with
  | '"' => ['\\', '"']
  | '\\' => ['\\', '\\']
  | '\n' => ['\\', 'n']
  | '\r' => ['\\', 'r']
  | '\t' => ['\\', 't']
  | '\x00' => ['\\', '0']
  | c => if isUnprintable c then codePoint c else [c]

def quoted (text : String) : String :=
  String.ofList ('"' :: (text.toList.flatMap quotedChar ++ ['"']))

end CompositionGen.Text
