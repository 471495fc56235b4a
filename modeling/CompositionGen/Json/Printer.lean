import CompositionGen.Json

/-!
# Writing JSON values

The compact form has no white space; the pretty form puts each item and member on a line of its
own, indented by two spaces a level. Only the quote, the backslash and control characters are
escaped. Members are written in the order in which the value holds them.
-/

namespace CompositionGen.Json

def hex4 (n : Nat) : List Char :=
  let digits := Nat.toDigits 16 n
  List.replicate (4 - digits.length) '0' ++ digits

def escapeChar (c : Char) : List Char :=
  match c with
  | '"' => ['\\', '"']
  | '\\' => ['\\', '\\']
  | '\n' => ['\\', 'n']
  | '\r' => ['\\', 'r']
  | '\t' => ['\\', 't']
  | '\x08' => ['\\', 'b']
  | '\x0c' => ['\\', 'f']
  | c => if c.toNat < 0x20 then ['\\', 'u'] ++ hex4 c.toNat else [c]

def renderString (s : String) : String :=
  String.ofList ('"' :: (s.toList.flatMap escapeChar ++ ['"']))

/-- A number: an integer in full, a float in its shortest form. -/
def numberText (layout : Binary64.Layout) : Number → String
  | .int n => toString n
  | .float f => f.text layout

/-- A number in JSON, where an exponent always has a sign. -/
def renderNumber (n : Number) : String := numberText ⟨['+']⟩ n

mutual

def render : Json → String
  | .null => "null"
  | .bool true => "true"
  | .bool false => "false"
  | .number n => renderNumber n
  | .string s => renderString s
  | .array items => "[" ++ ",".intercalate (renderItems items) ++ "]"
  | .object members => "\x7b" ++ ",".intercalate (renderMembers members) ++ "\x7d"

def renderItems : List Json → List String
  | [] => []
  | x :: rest => render x :: renderItems rest

def renderMembers : List (String × Json) → List String
  | [] => []
  | (name, x) :: rest => (renderString name ++ ":" ++ render x) :: renderMembers rest

end

def bracketed (opening closing indent : String) (lines : List String) : String :=
  if lines.isEmpty then opening ++ closing
  else
    let inner := "\n" ++ indent ++ "  "
    opening ++ inner ++ ("," ++ inner).intercalate lines ++ "\n" ++ indent ++ closing

mutual

def prettyAt (indent : String) : Json → String
  | .array items => bracketed "[" "]" indent (prettyItems (indent ++ "  ") items)
  | .object members =>
    bracketed "\x7b" "\x7d" indent (prettyMembers (indent ++ "  ") members)
  | .null => "null"
  | .bool true => "true"
  | .bool false => "false"
  | .number n => renderNumber n
  | .string s => renderString s

def prettyItems (indent : String) : List Json → List String
  | [] => []
  | x :: rest => prettyAt indent x :: prettyItems indent rest

def prettyMembers (indent : String) : List (String × Json) → List String
  | [] => []
  | (name, x) :: rest =>
    (renderString name ++ ": " ++ prettyAt indent x) :: prettyMembers indent rest

end

def pretty (value : Json) : String := prettyAt "" value

end CompositionGen.Json
