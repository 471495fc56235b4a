import CompositionGen.Text.Decimal

/-!
# Escapes

What a backslash and the characters after it stand for in the texts that utilities write. The
utilities differ in whether hexadecimal digits and the quotation mark can be written so, in how
octal digits are marked, and in whether an escape without the digits it needs is refused.
-/

namespace CompositionGen.Utility

structure EscapeRules where
  /-- Whether an `x` is followed by at most two hexadecimal digits. -/
  hexadecimal : Bool := false
  /-- Whether a quotation mark stands for itself. -/
  mark : Bool := false
  /-- Whether a zero is followed by at most three octal digits more. -/
  zero : Bool := false
  /-- Whether a `c` ends all that is written. -/
  stops : Bool := false
  /-- Whether hexadecimal digits that are missing are refused, and a `u` is followed by the number
  of a character. -/
  strict : Bool := false
  deriving DecidableEq, Inhabited, Repr

inductive Escaped where
  /-- Some text, with what follows the escape. -/
  | text (chars rest : List Char)
  /-- The end of all that is written. -/
  | stop
  | fault (problem : String)
  deriving DecidableEq, Inhabited, Repr

def letterEscape? (c : Char) : Option Nat :=
  match c with
  | 'a' => some 7
  | 'b' => some 8
  | 't' => some 9
  | 'n' => some 10
  | 'v' => some 11
  | 'f' => some 12
  | 'r' => some 13
  | 'e' => some 27
  | '\\' => some 92
  | _ => none

def isOctal (c : Char) : Bool := '0' ≤ c && c ≤ '7'

def isHexadecimal (c : Char) : Bool :=
  Decimal.isDigit c || ('a' ≤ c.toLower && c.toLower ≤ 'f')

def hexadecimalDigit (c : Char) : Nat :=
  if Decimal.isDigit c then Decimal.digit c else c.toLower.toNat - 'a'.toNat + 10

/-- The byte of digits to a base; what does not fit is lost. -/
def byteOf (base : Nat) (digits : List Char) : Char :=
  Char.ofNat (digits.foldl (fun n c => n * base + hexadecimalDigit c) 0 % 256)

/-- The character of a number of `count` hexadecimal digits. A half of a pair is refused, and a
character that is no byte of plain text keeps its number. -/
def numberedCharacter (letter : Char) (count : Nat) (cs : List Char) : Escaped :=
  let digits := (cs.take count).takeWhile isHexadecimal
  let value := digits.foldl (fun n c => n * 16 + hexadecimalDigit c) 0
  let named := '\\' :: letter :: digits
  if digits.length < count then .fault "missing hexadecimal number in escape"
  else if 0xd800 ≤ value && value ≤ 0xdfff then
    .fault ("invalid universal character name " ++ String.ofList named)
  else if value < 0x80 then .text [Char.ofNat value] (cs.drop count)
  else
    let long := 0xffff < value
    let shown := (Nat.toDigits 16 value).map Char.toUpper
    .text ('\\' :: (if long then 'U' else 'u') ::
      (List.replicate ((if long then 8 else 4) - shown.length) '0' ++ shown)) (cs.drop count)

def escape (rules : EscapeRules) : List Char → Escaped
  | [] => .text ['\\'] []
  | c :: rest =>
    if rules.stops && c = 'c' then .stop
    else if rules.zero && c = '0' then
      let digits := (rest.take 3).takeWhile isOctal
      .text [byteOf 8 digits] (rest.drop digits.length)
    else if isOctal c then
      let digits := ((c :: rest).take 3).takeWhile isOctal
      .text [byteOf 8 digits] ((c :: rest).drop digits.length)
    else if rules.hexadecimal && c = 'x' && rest.head?.any isHexadecimal then
      let digits := (rest.take 2).takeWhile isHexadecimal
      .text [byteOf 16 digits] (rest.drop digits.length)
    else if rules.strict && c = 'x' then .fault "missing hexadecimal number in escape"
    else if rules.strict && c = 'u' then numberedCharacter c 4 rest
    else if rules.strict && c = 'U' then numberedCharacter c 8 rest
    else if rules.mark && c.toNat = 34 then .text [c] rest
    else match letterEscape? c with
      | some n => .text [Char.ofNat n] rest
      | none => .text ['\\', c] rest

structure Unescaped where
  chars : List Char := []
  stopped : Bool := false
  /-- What is wrong with an escape, after which nothing is written. -/
  fault : Option String := none
  deriving DecidableEq, Inhabited, Repr

def Unescaped.after (chars : List Char) (u : Unescaped) : Unescaped :=
  { u with chars := chars ++ u.chars }

/-- A text with its escapes replaced; `limit` bounds the steps. -/
def unescapeUpTo (rules : EscapeRules) : (limit : Nat) → List Char → Unescaped
  | 0, _ => {}
  | _ + 1, [] => {}
  | limit + 1, c :: rest =>
    if c ≠ '\\' then (unescapeUpTo rules limit rest).after [c]
    else match escape rules rest with
      | .stop => { stopped := true }
      | .fault problem => { stopped := true, fault := some problem }
      | .text cs rest => (unescapeUpTo rules limit rest).after cs

def unescape (rules : EscapeRules) (cs : List Char) : Unescaped :=
  unescapeUpTo rules (cs.length + 1) cs

end CompositionGen.Utility
