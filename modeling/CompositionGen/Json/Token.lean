import CompositionGen.Text.Decimal

/-!
# JSON tokens

A JSON text is read one character at a time: `Scan.step` carries a token under way, and `scan`
folds it over the text. A number's characters are gathered first and then checked against the
grammar of numerals by `Numeral.read?`. A string may hold `\u` escapes that pair up to no
character; such a string is a token without a text.
-/

namespace CompositionGen.Json

structure Numeral where
  negative : Bool
  /-- Digits before the point. -/
  whole : List Char
  /-- Digits after the point; empty when there is no point. -/
  fraction : List Char
  /-- The power of ten, if one is given. -/
  exponent : Option Int
  deriving DecidableEq, Repr

/-- Reads a power of ten: an optional sign and digits. -/
def Numeral.exponent? (cs : List Char) : Option Int :=
  let (negative, digits) := match cs with
    | '-' :: rest => (true, rest)
    | '+' :: rest => (false, rest)
    | _ => (false, cs)
  if Decimal.isNumeral digits then
    some (if negative then -(Decimal.value digits : Int) else Decimal.value digits)
  else none

/-- Reads a numeral: no leading zeros, and digits on both sides of a point. -/
def Numeral.read? (cs : List Char) : Option Numeral := do
  let (negative, cs) := match cs with
    | '-' :: rest => (true, rest)
    | _ => (false, cs)
  let whole := cs.takeWhile Decimal.isDigit
  if whole.isEmpty || (whole.head? = some '0' && whole ≠ ['0']) then none
  let rest := cs.dropWhile Decimal.isDigit
  let (fraction, rest) ← match rest with
    | '.' :: rest =>
      let fraction := rest.takeWhile Decimal.isDigit
      if fraction.isEmpty then none else some (fraction, rest.dropWhile Decimal.isDigit)
    | _ => some ([], rest)
  match rest with
  | [] => some ⟨negative, whole, fraction, none⟩
  | c :: rest =>
    if c = 'e' ∨ c = 'E' then do
      let e ← Numeral.exponent? rest
      some ⟨negative, whole, fraction, some e⟩
    else none

inductive Token where
  | openArray
  | closeArray
  | openObject
  | closeObject
  | comma
  | colon
  | null
  | bool (b : Bool)
  | number (n : Numeral)
  /-- A string; `none` when an escape in it names half a character. -/
  | string (s : Option String)
  deriving DecidableEq, Repr

namespace Scan

/-- A string's content: a character, or a code unit given by an escape. -/
inductive Piece where
  | char (c : Char)
  | unit (n : Nat)

/-- The text of a string's content: a unit of the first half of a pair needs one of the second
half right behind it. -/
def assemble : List Piece → Option (List Char)
  | [] => some []
  | .char c :: rest => (assemble rest).map (c :: ·)
  | .unit n :: rest =>
    if 0xDC00 ≤ n ∧ n ≤ 0xDFFF then none
    else if 0xD800 ≤ n ∧ n ≤ 0xDBFF then
      match rest with
      | .unit m :: rest =>
        if 0xDC00 ≤ m ∧ m ≤ 0xDFFF then
          (assemble rest).map (Char.ofNat (0x10000 + (n - 0xD800) * 0x400 + (m - 0xDC00)) :: ·)
        else none
      | _ => none
    else (assemble rest).map (Char.ofNat n :: ·)

/-- The token under way; gathered parts are in reverse. -/
inductive Mode where
  | start
  | word (acc : List Char)
  | number (acc : List Char)
  | string (acc : List Piece)
  | escape (acc : List Piece)
  | hex (acc : List Piece) (digits value : Nat)

def isSpace (c : Char) : Bool := c = ' ' || c = '\t' || c = '\n' || c = '\r'

def isNumeric (c : Char) : Bool :=
  Decimal.isDigit c || c = '-' || c = '+' || c = '.' || c = 'e' || c = 'E'

def wordToken? (acc : List Char) : Option Token :=
  match acc.reverse with
  | ['n', 'u', 'l', 'l'] => some .null
  | ['t', 'r', 'u', 'e'] => some (.bool true)
  | ['f', 'a', 'l', 's', 'e'] => some (.bool false)
  | _ => none

def begin? (tokens : List Token) (c : Char) : Option (List Token × Mode) :=
  if isSpace c then some (tokens, .start)
  else match c with
    | '[' => some (.openArray :: tokens, .start)
    | ']' => some (.closeArray :: tokens, .start)
    | '{' => some (.openObject :: tokens, .start)
    | '}' => some (.closeObject :: tokens, .start)
    | ',' => some (.comma :: tokens, .start)
    | ':' => some (.colon :: tokens, .start)
    | '"' => some (tokens, .string [])
    | c =>
      if Decimal.isDigit c || c = '-' then some (tokens, .number [c])
      else if c.isLower then some (tokens, .word [c])
      else none

/-- Ends a token that has no closing mark of its own. -/
def finish? (tokens : List Token) : Mode → Option (List Token)
  | .start => some tokens
  | .word acc => (wordToken? acc).map (· :: tokens)
  | .number acc => (Numeral.read? acc.reverse).map (.number · :: tokens)
  | _ => none

def shortEscape? : Char → Option Char
  | '"' => some '"'
  | '\\' => some '\\'
  | '/' => some '/'
  | 'b' => some '\x08'
  | 'f' => some '\x0c'
  | 'n' => some '\n'
  | 'r' => some '\r'
  | 't' => some '\t'
  | _ => none

/-- Value of a hexadecimal digit. -/
def hexDigit? (c : Char) : Option Nat :=
  if Decimal.isDigit c then some (Decimal.digit c)
  else if 'a' ≤ c ∧ c ≤ 'f' then some (c.toNat - 'a'.toNat + 10)
  else if 'A' ≤ c ∧ c ≤ 'F' then some (c.toNat - 'A'.toNat + 10)
  else none

/-- Reads one character: the tokens so far are in reverse. -/
def step (tokens : List Token) (mode : Mode) (c : Char) : Option (List Token × Mode) :=
  match mode with
  | .start => begin? tokens c
  | .word acc =>
    if c.isLower then some (tokens, .word (c :: acc))
    else do begin? (← finish? tokens mode) c
  | .number acc =>
    if isNumeric c then some (tokens, .number (c :: acc))
    else do begin? (← finish? tokens mode) c
  | .string acc =>
    if c = '"' then some (.string ((assemble acc.reverse).map String.ofList) :: tokens, .start)
    else if c = '\\' then some (tokens, .escape acc)
    else if c.toNat < 0x20 then none
    else some (tokens, .string (.char c :: acc))
  | .escape acc =>
    if c = 'u' then some (tokens, .hex acc 0 0)
    else do some (tokens, .string (.char (← shortEscape? c) :: acc))
  | .hex acc digits value => do
    let value := value * 16 + (← hexDigit? c)
    if digits = 3 then some (tokens, .string (.unit value :: acc))
    else some (tokens, .hex acc (digits + 1) value)

end Scan

def scan? (cs : List Char) : Option (List Token) := do
  let (tokens, mode) ← cs.foldlM (fun (tokens, mode) c => Scan.step tokens mode c) ([], .start)
  (Scan.finish? tokens mode).map List.reverse

end CompositionGen.Json
