import CompositionGen.Text.Binary64

/-!
# Texts that read as YAML numbers

A plain scalar that spells a number would be read back as one, so a text that does has to be
quoted. Integers may have a sign and a base mark and fit 128 bits; floats are decimal numerals of
finite value, or the names of infinity and of no number. A run of digits with a leading zero is
no number.
-/

namespace CompositionGen.Yaml

def digit? (base : Nat) (c : Char) : Option Nat :=
  let value :=
    if Decimal.isDigit c then some (Decimal.digit c)
    else if 'a' ≤ c ∧ c ≤ 'f' then some (c.toNat - 'a'.toNat + 10)
    else if 'A' ≤ c ∧ c ≤ 'F' then some (c.toNat - 'A'.toNat + 10)
    else none
  value.filter (· < base)

/-- Value of a non-empty run of digits of a base. -/
def natural? (base : Nat) (cs : List Char) : Option Nat :=
  if cs.isEmpty then none
  else cs.foldlM (fun value c => (digit? base c).map (value * base + ·)) 0

/-- A run of digits after an optional sign that begins with a superfluous zero. -/
def hasLeadingZero (cs : List Char) : Bool :=
  let digits := match cs with
    | '-' :: rest | '+' :: rest => rest
    | _ => cs
  digits.length > 1 && digits.head? == some '0' && digits.all Decimal.isDigit

/-- The magnitude of an integer without its sign: decimal, or with a base mark. -/
def magnitude? (cs : List Char) : Option Nat :=
  match cs with
  | '0' :: 'x' :: rest => natural? 16 rest
  | '0' :: 'o' :: rest => natural? 8 rest
  | '0' :: 'b' :: rest => natural? 2 rest
  | _ => natural? 10 cs

/-- Whether a text reads as an integer of at most 128 bits. -/
def isInteger (cs : List Char) : Bool :=
  if hasLeadingZero cs then false
  else match cs with
    | '-' :: rest => (magnitude? rest).any (· ≤ Nat.pow 2 127)
    | '+' :: rest => (magnitude? rest).any (· < Nat.pow 2 128)
    | _ => (magnitude? cs).any (· < Nat.pow 2 128)

/-- Whether digits scaled by a power of ten are of finite value as a 64-bit float. -/
def isFinite (digits : List Char) (exponent : Int) : Bool :=
  let digits := digits.dropWhile (· == '0')
  -- the value lies between 10^(place - 1) and 10^place
  let place := digits.length + exponent
  if digits.isEmpty || place < 309 then true
  else if 309 < place then false
  else
    let value := Decimal.value digits
    let ratio := if 0 ≤ exponent then (value * Nat.pow 10 exponent.toNat, 1)
      else (value, Nat.pow 10 (-exponent).toNat)
    (Binary64.ofRatio? false ratio.1 ratio.2).isSome

/-- Whether what follows the digits of a numeral is nothing or a power of ten; gives its power. -/
def exponent? (cs : List Char) : Option Int :=
  match cs with
  | [] => some 0
  | c :: rest =>
    if c = 'e' ∨ c = 'E' then
      match rest with
      | '-' :: digits =>
        if Decimal.isNumeral digits then some (-(Decimal.value digits : Int)) else none
      | '+' :: digits => if Decimal.isNumeral digits then some (Decimal.value digits) else none
      | digits => if Decimal.isNumeral digits then some (Decimal.value digits) else none
    else none

/-- Whether a text without sign is a decimal numeral of finite value. Either side of the point
may be empty, but not both. -/
def isDecimal (cs : List Char) : Bool :=
  let whole := cs.takeWhile Decimal.isDigit
  let rest := cs.dropWhile Decimal.isDigit
  let (fraction, rest) := match rest with
    | '.' :: rest => (rest.takeWhile Decimal.isDigit, rest.dropWhile Decimal.isDigit)
    | _ => ([], rest)
  let digits := whole ++ fraction
  match exponent? rest with
  | none => false
  | some exponent => !digits.isEmpty && isFinite digits (exponent - fraction.length)

/-- Whether a text reads as a float. -/
def isFloat (cs : List Char) : Bool :=
  let text := String.ofList cs
  if [".inf", ".Inf", ".INF", "+.inf", "+.Inf", "+.INF", "-.inf", "-.Inf", "-.INF",
      ".nan", ".NaN", ".NAN"].contains text then true
  else match cs with
    | '-' :: rest | '+' :: rest => isDecimal rest
    | _ => isDecimal cs

end CompositionGen.Yaml
