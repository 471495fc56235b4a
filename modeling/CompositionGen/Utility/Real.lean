import CompositionGen.Text.Binary64
import CompositionGen.Utility.Span

/-!
# Real numbers in formats

Numbers with decimals as utilities read and write them. A number is read to the nearest one with a
given count of significant bits, and written to a given count of digits; both are exact, and a tie
goes to the even neighbour.
-/

namespace CompositionGen.Utility

/-- A number without its sign. -/
inductive RealMagnitude where
  | finite (num den : Nat)
  | infinite
  | undefined
  deriving DecidableEq, Inhabited, Repr

structure RealNumber where
  negative : Bool
  magnitude : RealMagnitude
  deriving DecidableEq, Inhabited, Repr

structure RealWidth where
  bits : Nat
  /-- How many of them the leading digit to base sixteen has. -/
  leading : Nat
  /-- Two to this power is too large. -/
  range : Nat
  deriving DecidableEq, Inhabited, Repr

namespace RealNumber

/-! ## Reading -/

/-- The nearest quotient with at most `bits` significant bits. -/
def rounded (bits num den : Nat) : RealMagnitude :=
  if num = 0 || den = 0 then .finite 0 1
  else
    let excess : Int := (num.log2 : Int) - den.log2 - bits
    let fits (s : Int) : Bool :=
      if 0 ≤ s then num < den * Nat.pow 2 (bits + s.toNat)
      else num * Nat.pow 2 s.natAbs < den * Nat.pow 2 bits
    let shift := if fits excess then excess else excess + 1
    if 0 ≤ shift then
      .finite (Binary64.roundQuotient num (den * Nat.pow 2 shift.toNat) * Nat.pow 2 shift.toNat) 1
    else .finite (Binary64.roundQuotient (num * Nat.pow 2 shift.natAbs) den)
      (Nat.pow 2 shift.natAbs)

/-- A number of digits times a power of a base, rounded, and whether it fits. What is too large is
infinite, what is far too small is zero. -/
def ofDigits (width : RealWidth) (value : Nat) (base : Nat) (exponent : Int) :
    RealMagnitude × Bool :=
  if value = 0 then (.finite 0 1, true)
  else if (width.range : Int) < exponent then (.infinite, false)
  else if exponent < -2 * (width.range + value.log2 : Int) then (.finite 0 1, false)
  else
    let r := if 0 ≤ exponent then rounded width.bits (value * Nat.pow base exponent.toNat) 1
      else rounded width.bits value (Nat.pow base exponent.natAbs)
    match r with
    | .finite num den =>
      if den * Nat.pow 2 width.range ≤ num then (.infinite, false)
      else (r, den ≤ num * Nat.pow 2 (width.range - 2))
    | r => (r, true)

/-- The number at the start of a text, whether it fits, and the text after it. -/
def read? (width : RealWidth) (text : List Char) : Option (RealNumber × Bool × List Char) :=
  let cs := text.dropWhile fun c => c = ' ' || ('\t' ≤ c && c ≤ '\r')
  let (negative, unsigned) := match cs with
    | '-' :: rest => (true, rest)
    | '+' :: rest => (false, rest)
    | rest => (false, rest)
  let lower := unsigned.map Char.toLower
  let hexadecimal := match lower with
    | '0' :: 'x' :: rest => readDigits? isHexadecimal 16 rest
    | _ => none
  let is (word : String) : Bool := word.toList.isPrefixOf lower
  if is "infinity" then some (⟨negative, .infinite⟩, true, unsigned.drop 8)
  else if is "inf" then some (⟨negative, .infinite⟩, true, unsigned.drop 3)
  else if is "nan" then some (⟨negative, .undefined⟩, true, unsigned.drop 3)
  else match hexadecimal with
    | some (value, places, rest) =>
      let (exponent, rest) := readExponent 'p' rest
      let (magnitude, fits) := ofDigits width value 2 (exponent - 4 * places)
      some (⟨negative, magnitude⟩, fits, rest)
    | none => (readDigits? Decimal.isDigit 10 unsigned).map fun (value, places, rest) =>
      let (exponent, rest) := readExponent 'e' rest
      let (magnitude, fits) := ofDigits width value 10 (exponent - places)
      (⟨negative, magnitude⟩, fits, rest)

/-! ## Writing -/

/-- The digits of a quotient with a fixed number of decimals; `alwaysPoint` keeps the point where
there are none. -/
def fixed (places : Nat) (alwaysPoint : Bool) (num den : Nat) : List Char :=
  let digits := Decimal.digitsOf (Binary64.roundQuotient (num * Nat.pow 10 places) den)
  let digits := List.replicate (places + 1 - digits.length) '0' ++ digits
  let whole := digits.take (digits.length - places)
  if places = 0 then whole ++ (if alwaysPoint then ['.'] else [])
  else whole ++ '.' :: digits.drop (digits.length - places)

/-- The first digits of a quotient, `places` after the leading one, and the power of ten of the
leading one. -/
def leadingDigits (places num den : Nat) : List Char × Int :=
  if num = 0 then (List.replicate (places + 1) '0', 0)
  else
    let place := Binary64.leadingPlace num den
    let shift : Int := (places : Int) - place
    let c := if 0 ≤ shift then Binary64.roundQuotient (num * Nat.pow 10 shift.toNat) den
      else Binary64.roundQuotient num (den * Nat.pow 10 shift.natAbs)
    let digits := Decimal.digitsOf c
    if digits.length ≤ places + 1 then (digits, place) else (digits.take (places + 1), place + 1)

def exponentText (e : Int) : List Char :=
  let digits := Decimal.digitsOf e.natAbs
  'e' :: (if e < 0 then '-' else '+') :: (List.replicate (2 - digits.length) '0' ++ digits)

def scientific (places : Nat) (alwaysPoint : Bool) (num den : Nat) : List Char :=
  let (digits, place) := leadingDigits places num den
  let rest := digits.drop 1
  digits.take 1 ++ (if rest.isEmpty && !alwaysPoint then [] else '.' :: rest) ++ exponentText place

/-- Decimals without the zeros at their end, and without a point where none are left. -/
def withoutZeros (cs : List Char) : List Char :=
  if cs.contains '.' then
    let kept := cs.reverse.dropWhile (· = '0')
    (if kept.head? = some '.' then kept.drop 1 else kept).reverse
  else cs

/-- The shorter of the two ways for a number of significant digits. -/
def general (significant : Nat) (alwaysPoint : Bool) (num den : Nat) : List Char :=
  let count := max significant 1
  let place := (leadingDigits (count - 1) num den).2
  let trim (cs : List Char) := if alwaysPoint then cs else withoutZeros cs
  if -4 ≤ place && place < count then
    trim (fixed ((count : Int) - 1 - place).toNat alwaysPoint num den)
  else
    let written := scientific (count - 1) alwaysPoint num den
    let mantissa := written.takeWhile (· ≠ 'e')
    trim mantissa ++ written.drop mantissa.length

/-- The power of two of the leading bit of a quotient that is not zero. -/
def binaryPlace (num den : Nat) : Int :=
  let place : Int := (num.log2 : Int) - den.log2
  let isReached := if 0 ≤ place then den * Nat.pow 2 place.toNat ≤ num
    else den ≤ num * Nat.pow 2 place.natAbs
  if isReached then place else place - 1

/-- The digits of a quotient to base sixteen, with a power of two. Without a precision there are
as many as there have to be. -/
def hexadecimal (width : RealWidth) (precision : Option Nat) (alwaysPoint : Bool)
    (num den : Nat) : List Char :=
  let places := precision.getD ((width.bits - width.leading + 3) / 4)
  let exponent : Int := if num = 0 then 0 else binaryPlace num den - (width.leading - 1 : Nat)
  let shift : Int := 4 * (places : Int) - exponent
  let value := if 0 ≤ shift then Binary64.roundQuotient (num * Nat.pow 2 shift.toNat) den
    else Binary64.roundQuotient num (den * Nat.pow 2 shift.natAbs)
  let digits := Nat.toDigits 16 value
  let digits := List.replicate (places + 1 - digits.length) '0' ++ digits
  let rest := digits.drop (digits.length - places)
  let rest := if precision.isSome then rest else (rest.reverse.dropWhile (· = '0')).reverse
  digits.take (digits.length - places)
    ++ (if rest.isEmpty && !alwaysPoint then [] else '.' :: rest)
    ++ 'p' :: (if exponent < 0 then '-' else '+') :: Decimal.digitsOf exponent.natAbs

def digits (width : RealWidth) (letter : Char) (precision : Option Nat) (alwaysPoint : Bool) :
    RealMagnitude → List Char
  | .infinite => "inf".toList
  | .undefined => "nan".toList
  | .finite num den =>
    let places := precision.getD 6
    match letter with
    | 'a' => hexadecimal width precision alwaysPoint num den
    | 'f' => fixed places alwaysPoint num den
    | 'e' => scientific places alwaysPoint num den
    | _ => general places alwaysPoint num den

end RealNumber

end CompositionGen.Utility
