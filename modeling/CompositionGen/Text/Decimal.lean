/-!
# Decimal digits

Reading a run of ASCII digits as a number, and reading a whole text as an unsigned number below
a bound.
-/

namespace CompositionGen.Decimal

/-- An ASCII digit; no other script's digits count. -/
def isDigit (c : Char) : Bool := '0' ≤ c && c ≤ '9'

def digit (c : Char) : Nat := c.toNat - '0'.toNat

/-- Continues a number with the digits of `cs`, most significant first. -/
def extend (value : Nat) (cs : List Char) : Nat :=
  cs.foldl (fun acc c => acc * 10 + digit c) value

/-- Value of a run of digits, most significant first; leading zeros are harmless. -/
def value (cs : List Char) : Nat := extend 0 cs

/-- A non-empty run of digits. -/
def isNumeral (cs : List Char) : Bool := !cs.isEmpty && cs.all isDigit

/-- Numbers of 64 bits are below this: two to the power of 64. -/
def wordBound : Nat := 18446744073709551616

/-- Two to the power of 63: signed numbers of 64 bits reach from minus this up to below it. -/
def signBound : Nat := 9223372036854775808

/-- Reads an unsigned number below `bound`: an optional `+`, then digits alone. -/
def readBelow? (bound : Nat) (text : String) : Option Nat :=
  let digits := match text.toList with
    | '+' :: rest => rest
    | cs => cs
  if isNumeral digits && value digits < bound then some (value digits) else none

/-- The decimal digits of a number without leading zeros, as characters. -/
def digitsOf (n : Nat) : List Char := Nat.toDigits 10 n

end CompositionGen.Decimal
