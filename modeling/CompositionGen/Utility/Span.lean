import CompositionGen.Utility.Escape

/-!
# Spans of time

The spans that `sleep` reads: a number, perhaps with decimals, an exponent or to the base sixteen,
and perhaps a letter for its unit. A number without bound is a span without end.
-/

namespace CompositionGen.Utility

def second : Nat := 1000000000

/-- Nanoseconds that nobody waits for: some ten thousand years. -/
def endless : Nat := 300000000000 * second

/-- Digits with a point between them at the start of a text: their value, how many of them stand
after the point, and the text after them. -/
def readDigits? (isDigit : Char → Bool) (base : Nat) (cs : List Char) :
    Option (Nat × Nat × List Char) :=
  let whole := cs.takeWhile isDigit
  let (fraction, rest) := match cs.drop whole.length with
    | '.' :: rest => (rest.takeWhile isDigit, rest.dropWhile isDigit)
    | rest => ([], rest)
  if whole.isEmpty && fraction.isEmpty then none
  else
    let value := (whole ++ fraction).foldl (fun n c => n * base + hexadecimalDigit c) 0
    some (value, fraction.length, rest)

/-- The exponent after a letter, and the text after it; what is no exponent is left. -/
def readExponent (letter : Char) (cs : List Char) : Int × List Char :=
  match cs with
  | c :: rest =>
    let (negative, unsigned) := match rest with
      | '-' :: rest => (true, rest)
      | '+' :: rest => (false, rest)
      | rest => (false, rest)
    let digits := unsigned.takeWhile Decimal.isDigit
    if c.toLower = letter && !digits.isEmpty then
      let n : Int := Decimal.value digits
      (if negative then -n else n, unsigned.drop digits.length)
    else (0, cs)
  | [] => (0, [])

/-- A number times a power, as far as a span may reach. -/
def scaled (n base : Nat) (exponent : Int) : Nat :=
  if n = 0 then 0
  else if exponent < 0 then
    if exponent < -4096 then 0 else n / Nat.pow base exponent.natAbs
  else if 128 < exponent then endless
  else min endless (n * Nat.pow base exponent.toNat)

/-- The nanoseconds of a number of seconds at the start of a text, and the text after it. -/
def readSeconds? (cs : List Char) : Option (Nat × List Char) :=
  let lower := cs.map Char.toLower
  let hexadecimal := match lower with
    | '0' :: 'x' :: rest => readDigits? isHexadecimal 16 rest
    | _ => none
  if "infinity".toList.isPrefixOf lower then some (endless, cs.drop 8)
  else if "inf".toList.isPrefixOf lower then some (endless, cs.drop 3)
  else match hexadecimal with
    | some (value, places, rest) =>
      let (exponent, rest) := readExponent 'p' rest
      some (scaled (value * second) 2 (exponent - 4 * places), rest)
    | none => (readDigits? Decimal.isDigit 10 cs).map fun (value, places, rest) =>
      let (exponent, rest) := readExponent 'e' rest
      (scaled (value * second) 10 (exponent - places), rest)

def unitOf? : List Char → Option Nat
  | [] | ['s'] => some 1
  | ['m'] => some 60
  | ['h'] => some 3600
  | ['d'] => some 86400
  | _ => none

def readSpan? (text : String) : Option Nat :=
  let cs := text.toList.dropWhile fun c => c = ' ' || ('\t' ≤ c && c ≤ '\r')
  let (negative, unsigned) := match cs with
    | '-' :: rest => (true, rest)
    | '+' :: rest => (false, rest)
    | cs => (false, cs)
  match readSeconds? unsigned with
  | none => none
  | some (n, rest) =>
    if negative && n ≠ 0 then none else (unitOf? rest).map fun unit => min endless (n * unit)

end CompositionGen.Utility
