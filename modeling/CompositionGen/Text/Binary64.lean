import CompositionGen.Text.Decimal

/-!
# 64-bit floats as exact values

A finite float is m · 2^q with natural m; everything here is exact arithmetic on such pairs.
`ofRatio?` rounds a quotient to the nearest float, ties to the even significand. `scaled?` reads
a decimal in two roundings: the significand, then the product with a power of ten.
`text` gives the fewest digits that read back.
-/

namespace CompositionGen

structure Binary64 where
  bits : UInt64
  deriving DecidableEq, Inhabited, Repr

namespace Binary64

/-- Whether the sign bit is set; zero has a sign too. -/
def isNegative (f : Binary64) : Bool := f.bits.toNat ≥ Nat.pow 2 63

/-- The bits below the sign. -/
def magnitudeBits (f : Binary64) : Nat := f.bits.toNat % Nat.pow 2 63

/-- Significand and exponent of the value: it is m · 2^(q - 1074). -/
def parts (f : Binary64) : Nat × Nat :=
  let exponent := f.magnitudeBits / Nat.pow 2 52
  let fraction := f.magnitudeBits % Nat.pow 2 52
  if exponent = 0 then (fraction, 0) else (Nat.pow 2 52 + fraction, exponent - 1)

/-- The magnitude as a quotient of naturals. -/
def ratio (f : Binary64) : Nat × Nat :=
  let (m, q) := f.parts
  if 1074 ≤ q then (m * Nat.pow 2 (q - 1074), 1) else (m, Nat.pow 2 (1074 - q))

/-- Rounds a quotient to the nearest natural, a tie to the even one. -/
def roundQuotient (num den : Nat) : Nat :=
  let low := num / den
  let twice := 2 * (num % den)
  if twice < den then low
  else if den < twice then low + 1
  else low + low % 2

/-- Magnitude bits of the float nearest to `num / den`. The exponent is chosen so that the
significand has 53 bits, or is the least there is; a carry of the rounding moves on to the next
exponent by itself because the bit fields are adjacent. -/
def nearestBits (num den : Nat) : Nat :=
  if num = 0 then 0
  else
    -- 2^shift is at most one binary place off the spacing of floats near the quotient
    let shift : Int := (num.log2 : Int) - den.log2 - 52
    let fits (s : Int) : Bool :=
      if 0 ≤ s then num ≥ den * Nat.pow 2 (52 + s.toNat)
      else num * Nat.pow 2 (-s).toNat ≥ den * Nat.pow 2 52
    let shift := if fits shift then shift else shift - 1
    let shift := if shift < -1074 then -1074 else shift
    let m :=
      if 0 ≤ shift then roundQuotient num (den * Nat.pow 2 shift.toNat)
      else roundQuotient (num * Nat.pow 2 (-shift).toNat) den
    (shift + 1074).toNat * Nat.pow 2 52 + m

/-- The float nearest to a quotient, if it is finite. -/
def ofRatio? (negative : Bool) (num den : Nat) : Option Binary64 :=
  let bits := nearestBits num den
  if bits < 2047 * Nat.pow 2 52 then
    some ⟨UInt64.ofNat (if negative then Nat.pow 2 63 + bits else bits)⟩
  else none

/-- Product or quotient of a magnitude and the float nearest to a power of ten. -/
def scaleBy? (f : Binary64) (exponent : Int) : Option Binary64 := do
  let power ← ofRatio? false (Nat.pow 10 exponent.natAbs) 1
  let (num, den) := f.ratio
  let (pnum, pden) := power.ratio
  if 0 ≤ exponent then ofRatio? false (num * pnum) (den * pden)
  else ofRatio? false (num * pden) (den * pnum)

/-- Divides by 10^308 while the exponent is below -308, stopping at zero. -/
def scaleDown? (f : Binary64) (exponent : Int) : Nat → Option Binary64
  | 0 => some f
  | steps + 1 =>
    if f.magnitudeBits = 0 then some f
    else if -308 ≤ exponent then f.scaleBy? exponent
    else do
      let g ← f.scaleBy? (-308)
      scaleDown? g (exponent + 308) steps

/-- The magnitude of `significand` · 10^`exponent`: the significand is rounded first, the
product with the power of ten second. A product that is not finite is refused. -/
def scaled? (significand : Nat) (exponent : Int) : Option Binary64 := do
  let f ← ofRatio? false significand 1
  if exponent ≤ 308 then scaleDown? f exponent 5
  else if significand = 0 then some f else none

/-- The same value with the sign set. -/
def negate (f : Binary64) : Binary64 := ⟨f.bits ||| 0x8000000000000000⟩

/-! ## Shortest digits -/

/-- The power of ten of the leading digit of a positive quotient. -/
def leadingPlace (num den : Nat) : Int :=
  if den ≤ num then ((Nat.toDigits 10 (num / den)).length : Int) - 1
  else -((Nat.toDigits 10 ((den - 1) / num)).length : Int)

/-- The interval of quotients that round to a positive float, as numerators over one
denominator, with whether its ends belong to it. -/
structure Interval where
  low : Nat
  exact : Nat
  high : Nat
  den : Nat
  closed : Bool

/-- The quotients that read back as `f`. Below a power of two the spacing is half as wide. -/
def interval (f : Binary64) : Interval :=
  let (m, q) := f.parts
  let below := if m = Nat.pow 2 52 ∧ 0 < q then 1 else 2
  let scale (n : Nat) : Nat := if 1074 ≤ q then n * Nat.pow 2 (q - 1074) else n
  ⟨scale (4 * m - below), scale (4 * m), scale (4 * m + 2),
    if 1074 ≤ q then 4 else 4 * Nat.pow 2 (1074 - q), m % 2 == 0⟩

/-- Whether c · 10^k lies in the interval. -/
def Interval.contains (i : Interval) (c : Nat) (k : Int) : Bool :=
  let num := if 0 ≤ k then c * Nat.pow 10 k.toNat * i.den else c * i.den
  let unit := if 0 ≤ k then 1 else Nat.pow 10 (-k).toNat
  if i.closed then i.low * unit ≤ num && num ≤ i.high * unit
  else i.low * unit < num && num < i.high * unit

/-- The point of the grid of step 10^k that reads back, the nearer one if two do. -/
def Interval.onGrid? (i : Interval) (k : Int) : Option Nat :=
  let num := if 0 ≤ k then i.exact else i.exact * Nat.pow 10 (-k).toNat
  let den := if 0 ≤ k then i.den * Nat.pow 10 k.toNat else i.den
  let c := num / den
  let nearest := roundQuotient num den
  if i.contains nearest k then some nearest
  else if i.contains c k then some c
  else if i.contains (c + 1) k then some (c + 1)
  else none

/-- The first grid from step 10^k downwards that has a point reading back. -/
def Interval.search (i : Interval) (k : Int) : Nat → Nat × Int
  | 0 => (0, 0)
  | steps + 1 =>
    match i.onGrid? k with
    | some c => (c, k)
    | none => i.search (k - 1) steps

/-- Moves trailing zeros of the significand into the exponent. -/
def dropZeros (c : Nat) (k : Int) : Nat → Nat × Int
  | 0 => (c, k)
  | steps + 1 => if c ≠ 0 ∧ c % 10 = 0 then dropZeros (c / 10) (k + 1) steps else (c, k)

/-- The shortest decimal c · 10^k that reads back as a positive float. Seventeen digits always
suffice. -/
def shortest (f : Binary64) : Nat × Int :=
  let i := f.interval
  let (c, k) := i.search (leadingPlace i.exact i.den) 20
  dropZeros c k 20

/-- What a format decides about the text of a float. -/
structure Layout where
  /-- What stands before an exponent that is not negative. -/
  plus : List Char := []
  deriving DecidableEq, Inhabited, Repr

/-- Digits of a positive decimal c · 10^k: positional up to 10^16 and down to 10^-5, and always
with a fractional part there; with an exponent beyond. -/
def Layout.digits (layout : Layout) (c : Nat) (k : Int) : List Char :=
  let digits := Decimal.digitsOf c
  let point : Int := digits.length + k
  if 0 ≤ k && point ≤ 16 then digits ++ List.replicate k.toNat '0' ++ ['.', '0']
  else if 0 < point && point ≤ 16 then
    digits.take point.toNat ++ '.' :: digits.drop point.toNat
  else if -5 < point && point ≤ 0 then
    ['0', '.'] ++ List.replicate (-point).toNat '0' ++ digits
  else
    let exponent := point - 1
    let sign := if exponent < 0 then ['-'] else layout.plus
    let tail := 'e' :: (sign ++ Decimal.digitsOf exponent.natAbs)
    match digits with
    | [d] => d :: tail
    | d :: ds => d :: '.' :: (ds ++ tail)
    | [] => tail

def text (f : Binary64) (layout : Layout) : String :=
  let magnitude :=
    if f.magnitudeBits = 0 then ['0', '.', '0']
    else
      let (c, k) := f.shortest
      layout.digits c k
  String.ofList (if f.isNegative then '-' :: magnitude else magnitude)

end Binary64

end CompositionGen
