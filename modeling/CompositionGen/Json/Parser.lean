import CompositionGen.Json
import CompositionGen.Json.Document

/-!
# Reading JSON values

A document becomes a value by reading its numerals, keeping the last of the members of one name,
and putting members in byte order. A numeral without point and exponent is an integer when it
fits 64 bits; `-0` and all other numerals are floats.
-/

namespace CompositionGen.Json

namespace Numeral

/-- The longest run of leading digits whose value fits 64 bits, and the digits dropped. -/
def significand (value : Nat) : List Char → Nat × List Char
  | [] => (value, [])
  | d :: rest =>
    let next := value * 10 + Decimal.digit d
    if next < Decimal.wordBound then significand next rest else (value, d :: rest)

/-- The float of a numeral: the leading digits that fit 64 bits, scaled by a power of ten. -/
def float? (n : Numeral) : Option Binary64 := do
  let (significand, dropped) := significand 0 (n.whole ++ n.fraction)
  let exponent := n.exponent.getD 0 + dropped.length - n.fraction.length
  let f ← Binary64.scaled? significand exponent
  some (if n.negative then f.negate else f)

/-- The integer of a numeral that has no point and no exponent and fits 64 bits. -/
def int? (n : Numeral) : Option Int :=
  if n.fraction.isEmpty && n.exponent.isNone then
    let magnitude := Decimal.value n.whole
    if n.negative then
      if 0 < magnitude ∧ magnitude ≤ Decimal.signBound then some (-(magnitude : Int)) else none
    else if magnitude < Decimal.wordBound then some magnitude else none
  else none

/-- The number that a numeral writes, unless it is too large. -/
def number? (n : Numeral) : Option Number :=
  match n.int? with
  | some i => some (.int i)
  | none => n.float?.map .float

end Numeral

/-- Members by name, the last of each name kept, in byte order. -/
def distinct (members : List (String × Json)) : List (String × Json) :=
  members.foldl (fun acc (name, value) => setMember name value acc) []

namespace Document

mutual

/-- The value of a document, if every string in it spells a text and every numeral a number. -/
def value? : Document → Option Json
  | .null => some .null
  | .bool b => some (.bool b)
  | .number n => n.number?.map .number
  | .string s => s.map .string
  | .array items => (values? items).map .array
  | .object members => (members? members).map fun ms => .object (distinct ms)

def values? : List Document → Option (List Json)
  | [] => some []
  | d :: rest => do some ((← value? d) :: (← values? rest))

def members? : List (Option String × Document) → Option (List (String × Json))
  | [] => some []
  | (name, d) :: rest => do some ((← name, ← value? d) :: (← members? rest))

end

end Document

def parse? (text : String) : Option Json := do (← Document.parse? text).value?

end CompositionGen.Json
