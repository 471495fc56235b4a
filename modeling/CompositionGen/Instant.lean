import CompositionGen.Text.Blank
import CompositionGen.Text.Decimal

/-!
# Instants

A date and a time of day in universal time, to the minute, with the seconds of that minute. It is
read from a text with an offset from universal time; white space is allowed between the parts,
and a fraction of a second is not kept. An instant is written in one form only.
-/

namespace CompositionGen

structure Date where
  year : Int
  month : Nat
  day : Nat
  deriving DecidableEq, Inhabited, Repr

namespace Date

def isLeap (year : Int) : Bool := year % 4 = 0 && (year % 100 ≠ 0 || year % 400 = 0)

def daysIn (year : Int) (month : Nat) : Nat :=
  if month = 2 then if isLeap year then 29 else 28
  else if [4, 6, 9, 11].contains month then 30
  else 31

def firstYear : Int := -262143

def lastYear : Int := 262142

def isYear (year : Int) : Bool := firstYear ≤ year && year ≤ lastYear

def of? (year : Int) (month day : Nat) : Option Date :=
  if isYear year && 1 ≤ month && month ≤ 12 && 1 ≤ day && day ≤ daysIn year month then
    some ⟨year, month, day⟩
  else none

def next? (d : Date) : Option Date :=
  if d.day < daysIn d.year d.month then some { d with day := d.day + 1 }
  else if d.month < 12 then some ⟨d.year, d.month + 1, 1⟩
  else of? (d.year + 1) 1 1

def previous? (d : Date) : Option Date :=
  if 1 < d.day then some { d with day := d.day - 1 }
  else if 1 < d.month then some ⟨d.year, d.month - 1, daysIn d.year (d.month - 1)⟩
  else of? (d.year - 1) 12 31

end Date

structure Instant where
  date : Date
  hour : Nat
  minute : Nat
  /-- The second of the minute; an inserted second is number sixty. -/
  second : Nat
  deriving DecidableEq, Inhabited, Repr

namespace Instant

def minutesPerDay : Nat := 1440

/-- The instant of a local date and time that is some minutes ahead of universal time. -/
def ofLocal? (date : Date) (hour minute second : Nat) (ahead : Int) : Option Instant := do
  let minutes : Int := (hour * 60 + minute : Nat) - ahead
  let date ← if minutes < 0 then date.previous?
    else if (minutesPerDay : Int) ≤ minutes then date.next?
    else some date
  let inDay := (minutes % minutesPerDay).toNat
  some ⟨date, inDay / 60, inDay % 60, second⟩

/-! ## Reading -/

/-- The text after the white space at its start. -/
def skipBlank (cs : List Char) : List Char := cs.dropWhile Text.isBlank

/-- A number of at most `width` digits after white space, and the text after it. -/
def number? (width : Nat) (cs : List Char) : Option (Nat × List Char) :=
  let cs := skipBlank cs
  let digits := (cs.take width).takeWhile Decimal.isDigit
  if digits.isEmpty then none else some (Decimal.value digits, cs.drop digits.length)

/-- A year after white space: up to four digits, or any number of them after a sign. -/
def year? (cs : List Char) : Option (Int × List Char) :=
  match skipBlank cs with
  | '-' :: rest =>
    if rest.head?.any Decimal.isDigit then
      (number? rest.length rest).map fun (n, rest) => (-(n : Int), rest)
    else none
  | '+' :: rest =>
    if rest.head?.any Decimal.isDigit then
      (number? rest.length rest).map fun (n, rest) => ((n : Int), rest)
    else none
  | cs => (number? 4 cs).map fun (n, rest) => ((n : Int), rest)

/-- The text after a mark, before which white space may stand. -/
def after? (mark : Char) (cs : List Char) : Option (List Char) :=
  match skipBlank cs with
  | c :: rest => if c = mark then some rest else none
  | [] => none

def date? (cs : List Char) : Option (Date × List Char) := do
  let (year, cs) ← year? cs
  let (month, cs) ← number? 2 (← after? '-' cs)
  let (day, cs) ← number? 2 (← after? '-' cs)
  some (← Date.of? year month day, cs)

def afterSeparator? : List Char → Option (List Char)
  | c :: rest => if c = 'T' || c = 't' || c = ' ' then some rest else none
  | [] => none

def afterFraction? (cs : List Char) : Option (List Char) :=
  match cs with
  | '.' :: rest =>
    if rest.head?.any Decimal.isDigit then some (rest.dropWhile Decimal.isDigit) else none
  | _ => some cs

/-- A number of two digits below a bound, and the text after it. -/
def twoDigits? (bound : Nat) : List Char → Option (Nat × List Char)
  | a :: b :: rest =>
    let n := Decimal.value [a, b]
    if Decimal.isDigit a && Decimal.isDigit b && n < bound then some (n, rest) else none
  | _ => none

/-- How many minutes an offset is ahead, and the text after it; `sign` has been read. -/
def signedOffset? (sign : Int) (cs : List Char) : Option (Int × List Char) := do
  let (hours, cs) ← twoDigits? 24 cs
  let (minutes, cs) ← twoDigits? 60 (cs.dropWhile fun c => c = ':' || Text.isBlank c)
  some (sign * ((hours * 60 + minutes : Nat) : Int), cs)

/-- The name of universal time, in capitals. -/
def universalName : List Char := "UTC".toList

/-- How many minutes an offset is ahead, and the text after it. -/
def offset? (cs : List Char) : Option (Int × List Char) :=
  if (cs.take 3).map Char.toUpper = universalName then some (0, cs.drop 3)
  else match cs with
    | c :: rest =>
      if c = 'Z' || c = 'z' then some (0, rest)
      else if c = '+' then signedOffset? 1 rest
      else if c = '-' || c = '\u2212' then signedOffset? (-1) rest
      else none
    | [] => none

def parse? (text : String) : Option Instant := do
  let (date, cs) ← date? text.toList
  let (hour, cs) ← number? 2 (← afterSeparator? cs)
  let (minute, cs) ← number? 2 (← after? ':' cs)
  let (second, cs) ← number? 2 (← after? ':' cs)
  if 24 ≤ hour || 60 ≤ minute || 60 < second then none
  let (ahead, cs) ← offset? (skipBlank (← afterFraction? cs))
  if (skipBlank cs).isEmpty then ofLocal? date hour minute second ahead else none

/-! ## Writing -/

def padded (width n : Nat) : List Char :=
  let digits := Decimal.digitsOf n
  List.replicate (width - digits.length) '0' ++ digits

/-- A year with at least four digits, and with a sign if it needs other than four. -/
def yearText (year : Int) : List Char :=
  let sign := if year < 0 then ['-'] else if 9999 < year then ['+'] else []
  sign ++ padded 4 year.natAbs

def text (i : Instant) : String :=
  String.ofList (yearText i.date.year ++ '-' :: padded 2 i.date.month ++ '-' :: padded 2 i.date.day
    ++ 'T' :: padded 2 i.hour ++ ':' :: padded 2 i.minute ++ ':' :: padded 2 i.second ++ ['Z'])

end Instant

end CompositionGen
