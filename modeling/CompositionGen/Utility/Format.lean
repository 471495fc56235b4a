import CompositionGen.Script.Arithmetic
import CompositionGen.Utility.Effect
import CompositionGen.Utility.Escape
import CompositionGen.Utility.Name
import CompositionGen.Utility.Real

/-!
# Formatted text

Writing arguments in a format: directives take one argument after another, and the format is gone
through again as long as that uses up arguments. The shell and the program of the same name differ
in their escapes and in how they complain.
-/

namespace CompositionGen.Utility

inductive FormatProblem where
  | notNumeric (arg : String)
  | notComplete (arg : String)
  | outOfRange (arg : String)
  | invalid (directive : String)
  /-- The format ends inside a directive. -/
  | unfinished (directive : String)
  | excess (arg : String)
  | badEscape (problem : String)
  deriving DecidableEq, Inhabited, Repr

/-- A directive: signs, the least number of characters, and a bound or a number of digits. -/
structure Directive where
  signs : List Char
  width : Nat := 0
  /-- Whether a precision is written, which may be one that does not count. -/
  hasPoint : Bool := false
  precision : Option Nat := none
  letter : Char
  deriving DecidableEq, Inhabited, Repr

structure FormatRules where
  outer : EscapeRules
  inner : EscapeRules
  /-- What is said about a problem; some go unsaid. -/
  message : FormatProblem → Option String
  /-- Status after a directive that is refused. -/
  refusal : Nat
  signs : List Char
  /-- Letters that may stand before the one of a directive and change nothing. -/
  modifiers : List Char := []
  /-- Whether a directive is accepted; it is `bare` if nothing stands before its letter. -/
  accepts : (bare : Bool) → Directive → Bool
  width : RealWidth

/-! ## Numbers -/

structure ReadNumber where
  value : Int
  rest : List Char
  found : Bool

/-- The number at the start of a text: perhaps a sign, then digits to the base that they begin
with. -/
def readNumber (cs : List Char) : ReadNumber :=
  let start := cs.dropWhile fun c => Script.isSpace c || c = '\n'
  let (negative, unsigned) := match start with
    | '-' :: rest => (true, rest)
    | '+' :: rest => (false, rest)
    | rest => (false, rest)
  let hexadecimal := match unsigned with
    | '0' :: x :: c :: _ => x.toLower = 'x' && isHexadecimal c
    | _ => false
  let base := if hexadecimal then 16 else if unsigned.head? = some '0' then 8 else 10
  let body := if hexadecimal then unsigned.drop 2 else unsigned
  let digits := body.takeWhile fun c => (Script.Arithmetic.digit? base c).isSome
  let value : Int := Int.ofNat ((Script.Arithmetic.natural? base digits).getD 0)
  if digits.isEmpty then ⟨0, cs, false⟩
  else ⟨if negative then -value else value, body.drop digits.length, true⟩

/-- The number that an argument gives, and what is wrong with it. A quotation mark or an apostrophe
gives the number of the character after it. -/
def numberOf (signed : Bool) (arg : String) : Int × List FormatProblem :=
  match arg.toList with
  | c :: rest =>
    if c.toNat = 39 || c.toNat = 34 then (((rest.head?.map (·.toNat)).getD 0 : Nat), [])
    else
      let n := readNumber (c :: rest)
      let (low, high) : Int × Int :=
        if signed then (-(Decimal.signBound : Int), Decimal.signBound - 1)
        else (-(Decimal.wordBound - 1 : Int), Decimal.wordBound - 1)
      if !n.found then (0, [.notNumeric arg])
      else
        let value := if n.value < low then (if signed then low else high) else min n.value high
        (value, if !n.rest.isEmpty then [.notComplete arg]
          else if n.value < low || high < n.value then [.outOfRange arg] else [])
  | [] => (0, [])

def realOf (width : RealWidth) (arg : String) : RealNumber × List FormatProblem :=
  match arg.toList with
  | c :: rest =>
    if c.toNat = 39 || c.toNat = 34 then
      (⟨false, .finite ((rest.head?.map (·.toNat)).getD 0) 1⟩, [])
    else match RealNumber.read? width (c :: rest) with
      | none => (⟨false, .finite 0 1⟩, [.notNumeric arg])
      | some (number, fits, left) => (number, if !left.isEmpty then [.notComplete arg]
        else if fits then [] else [.outOfRange arg])
  | [] => (⟨false, .finite 0 1⟩, [])

/-! ## Directives -/

def Directive.pad (d : Directive) (cs : List Char) : List Char :=
  let blanks := List.replicate (d.width - cs.length) ' '
  if d.signs.contains '-' then cs ++ blanks else blanks ++ cs

def Directive.number (d : Directive) (sign digits : List Char) : List Char :=
  let digits := match d.precision with
    | some n =>
      let shown := if n = 0 && digits = ['0'] then [] else digits
      List.replicate (n - digits.length) '0' ++ shown
    | none =>
      if d.signs.contains '0' && !d.signs.contains '-' then
        List.replicate (d.width - sign.length - digits.length) '0' ++ digits
      else digits
  d.pad (sign ++ digits)

def Directive.sign (d : Directive) (negative : Bool) : List Char :=
  if negative then ['-']
  else if d.signs.contains '+' then ['+']
  else if d.signs.contains ' ' then [' ']
  else []

def Directive.signedNumber (d : Directive) (n : Int) : List Char :=
  d.number (d.sign (n < 0)) (Nat.toDigits 10 n.natAbs)

def Directive.realNumber (d : Directive) (width : RealWidth) (r : RealNumber) : List Char :=
  let shown := RealNumber.digits width d.letter.toLower d.precision
    (d.signs.contains '#') r.magnitude
  let isFinite := match r.magnitude with
    | .finite _ _ => true
    | _ => false
  let signs := if isFinite then d.signs else d.signs.filter (· ≠ '0')
  let mark := if isFinite && d.letter.toLower = 'a' then ['0', 'x'] else []
  let cased (cs : List Char) := if d.letter.isUpper then cs.map Char.toUpper else cs
  { d with precision := none, signs }.number (d.sign r.negative ++ cased mark) (cased shown)

/-- The written form of an unsigned number to the base of the directive's letter. -/
def Directive.unsignedNumber (d : Directive) (n : Int) : List Char :=
  let value := (n % Decimal.wordBound).toNat
  let marked := d.signs.contains '#' && value ≠ 0
  match d.letter with
  | 'o' =>
    if d.signs.contains '#' && value = 0 && d.precision = some 0 then d.pad ['0']
    else d.number [] ((if marked then ['0'] else []) ++ Nat.toDigits 8 value)
  | 'x' => d.number (if marked then ['0', 'x'] else []) (Nat.toDigits 16 value)
  | 'X' =>
    d.number (if marked then ['0', 'X'] else []) ((Nat.toDigits 16 value).map Char.toUpper)
  | _ => d.number [] (Nat.toDigits 10 value)

/-! ## Formats -/

structure Formatted where
  sayings : List Saying := []
  left : List String
  status : Nat := 0
  stopped : Bool := false

namespace Formatted

def write (f : Formatted) (cs : List Char) : Formatted :=
  { f with sayings := f.sayings ++ [.output cs] }

/-- Continues with problems; the status tells of them unless they are left unsaid. -/
def report (rules : FormatRules) (status : Nat) (f : Formatted) (problems : List FormatProblem) :
    Formatted :=
  let lines := problems.filterMap rules.message
  { f with
    sayings := f.sayings ++ lines.map .complaint
    status := if lines.isEmpty then f.status else status }

/-- Takes the next argument; a missing one is empty. -/
def take (f : Formatted) : String × Formatted := (f.left.headD "", { f with left := f.left.tail })

def takeNumber (rules : FormatRules) (signed : Bool) (f : Formatted) : Int × Formatted :=
  let (arg, f) := f.take
  let (value, problems) := numberOf signed arg
  (value, f.report rules 1 problems)

def perform (rules : FormatRules) (f : Formatted) (d : Directive) : Formatted :=
  let shorten (cs : List Char) := d.precision.elim cs fun n => cs.take n
  match d.letter with
  | 's' =>
    let (arg, f) := f.take
    f.write (d.pad (shorten arg.toList))
  | 'b' =>
    let (arg, f) := f.take
    let text := unescape rules.inner arg.toList
    let f := match text.fault with
      | none => f.write (d.pad (shorten text.chars))
      | some problem => (f.write text.chars).report rules 1 [.badEscape problem]
    { f with stopped := text.stopped }
  | 'q' =>
    let (arg, f) := f.take
    f.write (shownName arg).toList
  | 'c' =>
    let (arg, f) := f.take
    f.write (d.pad [arg.toList.headD '\x00'])
  | 'd' | 'i' =>
    let (n, f) := f.takeNumber rules true
    f.write (d.signedNumber n)
  | letter =>
    if "oxXu".toList.contains letter then
      let (n, f) := f.takeNumber rules false
      f.write (d.unsignedNumber n)
    else
      let (arg, f) := f.take
      let (number, problems) := realOf rules.width arg
      (f.report rules 1 problems).write (d.realNumber rules.width number)

/-- Takes a number from the format, or from an argument where a star stands. -/
def takeCount (rules : FormatRules) (f : Formatted) (cs : List Char) :
    Option Int × Formatted × List Char :=
  match cs with
  | '*' :: rest =>
    let (n, f) := f.takeNumber rules true
    (some n, f, rest)
  | _ =>
    let digits := cs.takeWhile Decimal.isDigit
    (if digits.isEmpty then none else some (Decimal.value digits), f, cs.drop digits.length)

/-- Goes on with a directive, after its percent sign; the format after it is given back unless
nothing more is written. -/
def directive (rules : FormatRules) (f : Formatted) (cs : List Char) :
    Formatted × List Char :=
  let signs := cs.takeWhile rules.signs.contains
  let (width, f, rest) := f.takeCount rules (cs.drop signs.length)
  let (precision, f, rest) := match rest with
    | '.' :: rest =>
      let (n, f, rest) := f.takeCount rules rest
      (some (n.getD 0), f, rest)
    | rest => (none, f, rest)
  let rest := rest.dropWhile rules.modifiers.contains
  let shown := String.ofList ('%' :: cs.take (cs.length - rest.length + 1))
  match rest with
  | [] => ({ f.report rules rules.refusal [.unfinished shown] with stopped := true }, [])
  | letter :: rest =>
    let width := width.getD 0
    let d : Directive := {
      signs := if width < 0 then '-' :: signs else signs
      width := width.natAbs
      hasPoint := precision.isSome
      precision := (precision.filter (0 ≤ ·)).map Int.toNat
      letter }
    if rules.accepts (cs.head? = some letter) d then (f.perform rules d, rest)
    else ({ f.report rules rules.refusal [.invalid shown] with stopped := true }, [])

/-- Goes through a format once; `limit` bounds the steps. -/
def once (rules : FormatRules) : (limit : Nat) → Formatted → List Char → Formatted
  | 0, f, _ => f
  | _ + 1, f, [] => f
  | limit + 1, f, c :: rest =>
    if f.stopped then f
    else if c = '\\' then
      match escape rules.outer rest with
      | .text cs rest => once rules limit (f.write cs) rest
      | .stop => { f with stopped := true }
      | .fault problem => { f.report rules 1 [.badEscape problem] with stopped := true }
    else if c ≠ '%' then once rules limit (f.write [c]) rest
    else match rest with
      | '%' :: rest => once rules limit (f.write ['%']) rest
      | rest =>
        let (f, rest) := f.directive rules rest
        once rules limit f rest

/-- Goes through a format as long as that uses up arguments; `limit` bounds the rounds. -/
def rounds (rules : FormatRules) (format : List Char) : (limit : Nat) → Formatted → Formatted
  | 0, f => f
  | limit + 1, f =>
    let next := once rules (format.length + 1) f format
    if next.stopped || next.left.isEmpty then next
    else if next.left.length = f.left.length then
      next.report rules next.status [.excess (next.left.headD "")]
    else rounds rules format limit next

end Formatted

def formatted (rules : FormatRules) (format : String) (args : List String) : Formatted :=
  Formatted.rounds rules format.toList (args.length + 1) { left := args }

def shellFormat : FormatRules where
  outer := {}
  inner := { zero := true, stops := true }
  message
    | .notNumeric arg => some (arg ++ ": expected numeric value")
    | .notComplete arg => some (arg ++ ": not completely converted")
    | .outOfRange arg => some (arg ++ ": Numerical result out of range")
    | .invalid directive => some (directive ++ ": invalid directive")
    | .unfinished _ => some "missing format character"
    | .excess _ => none
    | .badEscape problem => some problem
  refusal := 2
  signs := "#-+ 0".toList
  accepts _ d := "sbcdiouxXeEfFgGaA".toList.contains d.letter
  width := ⟨53, 1, 1024⟩

/-- Whether the program accepts a directive: some signs do not go with all letters. -/
def programAccepts (bare : Bool) (d : Directive) : Bool :=
  let isOneOf (letters : String) : Bool := letters.toList.contains d.letter
  let groups := d.signs.contains (Char.ofNat 39) || d.signs.contains 'I'
  if isOneOf "bq" then bare
  else isOneOf "scdiouxXeEfFgGaA" && !(groups && isOneOf "aAceEosxX")
    && !(d.signs.contains '#' && isOneOf "cdisu") && !(d.signs.contains '0' && isOneOf "cs")
    && !(d.hasPoint && isOneOf "c")

def programFormat : FormatRules where
  outer := { hexadecimal := true, mark := true, stops := true, strict := true }
  inner := { hexadecimal := true, mark := true, zero := true, stops := true, strict := true }
  message
    | .notNumeric arg => some (quotedValue arg ++ ": expected a numeric value")
    | .notComplete arg => some (quotedValue arg ++ ": value not completely converted")
    | .outOfRange arg => some (quotedValue arg ++ ": Numerical result out of range")
    | .invalid directive | .unfinished directive =>
      some (directive ++ ": invalid conversion specification")
    | .excess arg =>
      some ("warning: ignoring excess arguments, starting with " ++ quotedValue arg)
    | .badEscape problem => some problem
  refusal := 1
  signs := Char.ofNat 39 :: "#-+ 0I".toList
  modifiers := "lLhjtz".toList
  accepts := programAccepts
  width := ⟨64, 4, 16384⟩

end CompositionGen.Utility
