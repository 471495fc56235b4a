import CompositionGen.Yaml.Number
import CompositionGen.Json.Printer

/-!
# YAML scalars

How a text is written as a scalar: plain where that reads back as the same text, in single quotes
where a plain form would read as something else, as a literal block where it has line feeds, and
in double quotes where it holds characters that only an escape can show.
-/

namespace CompositionGen.Yaml

def isBreak (c : Char) : Bool :=
  c = '\n' || c = '\r' || c = '\u0085' || c = '\u2028' || c = '\u2029'

def isBlank (c : Char) : Bool := c = ' ' || c = '\t' || isBreak c

/-- A character that can stand for itself; the rest need an escape. -/
def isPrintable (c : Char) : Bool :=
  let n := c.toNat
  c = '\n' || (0x20 ≤ n && n ≤ 0x7E) ||
    (0xA0 ≤ n && n ≠ 0xFEFF && n ≠ 0xFFFE && n ≠ 0xFFFF)

def isIndicator (c : Char) : Bool :=
  [',', '[', ']', '{', '}', '#', '&', '*', '!', '|', '>', '\'', '"', '%', '@', '\x60'].contains c

/-- The next character is white space, or there is none. -/
def endsWord : List Char → Bool
  | [] => true
  | c :: _ => isBlank c

/-- Whether a colon or a number sign inside a text would end a plain scalar. -/
def hasInnerIndicator : (afterBlank : Bool) → List Char → Bool
  | _, [] => false
  | afterBlank, c :: rest =>
    (c = ':' && endsWord rest) || (c = '#' && afterBlank) || hasInnerIndicator (isBlank c) rest

/-- Whether a text begins or goes on in a way that a plain scalar cannot. -/
def hasIndicator : List Char → Bool
  | [] => false
  | c :: rest =>
    ['-', '-', '-'].isPrefixOf (c :: rest) || ['.', '.', '.'].isPrefixOf (c :: rest) ||
      isIndicator c || ((c = '?' || c = ':' || c = '-') && endsWord rest) ||
      hasInnerIndicator (isBlank c) rest

def hasSpaceBreak : List Char → Bool
  | ' ' :: c :: rest => isBreak c || hasSpaceBreak (c :: rest)
  | _ :: rest => hasSpaceBreak rest
  | [] => false

def hasBreakSpace : List Char → Bool
  | c :: ' ' :: rest => isBreak c || hasBreakSpace (' ' :: rest)
  | _ :: rest => hasBreakSpace rest
  | [] => false

/-- Whether a plain scalar of this text would read as `null`, a truth value or a number. -/
def isAmbiguous (cs : List Char) : Bool :=
  cs.isEmpty ||
    ["null", "Null", "NULL", "~", "true", "True", "TRUE", "false", "False", "FALSE"].contains
      (String.ofList cs) ||
    hasLeadingZero cs || isInteger cs || isFloat cs

inductive Style where
  | plain
  | single
  | double
  | literal
  deriving DecidableEq, Repr

def styleOf (cs : List Char) : Style :=
  let spaceAtEnd := cs.getLast? == some ' '
  if cs.any (fun c => !isPrintable c) || hasSpaceBreak cs then .double
  else if cs.contains '\n' then if spaceAtEnd then .double else .literal
  else if hasBreakSpace cs then .double
  else if isAmbiguous cs || hasIndicator cs || cs.any isBreak || spaceAtEnd
      || cs.head? == some ' ' then .single
  else .plain

/-- An upper-case hexadecimal number of at least `width` digits. -/
def hexUpper (width n : Nat) : List Char :=
  let digits := (Nat.toDigits 16 n).map Char.toUpper
  List.replicate (width - digits.length) '0' ++ digits

def escaped (c : Char) : List Char :=
  match c with
  | '\x00' => ['\\', '0']
  | '\x07' => ['\\', 'a']
  | '\x08' => ['\\', 'b']
  | '\t' => ['\\', 't']
  | '\n' => ['\\', 'n']
  | '\x0b' => ['\\', 'v']
  | '\x0c' => ['\\', 'f']
  | '\r' => ['\\', 'r']
  | '\x1b' => ['\\', 'e']
  | '"' => ['\\', '"']
  | '\\' => ['\\', '\\']
  | '\u0085' => ['\\', 'N']
  | '\u2028' => ['\\', 'L']
  | '\u2029' => ['\\', 'P']
  | c =>
    if isPrintable c then [c]
    else if c.toNat ≤ 0xFF then ['\\', 'x'] ++ hexUpper 2 c.toNat
    else ['\\', 'u'] ++ hexUpper 4 c.toNat

def doubleQuoted (cs : List Char) : List Char := '"' :: (cs.flatMap escaped ++ ['"'])

/-- Lines of a block: after a break, the next character that is none is indented. -/
def indented (indent : Nat) : (atStart : Bool) → List Char → List Char
  | _, [] => []
  | atStart, c :: rest =>
    if isBreak c then c :: indented indent true rest
    else if atStart then List.replicate indent ' ' ++ c :: indented indent false rest
    else c :: indented indent false rest

/-- A text in single quotes; a quote in it is written twice. -/
def singleQuoted (indent : Nat) (cs : List Char) : List Char :=
  let doubled := cs.flatMap fun c => if c = '\'' then ['\'', '\''] else [c]
  '\'' :: indented indent false (doubled ++ ['\''])

/-- The mark after `|`: an indent where the text begins with white space, and whether the final
breaks are dropped, kept, or just the one. -/
def literalMark (cs : List Char) : List Char :=
  let hint := match cs with
    | c :: _ => if c = ' ' || isBreak c then ['2'] else []
    | [] => []
  let chomp := match cs.reverse with
    | c :: rest =>
      if !isBreak c then ['-']
      else match rest with
        | [] => ['+']
        | d :: _ => if isBreak d then ['+'] else []
    | [] => ['-']
  hint ++ chomp

/-- A literal block, which ends a line only if its text does. -/
def literalBlock (indent : Nat) (cs : List Char) : List Char :=
  '|' :: (literalMark cs ++ '\n' :: indented indent true cs)

def scalar (indent : Nat) (cs : List Char) : List Char :=
  match styleOf cs with
  | .plain => cs
  | .single => singleQuoted indent cs
  | .double => doubleQuoted cs
  | .literal => literalBlock indent cs

/-- A scalar up to the end of its line, which for a block is the break that its text ends in. -/
def scalarLine (indent : Nat) (cs : List Char) : List Char :=
  let isEnded := styleOf cs == .literal && cs.getLast?.any isBreak
  scalar indent cs ++ (if isEnded then [] else ['\n'])

end CompositionGen.Yaml
