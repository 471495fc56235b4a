import CompositionGen.Script
import CompositionGen.Text.Decimal

/-!
# Words of shell scripts

Reading one word from the text of a script. Quotes keep characters from having a meaning, a dollar
sign begins a parameter, a command or an expression, and a backslash quotes the next character. A
word that is not complete when the text ends is refused with what is missing, and so is one whose
commands are no script.
-/

namespace CompositionGen.Script

/-! ## Characters -/

/-- The apostrophe, which quotes everything up to the next one. -/
def apostrophe : Char := Char.ofNat 39

/-- The quotation mark, between which parameters are still expanded. -/
def quotationMark : Char := Char.ofNat 34

/-- The accent that marks an older form of substitution. -/
def graveAccent : Char := Char.ofNat 96

/-- The brace that begins a group. -/
def openBrace : Char := '\x7b'

/-- The brace that ends a group. -/
def closeBrace : Char := '\x7d'

def isSpace (c : Char) : Bool := c = ' ' || c = '\t'

def endsWord (c : Char) : Bool := isSpace c || "\n;&|<>()".toList.contains c

def beginsName (c : Char) : Bool := c.isAlpha || c = '_'

/-- A character that may follow in a variable's name. -/
def continuesName (c : Char) : Bool := beginsName c || Decimal.isDigit c

def isName (name : List Char) : Bool := name.head?.any beginsName && name.all continuesName

/-! ## Nested texts -/

/-- The text up to the next grave accent, and the text after it. A backslash there is left out
before the characters that it can quote. -/
def untilGrave (quoted : Bool) : List Char → Option (List Char × List Char)
  | [] => none
  | '\\' :: d :: rest =>
    let isQuotable := d = '\\' || d = graveAccent || d = '$' || (quoted && d = quotationMark)
    (untilGrave quoted rest).map fun (inside, after) =>
      ((if d = '\n' then [] else if isQuotable then [d] else ['\\', d]) ++ inside, after)
  | c :: rest =>
    if c = graveAccent then some ([], rest)
    else (untilGrave quoted rest).map fun (inside, after) => (c :: inside, after)

/-- The text up to the two parentheses that close an arithmetic expression, and the text after
them. A parenthesis that closes nothing stands for itself. -/
def untilTwoClosed (depth : Nat) : List Char → Option (List Char × List Char)
  | [] => none
  | '\\' :: c :: rest => (untilTwoClosed depth rest).map fun (inside, after) =>
      ('\\' :: c :: inside, after)
  | ')' :: rest =>
    if depth = 0 && rest.head? = some ')' then some ([], rest.tail)
    else (untilTwoClosed (depth - 1) rest).map fun (inside, after) => (')' :: inside, after)
  | c :: rest => (untilTwoClosed (if c = '(' then depth + 1 else depth) rest).map
      fun (inside, after) => (c :: inside, after)

/-! ## Surroundings -/

structure SyntaxFault where
  /-- The line of the fault; zero is the end of the script. -/
  line : Nat
  problem : String
  deriving DecidableEq, Inhabited, Repr

structure Inner where
  /-- The script at the start of a text that begins on a line, up to the parenthesis that closes
  it, and the text after that. -/
  enclosed : (line : Nat) → List Char → Except SyntaxFault (List Char × List Char)
  /-- The script at the start of a text, which ends where no further command can begin. -/
  leading : List Char → Except SyntaxFault (List Char)

/-- What reading a word asks of the script around it. -/
structure Surroundings extends Inner where
  /-- The line that is reached when so many characters are left. -/
  lineAt : Nat → Nat
  /-- Whether the text is one that the script gives to a command. -/
  isGiven : Bool := false

def Surroundings.before (s : Surroundings) (after : Nat) : Surroundings :=
  { s with lineAt := fun left => s.lineAt (left + after) }

def Surroundings.missing (s : Surroundings) (problem : String) : SyntaxFault :=
  ⟨s.lineAt 0, problem⟩

/-- What is missing when the text ends in braces or quotation marks. -/
def Surroundings.unclosed (s : Surroundings) (quoted : Bool) : SyntaxFault :=
  s.missing (if quoted && !s.isGiven then "Unterminated quoted string" else "Missing '\x7d'")

/-! ## Dollar signs -/

def specialParameter? (c : Char) : Option Parameter :=
  match c with
  | '@' => some .arguments
  | '*' => some .joined
  | '#' => some .argumentCount
  | '?' => some .status
  | '$' => some .process
  | '!' => some .background
  | '-' => some .options
  | _ => if Decimal.isDigit c then some (.argument (Decimal.digit c)) else none

/-- The parameter at the start of a text in braces, and the text after it. -/
def parameterAt? (cs : List Char) : Option (Parameter × List Char) :=
  let digits := cs.takeWhile Decimal.isDigit
  let name := cs.takeWhile continuesName
  if !digits.isEmpty then some (.argument (Decimal.value digits), cs.drop digits.length)
  else if !name.isEmpty then some (.variable (String.ofList name), cs.drop name.length)
  else match cs with
    | c :: rest => (specialParameter? c).map fun p => (p, rest)
    | [] => none

/-- The operation at the start of a text in braces, and the text after it; there may be none that
is written so. -/
def operationAt : List Char → Operation × List Char
  | ':' :: '-' :: rest => (.fallback true, rest)
  | '-' :: rest => (.fallback false, rest)
  | ':' :: '=' :: rest => (.initial true, rest)
  | '=' :: rest => (.initial false, rest)
  | ':' :: '?' :: rest => (.demand true, rest)
  | '?' :: rest => (.demand false, rest)
  | ':' :: '+' :: rest => (.replacement true, rest)
  | '+' :: rest => (.replacement false, rest)
  | '%' :: '%' :: rest => (.cut true true, rest)
  | '%' :: rest => (.cut true false, rest)
  | '#' :: '#' :: rest => (.cut false true, rest)
  | '#' :: rest => (.cut false false, rest)
  | ':' :: _ :: rest => (.unknown, rest)
  | _ :: rest => (.unknown, rest)
  | [] => (.unknown, [])

/-! ## Words -/

inductive Ending where
  /-- Before a character that ends a word, or at the end of the text. -/
  | blank
  | brace
  | mark
  /-- Only at the end of the text. -/
  | never
  deriving DecidableEq, Repr

def Ending.isAt : Ending → Char → Bool
  | blank, c => endsWord c
  | brace, c => c = closeBrace
  | mark, c => c = quotationMark
  | never, _ => false

/-- Whether a backslash in quotes keeps a character from having a meaning. -/
def Ending.isQuotable (ending : Ending) (c : Char) : Bool :=
  c = '$' || c = '\\' || c = graveAccent ||
    (c = quotationMark && (ending = .mark || ending = .brace)) ||
    (c = closeBrace && ending = .brace)

mutual

/-- The parts of a word up to its ending, and the text from there on; `limit` bounds the steps. -/
def wordParts (s : Surroundings) (ending : Ending) (quoted : Bool) :
    (limit : Nat) → List Char → Except SyntaxFault (Word × List Char)
  | 0, _ => .error (s.unclosed quoted)
  | _ + 1, [] =>
    if ending = .blank || ending = .never then .ok ([], [])
    else .error (s.unclosed quoted)
  | limit + 1, c :: rest => do
    if ending.isAt c then .ok ([], c :: rest)
    else if c = '\\' then
      match rest with
      | [] => .ok ([.text [c] true], [])
      | d :: rest =>
        let (later, after) ← wordParts s ending quoted limit rest
        if d = '\n' then .ok (later, after)
        else if !quoted || ending.isQuotable d then .ok (.text [d] true :: later, after)
        else .ok (.text [c, d] true :: later, after)
    else if c = apostrophe && !quoted then
      let inside := rest.takeWhile (· ≠ apostrophe)
      match rest.drop inside.length with
      | [] => .error (s.missing "Unterminated quoted string")
      | _ :: rest =>
        let (later, after) ← wordParts s ending quoted limit rest
        .ok (.text inside true :: later, after)
    else if c = quotationMark && ending ≠ .never then
      let (parts, rest) ← wordParts s .mark true limit rest
      let (later, after) ← wordParts s ending quoted limit (rest.drop 1)
      .ok ((if parts.isEmpty then [.text [] true] else parts) ++ later, after)
    else if c = '$' then
      let (part, rest) ← dollar s quoted limit rest
      let (later, after) ← wordParts s ending quoted limit rest
      .ok (part :: later, after)
    else if c = graveAccent then
      match untilGrave quoted rest with
      | none => .error (s.missing "EOF in backquote substitution")
      | some (inside, rest) =>
        let source ← s.leading inside
        let (later, after) ← wordParts s ending quoted limit rest
        .ok (.output source 1 quoted :: later, after)
    else
      let (later, after) ← wordParts s ending quoted limit rest
      .ok (.text [c] quoted :: later, after)

/-- The part that a dollar sign begins, and the text after it; one that begins nothing is a
character. -/
def dollar (s : Surroundings) (quoted : Bool) :
    (limit : Nat) → List Char → Except SyntaxFault (Part × List Char)
  | 0, rest => .ok (.text ['$'] quoted, rest)
  | _ + 1, [] => .ok (.text ['$'] quoted, [])
  | limit + 1, c :: rest => do
    if c = '(' && rest.head? = some '(' then
      match untilTwoClosed 0 rest.tail with
      | none => .error (s.missing "Missing '))'")
      | some (inside, after) =>
        let (expression, _) ← wordParts (s.before (after.length + 2)) .never true limit inside
        .ok (.arithmetic expression quoted, after)
    else if c = '(' then
      let line := s.lineAt rest.length
      let (source, after) ← s.enclosed line rest
      .ok (.output source line quoted, after)
    else if c = openBrace then braced s quoted limit rest
    else match specialParameter? c with
      | some p => .ok (.parameter p .value [] quoted, rest)
      | none =>
        let name := (c :: rest).takeWhile continuesName
        if isName name then
          .ok (.parameter (.variable (String.ofList name)) .value [] quoted,
            (c :: rest).drop name.length)
        else .ok (.text ['$'] quoted, c :: rest)

/-- The parameter in braces, after the opening one, and the text after it. -/
def braced (s : Surroundings) (quoted : Bool) :
    (limit : Nat) → List Char → Except SyntaxFault (Part × List Char)
  | 0, _ => .error (s.unclosed quoted)
  | limit + 1, cs => do
    let sized := match cs with
      | '#' :: rest => (parameterAt? rest).bind fun (p, after) =>
          if after.head? = some closeBrace then some (p, after.drop 1) else none
      | _ => none
    match sized with
    | some (p, after) => .ok (.parameter p .size [] quoted, after)
    | none =>
      match parameterAt? cs with
      | none =>
        let rest := if cs.head? = some closeBrace then cs else cs.tail
        let (_, after) ← wordParts s .brace quoted limit rest
        .ok (.parameter .status .unknown [] quoted, after.drop 1)
      | some (p, after) =>
        if after.head? = some closeBrace then
          .ok (.parameter p .value [] quoted, after.drop 1)
        else
          let (operation, rest) := operationAt after
          let (word, after) ← wordParts s .brace quoted limit rest
          .ok (.parameter p operation word quoted, after.drop 1)

end

def word? (s : Surroundings) (cs : List Char) : Except SyntaxFault (Word × List Char) :=
  wordParts s .blank false (2 * cs.length + 2) cs

/-- The parts of a text in which only dollar signs, accents and backslashes count. -/
def hereParts (s : Surroundings) (cs : List Char) : Except SyntaxFault Word :=
  (wordParts s .never true (2 * cs.length + 2) cs).map (·.1)

/-- The text of a part that needs no expansion. -/
def Part.literal : Part → List Char
  | text chars _ => chars
  | _ => []

def Part.isQuoted : Part → Bool
  | text _ quoted | parameter _ _ _ quoted | output _ _ quoted | arithmetic _ quoted
  | expanded _ quoted => quoted

/-- The text of a part that is neither quoted nor needs expansion. -/
def Part.plain? : Part → Option (List Char)
  | text chars false => some chars
  | _ => none

/-- The text of a word that is neither quoted nor needs expansion. -/
def Word.plain? (w : Word) : Option String :=
  (w.mapM Part.plain?).map fun parts => String.ofList parts.flatten

end CompositionGen.Script
