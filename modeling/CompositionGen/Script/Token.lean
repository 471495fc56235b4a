import CompositionGen.Script.Word
import CompositionGen.Text.Split

/-!
# Tokens of shell scripts

A script is cut into words, redirections and operators. The text for a `<<` redirection is taken
from the lines that follow. A token stands on the line that is reached once it is read.
-/

namespace CompositionGen.Script

/-- The operators that redirect a descriptor to what the next word names. -/
inductive RedirectOperator where
  | input
  | output (kind : OutputKind)
  | both
  | duplicate
  deriving DecidableEq, Inhabited, Repr

inductive TokenKind where
  | word (w : Word)
  /-- The next word is what the descriptor is redirected to. -/
  | redirect (descriptor : Nat) (operator : RedirectOperator)
  /-- A descriptor reads a text given in the script. -/
  | here (descriptor : Nat) (text : Word)
  | newline
  | semicolon
  | doubleSemicolon
  | ampersand
  | andThen
  | pipe
  | orElse
  | openParen
  | closeParen
  /-- A place where no token can be read. -/
  | problem (fault : SyntaxFault)
  deriving Inhabited, Repr

/-- A token and the line that is reached with it. -/
structure Token where
  kind : TokenKind
  line : Nat
  deriving Inhabited, Repr

/-! ## Redirections -/

/-- The text up to the line that is the delimiter, or up to the end, the lines after it, and how
many lines have ended with it. The tabs at the start of a line may be dropped. -/
def hereLines (dropTabs : Bool) (delimiter : List Char) :
    List (List Char) → List Char × List (List Char) × Nat
  | [] => ([], [], 0)
  | line :: rest =>
    let line := if dropTabs then line.dropWhile (· = '\t') else line
    if line = delimiter then ([], rest, 1)
    else if rest.isEmpty then (line, [], 0)
    else
      let (text, after, count) := hereLines dropTabs delimiter rest
      (line ++ '\n' :: text, after, count + 1)

/-- A token with the text after it, and what was taken from that text: so many lines of so many
characters. -/
structure ReadToken where
  kind : TokenKind
  rest : List Char
  taken : Nat := 0
  removed : Nat := 0

/-- Takes the text of a `<<` redirection from the lines after the current one, which begin on the
line that `s` has for the end of the current one. -/
def hereText (s : Surroundings) (first descriptor : Nat) (dropTabs : Bool) (delimiter : Word)
    (rest : List Char) : ReadToken :=
  let current := rest.takeWhile (· ≠ '\n')
  let following := Text.split '\n' (rest.drop (current.length + 1))
  let (text, after, taken) := hereLines dropTabs (delimiter.flatMap Part.literal) following
  let left := Text.join ['\n'] after
  let lineAt (remaining : Nat) : Nat :=
    if remaining = 0 then first + taken
    else first + (text.take (text.length - remaining)).count '\n'
  let parts := if delimiter.any Part.isQuoted then .ok [.text text true]
    else hereParts { s with lineAt, isGiven := true } text
  { kind := match parts with
      | .ok parts => .here descriptor parts
      | .error fault =>
        .problem { fault with line := if fault.line = 0 then s.lineAt 0 else fault.line }
    rest := current ++ '\n' :: left
    taken
    removed := rest.length - current.length - 1 - left.length }

/-- Reads a `<<` redirection; without a delimiter there is nothing to read. -/
def hereToken (s : Surroundings) (first descriptor : Nat) (dropTabs : Bool) (rest : List Char) :
    ReadToken :=
  match word? s (rest.dropWhile isSpace) with
  | .ok ([], after) => { kind := .redirect descriptor .input, rest := after }
  | .ok (delimiter, after) => hereText s first descriptor dropTabs delimiter after
  | .error fault => { kind := .problem fault, rest := [] }

/-- The redirection at the start of a text, where `given` is the descriptor before it and the text
of a `<<` redirection begins on the line `first`. -/
def redirect? (s : Surroundings) (first : Nat) (given : Option Nat) : List Char → Option ReadToken
  | '<' :: '<' :: '-' :: rest => some (hereToken s first (given.getD 0) true rest)
  | '<' :: '<' :: rest => some (hereToken s first (given.getD 0) false rest)
  | '<' :: '&' :: rest => some (plain 0 .duplicate rest)
  | '<' :: '>' :: rest => some (plain 0 .both rest)
  | '<' :: rest => some (plain 0 .input rest)
  | '>' :: '>' :: rest => some (plain 1 (.output .append) rest)
  | '>' :: '&' :: rest => some (plain 1 .duplicate rest)
  | '>' :: '|' :: rest => some (plain 1 (.output .force) rest)
  | '>' :: rest => some (plain 1 (.output .replace) rest)
  | _ => none
where
  /-- A redirection without a text of its own. -/
  plain (usual : Nat) (operator : RedirectOperator) (rest : List Char) : ReadToken :=
    { kind := .redirect (given.getD usual) operator, rest }

/-- The redirection at the start of a text, perhaps after the number of a descriptor. -/
def redirectAt? (s : Surroundings) (first : Nat) : List Char → Option ReadToken
  | c :: rest =>
    if Decimal.isDigit c then redirect? s first (some (Decimal.digit c)) rest
    else redirect? s first none (c :: rest)
  | [] => none

/-! ## Scripts -/

def operator? : List Char → Option (TokenKind × List Char)
  | '&' :: '&' :: rest => some (.andThen, rest)
  | '&' :: rest => some (.ampersand, rest)
  | '|' :: '|' :: rest => some (.orElse, rest)
  | '|' :: rest => some (.pipe, rest)
  | ';' :: ';' :: rest => some (.doubleSemicolon, rest)
  | ';' :: rest => some (.semicolon, rest)
  | '(' :: rest => some (.openParen, rest)
  | ')' :: rest => some (.closeParen, rest)
  | _ => none

/-- A place in a script: a line, of whose following lines some have been taken away, and the text
from there on. -/
structure Cursor where
  line : Nat := 1
  /-- How many of the following lines have been taken away. -/
  taken : Nat := 0
  removed : Nat := 0
  text : List Char

namespace Cursor

/-- What reading a word at a place asks of the script around it. -/
def surroundings (inner : Inner) (p : Cursor) : Surroundings where
  toInner := inner
  lineAt left :=
    p.line + (p.text.take (p.text.length - left)).count '\n' + (if left = 0 then p.taken else 0)

/-- The token at a place where no white space is, and the place after it. -/
def tokenAt (inner : Inner) (p : Cursor) : Token × Cursor :=
  let s := p.surroundings inner
  match redirectAt? s (p.line + p.taken + 1) p.text with
  | some r =>
    (⟨r.kind, p.line⟩, { p with
      taken := p.taken + r.taken, removed := p.removed + r.removed, text := r.rest })
  | none =>
    match operator? p.text with
    | some (kind, rest) => (⟨kind, p.line⟩, { p with text := rest })
    | none =>
      match word? s p.text with
      | .ok (w, rest) =>
        let line := p.line + (p.text.take (p.text.length - rest.length)).count '\n'
        (⟨.word w, line⟩, { p with line, text := rest })
      | .error fault =>
        let line := if fault.line = 0 then s.lineAt 0 else fault.line
        (⟨.problem { fault with line }, line⟩, { p with text := [] })

/-- The next token from a place on, and the place after it; `limit` bounds the steps. -/
def next? (inner : Inner) : (limit : Nat) → Cursor → Option (Token × Cursor)
  | 0, _ => none
  | limit + 1, p =>
    match p.text with
    | [] => none
    | c :: rest =>
      if isSpace c then next? inner limit { p with text := rest }
      else if c = '#' then next? inner limit { p with text := rest.dropWhile (· ≠ '\n') }
      else if c = '\n' then
        let line := p.line + 1 + p.taken
        some (⟨.newline, line⟩, { line, text := rest })
      else if ['\\', '\n'].isPrefixOf p.text then
        next? inner limit { p with line := p.line + 1, text := rest.drop 1 }
      else some (p.tokenAt inner)

/-- The tokens from a place on, each with the place after it; `limit` bounds their number. -/
def readings (inner : Inner) : (limit : Nat) → Cursor → List (Token × Cursor)
  | 0, _ => []
  | limit + 1, p =>
    match p.next? inner (p.text.length + 1) with
    | none => []
    | some (token, after) => (token, after) :: readings inner limit after

/-- How many characters are still to come, those that have been taken away among them. -/
def remaining (p : Cursor) : Nat := p.text.length + p.removed

end Cursor

end CompositionGen.Script
