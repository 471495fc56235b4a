import CompositionGen.Script.Token

/-!
# Parsing shell scripts

A script is read line by line: where a line is malformed, the lines before it are kept and the
problem takes the place of the rest. Words that introduce or end a compound command count only
where a command may begin or end. A script in parentheses inside a word ends with the first
parenthesis that closes no command in it.
-/

namespace CompositionGen

namespace Script

def reservedWords : List String :=
  ["!", "case", "do", "done", "elif", "else", "esac", "fi", "for", "if", "in", "then", "until",
    "while", String.singleton openBrace, String.singleton closeBrace]

def TokenKind.reserved? : TokenKind → Option String
  | word w => w.plain?.filter reservedWords.contains
  | _ => none

def inMarks (text : String) : String := "\"" ++ text ++ "\""

/-- The written form of a token; a reserved word counts as one if `asCommand`. -/
def TokenKind.text (asCommand : Bool) (kind : TokenKind) : String :=
  match kind with
  | word _ => if asCommand then (kind.reserved?.map inMarks).getD "word" else "word"
  | redirect _ _ | here _ _ => "redirection"
  | newline => "newline"
  | semicolon => inMarks ";"
  | doubleSemicolon => inMarks ";;"
  | ampersand => inMarks "&"
  | andThen => inMarks "&&"
  | pipe => inMarks "|"
  | orElse => inMarks "||"
  | openParen => inMarks "("
  | closeParen => inMarks ")"
  | problem fault => fault.problem

/-- What has been read from tokens, and the tokens left. -/
abbrev Parsed (α : Type) := α × List Token

/-- The fault of the first token, which cannot stand where it stands; line zero is the end of the
script. Another token may be expected in its place. -/
def unexpected {α : Type} (tokens : List Token) (expected : Option String) (asCommand : Bool) :
    Except SyntaxFault (Parsed α) :=
  let hint := expected.elim "" fun text => " (expecting " ++ inMarks text ++ ")"
  match tokens with
  | [] => .error ⟨0, "end of file unexpected" ++ hint⟩
  | t :: _ => match t.kind with
    | .problem fault => .error fault
    | kind => .error ⟨t.line, kind.text asCommand ++ " unexpected" ++ hint⟩

def Token.isNewline (t : Token) : Bool := match t.kind with
  | .newline => true
  | _ => false

def skipNewlines (tokens : List Token) : List Token := tokens.dropWhile Token.isNewline

def reservedAt? (tokens : List Token) : Option String :=
  tokens.head?.bind fun t => t.kind.reserved?

/-- The tokens after a reserved word, which has to be next. -/
def expectReserved (word : String) (tokens : List Token) : Except SyntaxFault (Parsed Unit) :=
  if reservedAt? tokens = some word then .ok ((), tokens.tail)
  else unexpected tokens (some word) true

def redirectOf (descriptor : Nat) : RedirectOperator → Word → Redirect
  | .input, w => .input descriptor w
  | .output kind, w => .output descriptor kind w
  | .both, w => .both descriptor w
  | .duplicate, w => .duplicate descriptor w

def takeRedirects : List Token → Except SyntaxFault (Parsed (List Redirect))
  | ⟨.here descriptor text, _⟩ :: rest => do
    let (redirects, rest) ← takeRedirects rest
    .ok (.here descriptor text :: redirects, rest)
  | ⟨.redirect descriptor operator, _⟩ :: ⟨.word w, _⟩ :: rest => do
    let (redirects, rest) ← takeRedirects rest
    .ok (redirectOf descriptor operator w :: redirects, rest)
  | ⟨.redirect _ _, _⟩ :: rest => unexpected rest none false
  | tokens => .ok ([], tokens)

def takeSimple (line : Nat) : List Token → Except SyntaxFault (Parsed Simple)
  | ⟨.word w, _⟩ :: rest => do
    let (command, rest) ← takeSimple line rest
    .ok ({ command with words := w :: command.words }, rest)
  | ⟨.here descriptor text, _⟩ :: rest => do
    let (command, rest) ← takeSimple line rest
    .ok ({ command with redirects := .here descriptor text :: command.redirects }, rest)
  | ⟨.redirect descriptor operator, _⟩ :: ⟨.word w, _⟩ :: rest => do
    let (command, rest) ← takeSimple line rest
    .ok ({ command with redirects := redirectOf descriptor operator w :: command.redirects }, rest)
  | ⟨.redirect _ _, _⟩ :: rest => unexpected rest none false
  | tokens => .ok (⟨line, [], []⟩, tokens)

def takeWords : List Token → List Word × List Token
  | ⟨.word w, _⟩ :: rest =>
    let (words, rest) := takeWords rest
    (w :: words, rest)
  | tokens => ([], tokens)

/-- The patterns of a clause, with bars between them, up to the closing parenthesis. -/
def takePatterns : List Token → Except SyntaxFault (Parsed (List Word))
  | ⟨.word w, _⟩ :: ⟨.pipe, _⟩ :: rest => do
    let (patterns, rest) ← takePatterns rest
    .ok (w :: patterns, rest)
  | ⟨.word w, _⟩ :: ⟨.closeParen, _⟩ :: rest => .ok ([w], rest)
  | ⟨.word _, _⟩ :: rest => unexpected rest (some ")") false
  | tokens => unexpected tokens (some ")") false

def endsList (tokens : List Token) : Bool :=
  match tokens with
  | [] => true
  | t :: _ => match t.kind with
    | .closeParen | .doubleSemicolon => true
    | kind => kind.reserved?.any
        ["do", "done", "elif", "else", "esac", "fi", "then", String.singleton closeBrace].contains

/-- The names that no function may have: those of commands with a special standing. -/
def specialCommands : List String :=
  [".", ":", "break", "continue", "eval", "exec", "exit", "export", "readonly", "return", "set",
    "shift", "times", "trap", "unset"]

def functionName? (w : Word) : Option String :=
  w.plain?.filter fun name => isName name.toList && !specialCommands.contains name

/-- One script after another; a later one that does nothing is left out. -/
def followedBy (first later : Script) : Script :=
  match later with
  | .nothing => first
  | later => .sequence first later

def withRedirects (line : Nat) (body : Script) (redirects : List Redirect) : Script :=
  if redirects.isEmpty then body else .redirected line body redirects

mutual

/-- Reads a command; `limit` bounds the depth. -/
def parseCommand : (limit : Nat) → List Token → Except SyntaxFault (Parsed Script)
  | 0, tokens => unexpected tokens none true
  | limit + 1, tokens =>
    match tokens with
    | [] => unexpected [] none true
    | t :: rest => match t.kind with
      | .openParen => do
        let (body, rest) ← parseList limit true false rest
        match rest with
        | ⟨.closeParen, _⟩ :: rest =>
          let (redirects, rest) ← takeRedirects rest
          .ok (withRedirects t.line (.subshell body) redirects, rest)
        | _ => unexpected rest (some ")") true
      | .word w => match t.kind.reserved? with
        | none => parseWords limit t.line w tokens
        | some word =>
          if word = String.singleton openBrace then do
            let (body, rest) ← parseList limit true false rest
            finish t.line body (String.singleton closeBrace) rest
          else if word = "if" then do
            let (body, rest) ← parseBranches limit rest
            finish t.line body "fi" rest
          else if word = "while" || word = "until" then do
            let (condition, rest) ← parseList limit true false rest
            let ((), rest) ← expectReserved "do" rest
            let (body, rest) ← parseList limit true false rest
            finish t.line (.loop (word = "until") condition body) "done" rest
          else if word = "for" then parseEach limit t.line rest
          else if word = "case" then parseChoice limit t.line rest
          else unexpected tokens none true
      | .redirect _ _ | .here _ _ => do
        let (command, rest) ← takeSimple t.line tokens
        .ok (.simple command, rest)
      | _ => unexpected tokens none true
where
  /-- The end of a compound command, and the redirections after it. -/
  finish (line : Nat) (body : Script) (word : String) (tokens : List Token) :
      Except SyntaxFault (Parsed Script) := do
    let ((), rest) ← expectReserved word tokens
    let (redirects, rest) ← takeRedirects rest
    .ok (withRedirects line body redirects, rest)

/-- Reads a simple command, or the definition of a function whose name is the word `w`. -/
def parseWords : (limit line : Nat) → (w : Word) → List Token →
    Except SyntaxFault (Parsed Script)
  | 0, _, _, tokens => unexpected tokens none true
  | limit + 1, line, w, tokens =>
    match tokens.tail with
    | ⟨.openParen, _⟩ :: rest => match rest with
      | ⟨.closeParen, parenLine⟩ :: rest => match functionName? w with
        | none => .error ⟨parenLine, "Bad function name"⟩
        | some name => do
          let (body, rest) ← parseCommand limit (skipNewlines rest)
          .ok (.define name body, rest)
      | _ => if assignsAt w then unexpected tokens.tail none false
        else unexpected rest (some ")") false
    | _ => do
      let (command, rest) ← takeSimple line tokens
      .ok (.simple command, rest)
where
  assignsAt (w : Word) : Bool :=
    let name := w.takeWhile fun part => part.plain?.any fun cs => cs.all continuesName
    !name.isEmpty && (w.drop name.length).head?.any fun part => part.plain? = some ['=']

/-- Reads the conditions of an `if` and what follows them, up to its end. -/
def parseBranches : (limit : Nat) → List Token → Except SyntaxFault (Parsed Script)
  | 0, tokens => unexpected tokens none true
  | limit + 1, tokens => do
    let (condition, rest) ← parseList limit true false tokens
    let ((), rest) ← expectReserved "then" rest
    let (yes, rest) ← parseList limit true false rest
    if reservedAt? rest = some "elif" then
      let (no, rest) ← parseBranches limit rest.tail
      .ok (.branch condition yes no, rest)
    else if reservedAt? rest = some "else" then
      let (no, rest) ← parseList limit true false rest.tail
      .ok (.branch condition yes no, rest)
    else .ok (.branch condition yes .nothing, rest)

def parseEach : (limit line : Nat) → List Token → Except SyntaxFault (Parsed Script)
  | 0, _, tokens => unexpected tokens none true
  | limit + 1, line, tokens =>
    match tokens with
    | ⟨.word w, nameLine⟩ :: rest => match w.plain?.filter fun name => isName name.toList with
      | none => .error ⟨nameLine, "Bad for loop variable"⟩
      | some name => do
        let next := skipNewlines rest
        if reservedAt? next = some "in" then
          let (words, rest) := takeWords next.tail
          match rest with
          | ⟨.newline, _⟩ :: rest | ⟨.semicolon, _⟩ :: rest =>
            parseBody limit line name (some words) (skipNewlines rest)
          | _ => unexpected rest none false
        else match next with
          | ⟨.semicolon, _⟩ :: rest => parseBody limit line name none (skipNewlines rest)
          | _ => parseBody limit line name none next
    | t :: _ => match t.kind with
      | .problem fault => .error fault
      | _ => .error ⟨t.line, "Bad for loop variable"⟩
    | [] => .error ⟨0, "Bad for loop variable"⟩

def parseBody : (limit line : Nat) → (name : String) → (words : Option (List Word)) →
    List Token → Except SyntaxFault (Parsed Script)
  | 0, _, _, _, tokens => unexpected tokens none true
  | limit + 1, line, name, words, tokens => do
    let ((), rest) ← expectReserved "do" tokens
    let (body, rest) ← parseList limit true false rest
    let ((), rest) ← expectReserved "done" rest
    let (redirects, rest) ← takeRedirects rest
    .ok (withRedirects line (.each line name words body) redirects, rest)

def parseChoice : (limit line : Nat) → List Token → Except SyntaxFault (Parsed Script)
  | 0, _, tokens => unexpected tokens none true
  | limit + 1, line, tokens =>
    match tokens with
    | ⟨.word subject, _⟩ :: rest => do
      let ((), rest) ← expectReserved "in" (skipNewlines rest)
      let (clauses, rest) ← parseClauses limit (skipNewlines rest)
      let (redirects, rest) ← takeRedirects rest
      .ok (withRedirects line (.choose line subject clauses) redirects, rest)
    | _ => unexpected tokens none false

def parseClauses : (limit : Nat) → List Token →
    Except SyntaxFault (Parsed (List (List Word × Script)))
  | 0, tokens => unexpected tokens none true
  | limit + 1, tokens =>
    if reservedAt? tokens = some "esac" then .ok ([], tokens.tail)
    else do
      let opened := match tokens with
        | ⟨.openParen, _⟩ :: rest => rest
        | _ => tokens
      let (patterns, rest) ← takePatterns opened
      let (body, rest) ← parseList limit true true rest
      match rest with
      | ⟨.doubleSemicolon, _⟩ :: rest =>
        let (clauses, rest) ← parseClauses limit (skipNewlines rest)
        .ok ((patterns, body) :: clauses, rest)
      | _ =>
        if reservedAt? rest = some "esac" then .ok ([(patterns, body)], rest.tail)
        else unexpected rest (some ";;") true

/-- Reads commands joined by bars, perhaps after a negation. -/
def parsePipeline : (limit : Nat) → List Token → Except SyntaxFault (Parsed Script)
  | 0, tokens => unexpected tokens none true
  | limit + 1, tokens => do
    let negated := reservedAt? tokens = some "!"
    let (first, rest) ← parseCommand limit (if negated then tokens.tail else tokens)
    let (script, rest) ← parseStages limit first rest
    .ok (if negated then .negate script else script, rest)

def parseStages : (limit : Nat) → Script → List Token → Except SyntaxFault (Parsed Script)
  | 0, _, tokens => unexpected tokens none true
  | limit + 1, first, tokens =>
    match tokens with
    | ⟨.pipe, _⟩ :: rest => do
      let (second, rest) ← parseCommand limit (skipNewlines rest)
      let (later, rest) ← parseStages limit second rest
      .ok (.pipe first later, rest)
    | _ => .ok (first, tokens)

/-- Reads what may follow a pipeline that has been read: more of them joined by `&&` or `||`. -/
def parseChain : (limit : Nat) → Script → List Token → Except SyntaxFault (Parsed Script)
  | 0, _, tokens => unexpected tokens none true
  | limit + 1, first, tokens =>
    match tokens with
    | ⟨.andThen, _⟩ :: rest => do
      let (second, rest) ← parsePipeline limit (skipNewlines rest)
      parseChain limit (.both first second) rest
    | ⟨.orElse, _⟩ :: rest => do
      let (second, rest) ← parsePipeline limit (skipNewlines rest)
      parseChain limit (.either first second) rest
    | _ => .ok (first, tokens)

/-- Reads a list of commands: over several lines, or up to the end of one. Over several lines
there has to be a command, unless `mayBeEmpty`. -/
def parseList : (limit : Nat) → (multiline mayBeEmpty : Bool) → List Token →
    Except SyntaxFault (Parsed Script)
  | 0, _, _, tokens => unexpected tokens none true
  | limit + 1, multiline, mayBeEmpty, tokens =>
    let tokens := if multiline then skipNewlines tokens else tokens
    let isEmpty := tokens.isEmpty || (mayBeEmpty && endsList tokens)
      || (!multiline && tokens.head?.any Token.isNewline)
    if isEmpty then .ok (.nothing, tokens)
    else do
      let (first, rest) ← parsePipeline limit tokens
      let (item, rest) ← parseChain limit first rest
      match rest with
      | ⟨.semicolon, _⟩ :: rest => do
        let (later, rest) ← parseList limit multiline multiline rest
        .ok (followedBy item later, rest)
      | ⟨.ampersand, line⟩ :: rest => do
        let (later, rest) ← parseList limit multiline multiline rest
        .ok (followedBy (.background line item) later, rest)
      | ⟨.newline, _⟩ :: more =>
        if multiline then do
          let (later, rest) ← parseList limit multiline true more
          .ok (followedBy item later, rest)
        else .ok (item, rest)
      | _ => .ok (item, rest)

end

/-! ## Scripts inside words -/

/-- How deep the commands in tokens can be nested. -/
def depthOf (tokens : List Token) : Nat := 4 * tokens.length + 4

def afterClosed (tokens : List Token) : Except SyntaxFault (List Token) := do
  let (_, rest) ← parseList (depthOf tokens) true true tokens
  match rest with
  | ⟨.closeParen, _⟩ :: rest => .ok rest
  | _ => (unexpected (α := Unit) rest (some ")") true).map (·.2)

/-- The place after the parenthesis that closes the commands from a place on, before which some
tokens have been read, the last one first; `limit` bounds the number of tokens. A fault that is
not at the end of what has been read is one however the text goes on. -/
def closing (inner : Inner) : (limit : Nat) → (read : List Token) → Cursor →
    Except SyntaxFault Cursor
  | 0, read, p => (afterClosed read.reverse).map fun _ => p
  | limit + 1, read, p =>
    match p.next? inner (p.text.length + 1) with
    | none => (afterClosed read.reverse).map fun _ => p
    | some (⟨.closeParen, line⟩, after) =>
      let read := ⟨.closeParen, line⟩ :: read
      match afterClosed read.reverse with
      | .ok _ => .ok after
      | .error fault => if fault.line = 0 then closing inner limit read after else .error fault
    | some (token, after) => closing inner limit (token :: read) after

/-- A script that begins on a line and ends with the parenthesis that closes it, and the text after
that. A text for `<<` that would begin on a later line is not part of it. -/
def enclosedBy (inner : Inner) (line : Nat) (text : List Char) :
    Except SyntaxFault (List Char × List Char) := do
  let after ← closing inner (text.length + 1) [] { line, text }
  let size := text.length - after.remaining
  .ok (text.take (size - 1), text.drop size)

/-- The script at the start of a text; its lines count from one. -/
def leadingBy (inner : Inner) (text : List Char) : Except SyntaxFault (List Char) :=
  let start : Cursor := { text }
  let readings := start.readings inner (text.length + 1)
  let tokens := readings.map (·.1)
  match parseList (depthOf tokens) true true tokens with
  | .error fault =>
    .error { fault with line := if fault.line = 0 then text.count '\n' + 1 else fault.line }
  | .ok (_, []) => .ok text
  | .ok (_, rest) =>
    let place := (((readings.take (tokens.length - rest.length)).getLast?).map (·.2)).getD start
    .ok (text.take (text.length - place.remaining))

/-- How scripts inside words are read that are nested no deeper than `depth`. -/
def Inner.upTo : (depth : Nat) → Inner
  | 0 => ⟨fun _ _ => .error ⟨0, "end of file unexpected"⟩, .ok⟩
  | depth + 1 => ⟨enclosedBy (upTo depth), leadingBy (upTo depth)⟩

/-! ## Lines -/

/-- Reads lines until one is malformed; the script ends on the line `last`, and `limit` bounds the
steps. -/
def parseLines (last : Nat) : (limit : Nat) → List Token → Script
  | 0, _ => .nothing
  | limit + 1, tokens =>
    match skipNewlines tokens with
    | [] => .nothing
    | tokens =>
      match parseList limit false false tokens with
      | .error fault => .malformed (if fault.line = 0 then last else fault.line) fault.problem
      | .ok (line, rest) =>
        match rest with
        | [] => line
        | t :: later =>
          if t.isNewline then .sequence line (parseLines last limit later)
          else match unexpected (α := Unit) rest none true with
            | .error fault => .malformed fault.line fault.problem
            | .ok _ => .nothing

end Script

def Script.tokensAt (line : Nat) (text : List Char) : List Script.Token :=
  let start : Script.Cursor := { line, text }
  (start.readings (.upTo text.length) (text.length + 1)).map (·.1)

/-- Reads a script that stands inside a word and begins on a line: its lines are one list. -/
def Script.parseInside (line : Nat) (text : List Char) : Script :=
  let tokens := Script.tokensAt line text
  match Script.parseList (Script.depthOf tokens) true true tokens with
  | .ok (script, _) => script
  | .error fault => .malformed fault.line fault.problem

def Script.parse (text : List Char) : Script :=
  let tokens := Script.tokensAt 1 text
  Script.parseLines (text.count '\n' + 1) (Script.depthOf tokens) tokens

end CompositionGen
