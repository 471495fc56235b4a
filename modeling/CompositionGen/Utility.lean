import CompositionGen.Utility.Concatenation
import CompositionGen.Utility.Condition
import CompositionGen.Utility.Span

/-!
# Utilities

The programs that compile scripts use, apart from those that take time, read their input or run
other programs, and the utilities that a shell has built in. Each is a function of its arguments,
its variables and the files.
-/

namespace CompositionGen.Utility

/-! ## Texts -/

def shellEchoEscapes : EscapeRules := { zero := true, stops := true }

def programEchoEscapes : EscapeRules := { hexadecimal := true, zero := true, stops := true }

/-- The line of some words, without its end if it is left open. -/
def echoLine (escapes : Option EscapeRules) (isOpen : Bool) (words : List String) : List Char :=
  let text := (Text.joinTexts " " words).toList
  let u := escapes.elim { chars := text } fun rules => unescape rules text
  u.chars ++ (if isOpen || u.stopped then [] else ['\n'])

/-- Writes its arguments on a line, with the escapes in them; `-n` leaves the line open. -/
def shellEcho (c : Call) : Effect :=
  match c.args with
  | "-n" :: rest => c.writes (echoLine (some shellEchoEscapes) true rest)
  | args => c.writes (echoLine (some shellEchoEscapes) false args)

def isEchoOption (arg : String) : Bool :=
  match arg.toList with
  | '-' :: letters => !letters.isEmpty && letters.all fun l => l = 'n' || l = 'e' || l = 'E'
  | _ => false

/-- Writes its arguments on a line, with escapes only where `-e` asks for them. -/
def echo (c : Call) : Effect :=
  let given := c.args.takeWhile isEchoOption
  let letters := given.flatMap String.toList
  let escapes := (letters.filter fun l => l = 'e' || l = 'E').getLast? == some 'e'
  c.writes (echoLine (if escapes then some programEchoEscapes else none) (letters.contains 'n')
    (c.args.drop given.length))

def writeFormatted (c : Call) (rules : FormatRules) (format : String) (args : List String) :
    Effect :=
  let f := formatted rules format args
  { files := c.files, sayings := f.sayings, status := f.status }

def Call.tells (c : Call) (e : Effect) : Effect :=
  { e with sayings := e.sayings.map fun
      | .complaint line => .complaint (c.message line)
      | other => other }

def printf (c : Call) : Effect :=
  match if c.args.head? == some "--" then c.args.tail else c.args with
  | [] => c.refuses ["missing operand"]
  | format :: args => c.tells (writeFormatted c programFormat format args)

/-- Writes its arguments in a format, as the shell does: complaints come before all output. -/
def shellPrintf (c : Call) : Effect :=
  let isDashed := c.args.head? == some "--"
  match if isDashed then c.args.tail else c.args with
  | [] => c.complains ["usage: printf format [arg ...]"] 2
  | format :: args =>
    match isDashed, format.toList with
    | false, '-' :: letter :: _ =>
      c.complains ["Illegal option -" ++ String.singleton letter] 2
    | _, _ =>
      let e := writeFormatted c shellFormat format args
      let isOutput : Saying → Bool
        | .output _ => true
        | .complaint _ => false
      let (outputs, complaints) := e.sayings.partition isOutput
      { e with sayings := complaints ++ outputs }

/-! ## Places -/

def pwdOptions : List OptionRule :=
  [{ key := 'L', word := "logical" }, { key := 'P', word := "physical" }] ++ commonOptions

/-- Writes the directory that it runs in: by the name that the variables give it, if that is asked
for and it is one. -/
def pwd (c : Call) : Effect :=
  match readArguments pwdOptions false c.args with
  | .error problem => c.refuses [problem]
  | .ok g =>
    let here := (FileSystem.pathOf c.files.cwd).text
    let asked := (g.options.filter fun (key, _) => key = 'L' || key = 'P').getLast?.map (·.1)
    let isName (text : String) : Bool :=
      ['/'].isPrefixOf text.toList
        && ((Text.split '/' text.toList).all fun step => step ≠ ['.'] && step ≠ ['.', '.'])
        && (c.files.locate ⟨text⟩).toOption == some c.files.cwd
    let named := (lookup? "PWD" c.environment).filter isName
    let line := if asked = some 'L' then named.getD here else here
    if g.asksAbout then c.ends 0
    else { files := c.files, sayings := (if g.operands.isEmpty then []
        else [.complaint (c.message "ignoring non-option arguments")])
        ++ [.output (line.toList ++ ['\n'])] }

def test (c : Call) : Effect :=
  match Condition.holds c.files c.args with
  | .ok value => c.ends (if value then 0 else 1)
  | .error problem => c.complains [problem] 2

/-- Checks the condition that its arguments are, up to the closing bracket. -/
def bracket (c : Call) : Effect :=
  if c.args.getLast? = some "]" then test { c with args := c.args.dropLast }
  else c.complains ["missing ]"] 2

def printVariables (c : Call) : Effect :=
  c.writes (c.environment.flatMap fun (name, value) => name.toList ++ '=' :: value.toList ++ ['\n'])

/-! ## Sleeping -/

/-- How long the arguments ask to sleep, in nanoseconds. -/
def sleepTime (c : Call) : Except Effect Nat :=
  match readArguments commonOptions false c.args with
  | .error problem => .error (c.refuses [problem])
  | .ok g =>
    let wrong := g.operands.filter fun a => (readSpan? a).isNone
    if g.asksAbout then .error (c.ends 0)
    else if g.operands.isEmpty then .error (c.refuses ["missing operand"])
    else if !wrong.isEmpty then
      .error (c.refuses (wrong.map fun a => "invalid time interval " ++ quotedValue a))
    else .ok ((g.operands.filterMap readSpan?).foldl (fun n span => min endless (n + span)) 0)

/-! ## By name -/

/-- The utilities that are programs by themselves and end at once. -/
def programs : List (String × (Call → Effect)) := [
  ("[", fun c => c.tells (bracket c)), ("echo", echo), ("false", (·.ends 1)), ("mkdir", mkdir),
  ("printf", printf), ("pwd", pwd), ("test", fun c => c.tells (test c)), ("touch", touch),
  ("true", (·.ends 0))]

/-- The utilities of the shell that change nothing in it. -/
def shellUtilities : List (String × (Call → Effect)) := [
  (":", (·.ends 0)), ("[", bracket), ("echo", shellEcho), ("false", (·.ends 1)),
  ("printf", shellPrintf), ("test", test), ("true", (·.ends 0))]

def names : List String := ["cat", "env", "sh", "sleep"] ++ programs.map (·.1)

end CompositionGen.Utility
