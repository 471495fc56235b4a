import CompositionGen.Script.Arithmetic
import CompositionGen.Script.Pattern
import CompositionGen.Text.Split

/-!
# Expanding words

The words of a command become its fields. Quoted text stays whole; text that comes from an
expansion outside quotes is cut at separators, and where all arguments are meant, each is a field
of its own. What a word needs from outside, such as the output of a script, is asked for first and
put in its place.
-/

namespace CompositionGen.Script

structure Bindings where
  name : String
  arguments : List String := []
  vars : Variables := .empty
  status : Nat := 0
  process : Nat
  background : Option Nat := none
  options : List Char := []
  deriving Inhabited, Repr

namespace Bindings

def separators (b : Bindings) : List Char :=
  ((b.vars.valueOf? "IFS").getD " \t\n").toList

/-- The values of a parameter, if it is set: several only where it means all arguments. -/
def valuesOf? (b : Bindings) : Parameter → Option (List String)
  | .argument 0 => some [b.name]
  | .argument (n + 1) => (b.arguments[n]?).map fun text => [text]
  | .arguments => if b.arguments.isEmpty then none else some b.arguments
  | .joined =>
    let between := match b.vars.valueOf? "IFS" with
      | some ifs => String.ofList (ifs.toList.take 1)
      | none => " "
    if b.arguments.isEmpty then none else some [Text.joinTexts between b.arguments]
  | .argumentCount => some [toString b.arguments.length]
  | .status => some [toString b.status]
  | .process => some [toString b.process]
  | .background => b.background.map fun n => [toString n]
  | .options => some [String.ofList b.options]
  | .variable name => (b.vars.valueOf? name).map fun text => [text]

/-- The values of a parameter; one that is not set is empty. -/
def valuesOf (b : Bindings) (p : Parameter) : List String :=
  match b.valuesOf? p, p with
  | some values, _ => values
  | none, .arguments => []
  | none, _ => [""]

/-- Whether an operation keeps the value of a parameter: it is set, and not empty if that does not
count as set. -/
def keeps (b : Bindings) (p : Parameter) (orEmpty : Bool) : Bool :=
  match b.valuesOf? p with
  | none => false
  | some values => !(orEmpty && values.all String.isEmpty)

end Bindings

/-! ## Fields -/

/-- Fields that are complete, and the one under way, if it has begun. -/
structure Fields where
  complete : List (List Glyph) := []
  current : Option (List Glyph) := none
  /-- Whether a field has just been completed by white space. -/
  afterBlank : Bool := false

namespace Fields

def append (f : Fields) (glyphs : List Glyph) : Fields :=
  { f with current := some (f.current.getD [] ++ glyphs), afterBlank := false }

def finish (f : Fields) : Fields :=
  match f.current with
  | none => f
  | some glyphs => { f with complete := f.complete ++ [glyphs], current := none }

/-- White space, of which any amount separates fields. -/
def isBlank (c : Char) : Bool := c = ' ' || c = '\t' || c = '\n'

/-- Continues with a character of text that is cut at separators. -/
def appendCut (separators : List Char) (f : Fields) (c : Char) : Fields :=
  if !separators.contains c then f.append [⟨c, false⟩]
  else if isBlank c then { f.finish with afterBlank := f.current.isSome || f.afterBlank }
  else match f.current with
    | some _ => { f.finish with afterBlank := false }
    | none =>
      if f.afterBlank then { f with afterBlank := false }
      else { f with complete := f.complete ++ [[]] }

/-- Continues with text, which is cut at separators unless it is quoted. -/
def appendText (separators : List Char) (quoted : Bool) (f : Fields) (cs : List Char) : Fields :=
  if quoted then f.append (cs.map (⟨·, true⟩)) else cs.foldl (appendCut separators) f

/-- Continues with texts between which fields end. -/
def appendEach (add : Fields → List Char → Fields) (f : Fields) : List (List Char) → Fields
  | [] => f
  | [cs] => add f cs
  | cs :: rest => appendEach add (add f cs).finish rest

mutual

def appendPart (b : Bindings) (separators : List Char) (f : Fields) : Part → Fields
  | .text cs quoted => f.append (cs.map (⟨·, quoted⟩))
  | .expanded cs quoted => f.appendText separators quoted cs
  | .output _ _ _ => f
  | .arithmetic _ _ => f
  | .parameter p operation word quoted =>
    let whole (values : List String) :=
      appendEach (appendText separators quoted) f (values.map String.toList)
    match operation with
    | .value => whole (b.valuesOf p)
    | .size => whole [toString (Text.joinTexts " " (b.valuesOf p)).length]
    | .fallback orEmpty | .initial orEmpty =>
      if b.keeps p orEmpty then whole (b.valuesOf p) else appendParts b separators f word
    | .demand _ => whole (b.valuesOf p)
    | .replacement orEmpty =>
      if b.keeps p orEmpty then appendParts b separators f word
      else if quoted then f.append [] else f
    | .cut atEnd longest =>
      let parts := patternOf ((appendParts b [] {} word).current.getD [])
      whole ((b.valuesOf p).map fun text =>
        String.ofList (cutMatch atEnd longest parts text.toList))
    | .unknown => f

def appendParts (b : Bindings) (separators : List Char) (f : Fields) : List Part → Fields
  | [] => f
  | part :: rest => appendParts b separators (appendPart b separators f part) rest

end

end Fields

namespace Bindings

def fieldsOf (b : Bindings) (w : Word) : List (List Glyph) :=
  (Fields.appendParts b b.separators {} w).finish.complete

/-- The glyphs of a word that is not cut. -/
def glyphsOf (b : Bindings) (w : Word) : List Glyph :=
  let f := (Fields.appendParts b [] {} w).finish
  List.intercalate [⟨' ', true⟩] f.complete

def textOfGlyphs (glyphs : List Glyph) : String := String.ofList (glyphs.map (·.char))

/-- The one text of a word that is not cut. -/
def textOf (b : Bindings) (w : Word) : String := textOfGlyphs (b.glyphsOf w)

end Bindings

/-! ## Tildes -/

namespace Bindings

/-- The directory of a user; one without a name is the user of the shell. -/
def homeOf? (b : Bindings) (user : String) : Option String :=
  if user.isEmpty then b.vars.valueOf? "HOME" else if user = "root" then some "/root" else none

/-- A word with the directory of a user in the place of a tilde at its start and of the user's name
behind it. -/
def atHome (b : Bindings) (w : Word) : Word :=
  match w with
  | .text ['~'] false :: rest =>
    let name := rest.takeWhile fun
      | .text [c] false => c ≠ '/'
      | _ => false
    let after := rest.drop name.length
    let isWhole := match after with
      | [] | .text ['/'] false :: _ => true
      | _ => false
    match (b.homeOf? (String.ofList (name.flatMap Part.literal))).filter fun _ => isWhole with
    | some directory => .text directory.toList true :: after
    | none => w
  | _ => w

/-- A word in which a tilde may also stand after a colon. -/
def atHomes (b : Bindings) (w : Word) : Word :=
  let cut := w.foldr (fun part (segments : List Word) => match part, segments with
    | .text [':'] false, _ => [] :: segments
    | part, first :: rest => (part :: first) :: rest
    | part, [] => [[part]]) [[]]
  List.intercalate [.text [':'] false] (cut.map b.atHome)

end Bindings

/-! ## Demands -/

/-- What a word needs from outside before it is expanded. -/
inductive Demand where
  /-- The output of a script, given by its text and the line that it begins on. -/
  | run (source : List Char) (line : Nat)
  | compute (expression : String)
  | assign (name value : String)
  | refuse (message : String)
  deriving DecidableEq, Inhabited, Repr

def Parameter.name : Parameter → String
  | argument n => toString n
  | arguments => "@"
  | joined => "*"
  | argumentCount => "#"
  | status => "?"
  | process => "$"
  | background => "!"
  | options => "-"
  | .variable name => name

/-- Whether a parameter that is not set is refused by the option that asks for that. -/
def Parameter.mayBeRefused : Parameter → Bool
  | arguments => false
  | joined => false
  | _ => true

def notSet (p : Parameter) (orEmpty : Bool) (message : String) : Demand :=
  .refuse (p.name ++ ": " ++ (if !message.isEmpty then message
    else if orEmpty then "parameter not set or null" else "parameter not set"))

mutual

def demandOfPart? (b : Bindings) : Part → Option Demand
  | .text _ _ | .expanded _ _ => none
  | .output source line _ => some (.run source line)
  | .arithmetic expression _ =>
    (demandOf? b expression).or (some (.compute (b.textOf expression)))
  | .parameter p operation word _ =>
    match operation with
    | .value | .size | .cut _ _ =>
      if b.options.contains 'u' && p.mayBeRefused && (b.valuesOf? p).isNone then
        some (notSet p false "")
      else demandOf? b word
    | .fallback orEmpty => if b.keeps p orEmpty then none else demandOf? b word
    | .initial orEmpty =>
      if b.keeps p orEmpty then none
      else (demandOf? b word).or (match p with
        | .variable name => some (.assign name (b.textOf word))
        | _ => some (.refuse (p.name ++ ": bad variable name")))
    | .demand orEmpty =>
      if b.keeps p orEmpty then none
      else (demandOf? b word).or (some (notSet p orEmpty (b.textOf word)))
    | .replacement orEmpty => if b.keeps p orEmpty then demandOf? b word else none
    | .unknown => some (.refuse "Bad substitution")

def demandOf? (b : Bindings) : List Part → Option Demand
  | [] => none
  | part :: rest => (demandOfPart? b part).or (demandOf? b rest)

end

mutual

/-- A part with an answer in the place of its first demand. -/
def answerPart (b : Bindings) (answer : List Char) : Part → Part
  | .output _ _ quoted => .expanded answer quoted
  | .arithmetic expression quoted =>
    if (demandOf? b expression).isSome then .arithmetic (answerParts b answer expression) quoted
    else .expanded answer quoted
  | .parameter p operation word quoted =>
    .parameter p operation (answerParts b answer word) quoted
  | other => other

/-- Parts with an answer in the place of their first demand. -/
def answerParts (b : Bindings) (answer : List Char) : List Part → List Part
  | [] => []
  | part :: rest =>
    if (demandOfPart? b part).isSome then answerPart b answer part :: rest
    else part :: answerParts b answer rest

end

def demandOfWords? (b : Bindings) (words : List Word) : Option Demand :=
  words.findSome? (demandOf? b)

def answerWords (b : Bindings) (answer : List Char) : List Word → List Word
  | [] => []
  | w :: rest =>
    if (demandOf? b w).isSome then answerParts b answer w :: rest
    else w :: answerWords b answer rest

/-! ## Order -/

mutual

/-- The parts that a part stands for, once the variables in it are what they are now. -/
def Bindings.settlePart (b : Bindings) : Part → List Part
  | .parameter (.variable name) operation word quoted =>
    let p := Parameter.variable name
    let settled (text : String) := [Part.expanded text.toList quoted]
    match operation with
    | .value | .size | .cut _ _ =>
      settled (b.textOf [.parameter p operation word true])
    | .fallback orEmpty | .initial orEmpty =>
      if b.keeps p orEmpty then settled (b.textOf [.parameter p .value [] true])
      else b.settleParts word
    | .replacement orEmpty =>
      if b.keeps p orEmpty then b.settleParts word else [.text [] quoted]
    | .demand _ | .unknown => [.parameter p operation word quoted]
  | other => [other]

/-- Parts, once the variables in them are what they are now. -/
def Bindings.settleParts (b : Bindings) : List Part → List Part
  | [] => []
  | part :: rest => b.settlePart part ++ b.settleParts rest

end

/-- The parts up to the first demand, once their variables are what they are now, and the rest. -/
def Bindings.settleWord (b : Bindings) : List Part → List Part
  | [] => []
  | part :: rest =>
    if (demandOfPart? b part).isSome then part :: rest
    else b.settlePart part ++ b.settleWord rest

/-- The words up to the first demand, once their variables are what they are now, and the rest. A
demand may change variables, and what stands before it does not see that. -/
def Bindings.settleWords (b : Bindings) : List Word → List Word
  | [] => []
  | w :: rest =>
    b.settleWord w :: (if (demandOf? b w).isSome then rest else b.settleWords rest)

end CompositionGen.Script
