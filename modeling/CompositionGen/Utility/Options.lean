import CompositionGen.Dictionary
import CompositionGen.Text.Split

/-!
# Options of utilities

The arguments of a utility are options and operands, which may stand in any order until two dashes
end the options. An option is a letter, several of which may share a dash, or a word after two
dashes, which may be shortened as long as it stays clear.
-/

namespace CompositionGen.Utility

structure OptionRule where
  key : Char
  isLetter : Bool := true
  /-- The word for the option; empty if it has none. -/
  word : String := ""
  takesArgument : Bool := false
  deriving DecidableEq, Inhabited, Repr

structure Given where
  options : List (Char × Option String) := []
  operands : List String := []
  deriving Inhabited, Repr

namespace Given

def withOption (g : Given) (key : Char) (argument : Option String) : Given :=
  { g with options := (key, argument) :: g.options }

def withOperand (g : Given) (operand : String) : Given :=
  { g with operands := operand :: g.operands }

def has (g : Given) (key : Char) : Bool := g.options.any (·.1 == key)

def argument? (g : Given) (key : Char) : Option String :=
  (g.options.reverse.find? (·.1 == key)).bind (·.2)

/-- Whether the utility is only asked to tell about itself. -/
def asksAbout (g : Given) : Bool := g.has '1' || g.has '2'

end Given

/-- The options by which a utility is asked to tell about itself. -/
def commonOptions : List OptionRule := [
  { key := '1', isLetter := false, word := "help" },
  { key := '2', isLetter := false, word := "version" }]

def inApostrophes (text : String) : String := "'" ++ text ++ "'"

/-- What a cluster of letters after a dash gives: the options, and whether the last of them takes
the next argument. -/
def readLetters (rules : List OptionRule) :
    List Char → Except String (List (Char × Option String) × Option Char)
  | [] => .ok ([], none)
  | c :: rest =>
    match rules.find? fun r => r.isLetter && r.key == c with
    | none => .error ("invalid option -- " ++ inApostrophes (String.singleton c))
    | some rule =>
      if rule.takesArgument then
        if rest.isEmpty then .ok ([], some c) else .ok ([(c, some (String.ofList rest))], none)
      else (readLetters rules rest).map fun (later, next?) => ((c, none) :: later, next?)

def ruleOfWord (rules : List OptionRule) (given word : String) : Except String OptionRule :=
  let worded := rules.filter (!·.word.isEmpty)
  match worded.find? (·.word == word) with
  | some rule => .ok rule
  | none =>
    match worded.filter fun r => word.toList.isPrefixOf r.word.toList with
    | [] => .error ("unrecognized option " ++ inApostrophes given)
    | first :: rest =>
      if rest.all (·.key == first.key) then .ok first
      else .error ("option " ++ inApostrophes given ++ " is ambiguous; possibilities:"
        ++ Text.joinTexts "" ((first :: rest).map fun r => " " ++ inApostrophes ("--" ++ r.word)))

/-- What a word after two dashes gives, as `readLetters`. -/
def readWord (rules : List OptionRule) (given : String) :
    Except String (List (Char × Option String) × Option Char) := do
  let cs := given.toList.drop 2
  let word := String.ofList (cs.takeWhile (· ≠ '='))
  let value := if cs.contains '=' then some (String.ofList (cs.drop (word.length + 1))) else none
  let rule ← ruleOfWord rules given word
  match rule.takesArgument, value with
  | true, some v => .ok ([(rule.key, some v)], none)
  | true, none => .ok ([], some rule.key)
  | false, none => .ok ([(rule.key, none)], none)
  | false, some _ =>
    .error ("option " ++ inApostrophes ("--" ++ rule.word) ++ " doesn't allow an argument")

def argumentMissing (rules : List OptionRule) (given : String) (key : Char) : String :=
  let word := ((rules.find? (·.key == key)).map (·.word)).getD ""
  if "--".toList.isPrefixOf given.toList then
    "option " ++ inApostrophes ("--" ++ word) ++ " requires an argument"
  else "option requires an argument -- " ++ inApostrophes (String.singleton key)

/-- Reads options and operands. Where options only come first, what follows the first operand is
an operand too. -/
def readArguments (rules : List OptionRule) (onlyFirst : Bool) :
    List String → Except String Given
  | [] => .ok {}
  | arg :: rest => do
    if arg = "--" then return { operands := rest }
    match arg.toList with
    | '-' :: c :: letters =>
      let (options, next?) ←
        if c = '-' then readWord rules arg else readLetters rules (c :: letters)
      match next?, rest with
      | none, rest =>
        let later ← readArguments rules onlyFirst rest
        return { later with options := options ++ later.options }
      | some key, value :: rest =>
        let later ← readArguments rules onlyFirst rest
        return { later with options := options ++ (key, some value) :: later.options }
      | some key, [] => .error (argumentMissing rules arg key)
    | _ =>
      if onlyFirst then return { operands := arg :: rest }
      let later ← readArguments rules onlyFirst rest
      return later.withOperand arg

end CompositionGen.Utility
