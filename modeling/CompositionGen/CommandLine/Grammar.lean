import CompositionGen.Dictionary
import CompositionGen.Text.Decimal
import CompositionGen.Text.Split

/-!
# Reading options

A command takes options, each with at most one value, and perhaps a subcommand. An option whose
value stands in an argument of its own is recorded only when the next option is met or the
arguments end, and so are the faults of its value; an argument that cannot be read at all is
refused at once. Options that are not given may come from the environment.
-/

namespace CompositionGen.CommandLine

/-- Why arguments are not accepted; help and version are answered in the same way. -/
inductive UsageError where
  | displayHelp
  | displayVersion
  | missingArguments
  | missingSubcommand
  | invalidSubcommand
  | unknownArgument
  | invalidValue
  | valueValidation
  | argumentConflict
  | tooManyValues
  deriving DecidableEq, Inhabited, Repr

inductive ValueKind where
  | text
  /-- A text that is not empty. -/
  | path
  | oneOf (names : List String)
  /-- A number below a bound; a zero with a minus sign is accepted only if `signed`. -/
  | natural (bound : Nat) (signed : Bool)
  deriving DecidableEq, Inhabited, Repr

namespace ValueKind

def isNegativeZero (text : String) : Bool :=
  match text.toList with
  | '-' :: digits => Decimal.isNumeral digits && Decimal.value digits == 0
  | _ => false

def readNatural? (bound : Nat) (signed : Bool) (text : String) : Option Nat :=
  if signed && isNegativeZero text then some 0 else Decimal.readBelow? bound text

def check (kind : ValueKind) (value : String) : Except UsageError Unit :=
  match kind with
  | text => .ok ()
  | path => if value.isEmpty then .error .invalidValue else .ok ()
  | oneOf names => if names.contains value then .ok () else .error .invalidValue
  | natural bound signed =>
    if (readNatural? bound signed value).isSome then .ok () else .error .valueValidation

end ValueKind

inductive OptionAction where
  /-- It has a value and is given once. -/
  | set (kind : ValueKind)
  /-- It has values between commas and may be given again. -/
  | append (kind : ValueKind)
  /-- It has no value and is given once. -/
  | flag
  | help
  | version
  deriving DecidableEq, Inhabited, Repr

def OptionAction.takesValue : OptionAction → Bool
  | set _ | append _ => true
  | _ => false

structure OptionSpec where
  long : String
  short : Option Char := none
  action : OptionAction
  /-- The environment variable that its value may come from. -/
  envName : Option String := none
  deriving DecidableEq, Inhabited, Repr

structure Grammar where
  options : List OptionSpec
  subcommands : List String := []
  deriving Inhabited, Repr

structure Matches where
  values : Dictionary (List String) := .empty

/-- An option that has been met but is not recorded. -/
inductive Pending where
  | none
  | awaiting (option : OptionSpec)
  | supplied (option : OptionSpec) (value : String)

structure Scan where
  found : Matches := {}
  pending : Pending := .none
  /-- Whether a double dash has ended the options. -/
  ended : Bool := false

namespace Scan

def record (s : Scan) (option : OptionSpec) (raw : List String) : Except UsageError Scan := do
  let old := s.found.values.get? option.long
  let store (values : List String) : Scan :=
    { s with found := ⟨s.found.values.insert option.long values⟩ }
  match option.action with
  | .help => .error .displayHelp
  | .version => .error .displayVersion
  | .flag => if old.isSome then .error .argumentConflict else pure (store raw)
  | .set kind =>
    if old.isSome then .error .argumentConflict
    raw.forM kind.check
    pure (store raw)
  | .append kind =>
    let values := raw.flatMap fun v => (Text.split ',' v.toList).map String.ofList
    values.forM kind.check
    pure (store (old.getD [] ++ values))

/-- Records the option that is pending; one without its value is refused. -/
def settle (s : Scan) : Except UsageError Scan :=
  let settled := { s with pending := .none }
  match s.pending with
  | .none => .ok s
  | .awaiting _ => .error .invalidValue
  | .supplied option value => settled.record option [value]

def isAwaiting (s : Scan) : Bool :=
  match s.pending with
  | .awaiting _ => true
  | _ => false

def meet (s : Scan) (option : OptionSpec) (value : Option String) : Except UsageError Scan := do
  match option.action.takesValue, value with
  | true, some v => (← s.settle).record option [v]
  | true, none => pure { ← s.settle with pending := .awaiting option }
  | false, some _ => .error .tooManyValues
  | false, none => (← s.settle).record option []

end Scan

def longOption? (arg : List Char) : Option (String × Option String) :=
  match arg with
  | '-' :: '-' :: rest =>
    let name := rest.takeWhile (· ≠ '=')
    some (String.ofList name, match rest.drop name.length with
      | _ :: value => some (String.ofList value)
      | [] => none)
  | _ => none

/-- A short option with the text after it. -/
def shortOption? (arg : List Char) : Option (Char × List Char) :=
  match arg with
  | '-' :: c :: rest => if c = '-' then none else some (c, rest)
  | _ => none

/-- The value in the argument of a short option; an equals sign before it does not count. -/
def attachedValue? (rest : List Char) : Option String :=
  match rest with
  | [] => none
  | '=' :: value => some (String.ofList value)
  | value => some (String.ofList value)

namespace Grammar

def strayArgument (g : Grammar) (s : Scan) (arg : String) : UsageError :=
  if g.subcommands.isEmpty || (s.ended && g.subcommands.contains arg) then .unknownArgument
  else .invalidSubcommand

/-- Reads one argument that is not the name of a subcommand. -/
def readArgument (g : Grammar) (s : Scan) (arg : String) : Except UsageError Scan :=
  if s.ended then .error (g.strayArgument s arg)
  else if arg = "--" then .ok { s with ended := true }
  else match longOption? arg.toList with
    | some (name, value) => match g.options.find? (·.long == name) with
      | some option => s.meet option value
      | none => .error .unknownArgument
    | none => match shortOption? arg.toList with
      | some (c, rest) => match g.options.find? (·.short == some c) with
        | some option =>
          if option.action.takesValue then s.meet option (attachedValue? rest)
          else s.meet option none
        | none => .error .unknownArgument
      | none => match s.pending with
        | .awaiting option => .ok { s with pending := .supplied option arg }
        | _ => .error (g.strayArgument s arg)

/-- Reads arguments up to the name of a subcommand, and gives that with the arguments after it. -/
def scan (g : Grammar) (s : Scan) : List String →
    Except UsageError (Scan × Option (String × List String))
  | [] => .ok (s, none)
  | arg :: rest =>
    if !s.ended && !s.isAwaiting && g.subcommands.contains arg then .ok (s, some (arg, rest))
    else do
      let next ← g.readArgument s arg
      g.scan next rest

def fromEnvironment (env : Dictionary String) (s : Scan) : List OptionSpec →
    Except UsageError Scan
  | [] => .ok s
  | option :: rest =>
    match option.envName.bind env.get?, s.found.values.get? option.long with
    | some value, none => do
      let next ← s.record option [value]
      fromEnvironment env next rest
    | _, _ => fromEnvironment env s rest

/-- What is found once all arguments are read. -/
def conclude (g : Grammar) (env : Dictionary String) (s : Scan) : Except UsageError Matches := do
  let settled ← s.settle
  let complete ← fromEnvironment env settled g.options
  pure complete.found

end Grammar

namespace Matches

def value? (m : Matches) (name : String) : Option String := (m.values.get? name).bind List.head?

def has (m : Matches) (name : String) : Bool := (m.values.get? name).isSome

end Matches

end CompositionGen.CommandLine
