import CompositionGen.Json.Document
import CompositionGen.Files.Path

/-!
# Messages of the compiler

The compiler writes one message on a line, as a JSON object, between lines meant for people. A
line that is no message is logged, and a message is a detail, unless it announces a library: an
artifact of a crate that is compiled as a library to be loaded, with a file that has the extension
of such libraries.
-/

namespace CompositionGen

inductive OutputLine where
  | log (line : String)
  | detail (line : String)
  | artifact (path : Path)
  deriving DecidableEq, Inhabited, Repr

/-- The parts of a message that are looked at. -/
structure BuildMessage where
  reason : String
  /-- The crate types of the target, if the message has a target. -/
  crateTypes : Option (List String)
  filenames : List String
  deriving DecidableEq, Inhabited, Repr

namespace BuildMessage

open Json (Document)

def text? : Document → Option String
  | .string s => s
  | _ => none

def texts? : Document → Option (List String)
  | .array items => items.mapM text?
  | _ => none

/-- Whether every name of an object is a text. -/
def namesAreTexts (members : List (Option String × Document)) : Bool :=
  members.all fun m => m.1.isSome

/-- The value of a field of an object, which must not be given twice. -/
def field? (name : String) (members : List (Option String × Document)) :
    Option (Option Document) :=
  match members.filter (fun m => m.1 == some name) with
  | [] => some none
  | [m] => some (some m.2)
  | _ => none

def textsField? (name : String) (members : List (Option String × Document)) :
    Option (List String) := do
  match ← field? name members with
  | none => some []
  | some value => texts? value

/-- The crate types of a target, which is an object or the list of its one field. -/
def target? : Document → Option (Option (List String))
  | .null => some none
  | .object members =>
    if namesAreTexts members then (textsField? "crate_types" members).map some else none
  | .array [] => some (some [])
  | .array [value] => (texts? value).map some
  | _ => none

def ofDocument? : Document → Option BuildMessage
  | .object members => do
    if !namesAreTexts members then none
    let reason ← text? (← (← field? "reason" members))
    let target ← field? "target" members
    let crateTypes ← target.elim (some none) target?
    some ⟨reason, crateTypes, ← textsField? "filenames" members⟩
  | _ => none

def parse? (line : String) : Option BuildMessage :=
  if ['\x7b'].isPrefixOf line.toList then (Document.parse? line).bind ofDocument? else none

def libraryExtension : String := "so"

def library? (m : BuildMessage) : Option Path :=
  if m.reason = "compiler-artifact" && (m.crateTypes.any fun types => types.contains "cdylib") then
    (m.filenames.map Path.ofText).find? fun p => p.extension? == some libraryExtension
  else none

/-- What a line of the compiler's output is taken for. -/
def interpret (line : String) : OutputLine :=
  match parse? line with
  | none => .log line
  | some m => match m.library? with
    | some path => .artifact path
    | none => .detail line

end BuildMessage

end CompositionGen
