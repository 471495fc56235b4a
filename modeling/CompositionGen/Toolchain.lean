import CompositionGen.BuildUnit
import CompositionGen.Dictionary
import CompositionGen.Report
import CompositionGen.Toolchain.Message

/-!
# Toolchains

A toolchain turns a unit into a program to run, and says what its lines of output mean. `cargo`
compiles a unit as a library in a target directory of its own; `program` runs any program, with
the paths of the artifact and the unit put in for their placeholders.
-/

namespace CompositionGen

structure Command where
  program : String
  args : List ByteString
  /-- Variables that the program gets besides those of the host. -/
  env : Dictionary ByteString
  deriving DecidableEq, Inhabited, Repr

/-- Whether a text holds the character that no argument of a program can hold. -/
def hasNull (text : String) : Bool := text.toList.any (· = '\x00')

/-- What stands in the place of an argument that cannot be one. -/
def nullText : String := "<string-with-nul>"

namespace Command

/-- The command as it is shown: arguments that cannot be ones are not. -/
def shown (c : Command) : Command :=
  let visible (text : String) : String := if hasNull text then nullText else text
  { c with program := visible c.program, args := c.args.map visible }

/-- Whether no program can be given this. -/
def isImpossible (c : Command) : Bool :=
  hasNull c.program || c.args.any hasNull
    || c.env.entries.any fun (name, value) => hasNull name || hasNull value

end Command

structure Toolchain where
  /-- The program that compiles a unit to an artifact; preparing it may panic. -/
  command : FileSystem → BuildUnit → (artifact : Path) → Except Panic Command
  interpret : String → OutputLine

namespace Toolchain

/-- The variable that holds the path of the unit being compiled. -/
def unitVariable : String := "XRC_TEMPLATE_BASE_PATH"

/-- The variable that holds the directory for intermediate files. -/
def targetVariable : String := "CARGO_TARGET_DIR"

def compileArgs : List String :=
  ["rustc", "--lib", "--crate-type", "cdylib", "--message-format", "json-render-diagnostics"]

/-- The command that compiles a unit below a target root. -/
def cargoCommand (cargo : String) (targetRoot : Path) (release : Bool) (fs : FileSystem)
    (unit : BuildUnit) : Command :=
  let source := fs.absolute unit.sourcePath
  let target := (fs.absolute targetRoot).join (.ofText unit.artifactName)
  { program := cargo
    args := compileArgs ++ (if release then ["--release"] else [])
      ++ ["--manifest-path", (source.join ⟨"Cargo.toml"⟩).text]
    env := (Dictionary.empty.insert targetVariable target.text).insert unitVariable source.text }

/-- Compiles with cargo, which announces the library that it makes. -/
def cargo (cargo : String) (targetRoot : Path) (release : Bool) : Toolchain where
  command fs unit _ := .ok (cargoCommand cargo targetRoot release fs unit)
  interpret := BuildMessage.interpret

def outputMark : List Char := "\x7boutput\x7d".toList

def unitMark : List Char := "\x7bunit\x7d".toList

/-- A text with the paths put in: first the artifact's, then the unit's. -/
def expand (output unit : String) (text : String) : String :=
  String.ofList (Text.replace unitMark unit.toList
    (Text.replace outputMark output.toList text.toList))

def programCommand (program : String) (args : List String) (env : List (String × String))
    (fs : FileSystem) (unit : BuildUnit) (artifact : Path) : Command :=
  let output := (fs.absolute artifact).display
  let source := (fs.absolute unit.sourcePath).display
  let given (text : String) : ByteString := .ofText (expand output source text)
  { program
    args := args.map given
    env := (Dictionary.empty.insertAll (env.map fun (name, value) => (name, given value))).insert
      unitVariable (.ofText source) }

/-- Compiles with any program, all of whose output is logged. -/
def program (program : String) (args : List String) (env : List (String × String)) :
    Toolchain where
  command fs unit artifact := .ok (programCommand program args env fs unit artifact)
  interpret := .log

end Toolchain

end CompositionGen
