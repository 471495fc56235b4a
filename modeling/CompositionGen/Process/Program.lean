import CompositionGen.Script.Variables
import CompositionGen.Utility

/-!
# Finding programs

A name with a slash is the path of a program, any other name is looked for in the directories of
the search path. A file can be run if it is executable and names its interpreter on its first
line; in the end a program of the system is run, with the files as its arguments. A file without
an interpreter is a script to those who take it for one.
-/

namespace CompositionGen

structure Invocation where
  program : String
  /-- What the program was called by. -/
  name : String
  args : List String
  deriving DecidableEq, Inhabited, Repr

namespace Invocation

def systemDirectories : List String := ["/bin", "/usr/bin"]

/-- The search path where none is given. -/
def defaultSearchPath : String := "/usr/local/sbin:/usr/local/bin:/usr/sbin:/usr/bin:/sbin:/bin"

def systemProgram? (path : String) : Option String :=
  Utility.names.find? fun name => systemDirectories.any fun d => path = d ++ "/" ++ name

/-- The interpreter that the first line of a file names, with its argument. -/
def interpreter? (bytes : List UInt8) : Option (List String) :=
  match bytes with
  | 0x23 :: 0x21 :: rest =>
    let isBlank (c : Char) : Bool := c = ' ' || c = '\t'
    let line := (ByteString.ofBytes (rest.takeWhile (· ≠ 10))).toList.dropWhile isBlank
    let line := (line.reverse.dropWhile isBlank).reverse
    let program := line.takeWhile (!isBlank ·)
    let argument := (line.drop program.length).dropWhile isBlank
    let path := if program.contains '/' then program else '.' :: '/' :: program
    if program.isEmpty then none
    else some (String.ofList path ::
      (if argument.isEmpty then [] else [String.ofList argument]))
  | _ => none

/-- What is run for the file at a path: its interpreter, or none. -/
def fileInterpreter (files : FileSystem) (path : String) : Except FileError (List String) := do
  match ← files.stat ⟨path⟩ with
  | .file content true => match interpreter? content.toBytes with
    | some words => pure words
    | none => .error .noExecFormat
  | _ => .error .notExecutable

def candidates (searchPath name : String) : List String :=
  if name.toList.contains '/' then [name]
  else (Text.split ':' searchPath.toList).map fun d =>
    if d.isEmpty then "./" ++ name else String.ofList d ++ "/" ++ name

/-- The first candidate that something is found at; one that may not be run is remembered. -/
def choose (files : FileSystem) : List String → Except FileError String
  | [] => .error .notFound
  | p :: rest =>
    if (systemProgram? p).isSome then .ok p
    else match fileInterpreter files p with
      | .error .notFound => choose files rest
      | .error .notExecutable => match choose files rest with
        | .error .notFound => .error .notExecutable
        | other => other
      | .error .notDirectory => match choose files rest with
        | .error .notFound => .error .notDirectory
        | other => other
      | _ => .ok p

/-- What is run for a name and arguments; `limit` bounds the chain of interpreters. A file without
an interpreter is run by the shell if `asScript`. -/
def resolve (files : FileSystem) (searchPath : String) (asScript : Bool) :
    (limit : Nat) → (name : String) → (args : List String) → Except FileError Invocation
  | 0, _, _ => .error .tooManyLinks
  | limit + 1, name, args => do
    if name.isEmpty then .error .notFound
    let p ← choose files (candidates searchPath name)
    match systemProgram? p with
    | some program => pure ⟨program, name, args⟩
    | none =>
      let run := (fileInterpreter files p).bind fun words =>
        resolve files searchPath false limit (words.headD "") (words.tail ++ p :: args)
      match run with
      | .error .noExecFormat =>
        if asScript then pure ⟨"sh", name, p :: args⟩ else .error .noExecFormat
      | other => other

/-- What is run for a name and arguments where the search path is among these variables. -/
def find (files : FileSystem) (vars : Script.Variables) (name : String) (args : List String)
    (asScript : Bool) : Except FileError Invocation :=
  resolve files ((vars.valueOf? "PATH").getD defaultSearchPath) asScript 5 name args

end Invocation

end CompositionGen
