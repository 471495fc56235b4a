import CompositionGen.Files.Record
import CompositionGen.Json.Parser
import CompositionGen.Json.Printer
import CompositionGen.Program

/-!
# The executable

Runs the command line on a file tree that is read as one line of JSON from standard input, and
prints the tree as it is afterwards behind the program's own output.
-/

namespace CompositionGen

/-- The machine with the file tree of a line; its current directory is the root, and what
every system has is added. -/
def Machine.parse? (environment : Dictionary String) (line : String) : Option Machine := do
  let root ← FileNode.ofJson? (← Json.parse? line)
  some { files := (FileSystem.mk root []).equipped, environment }

/-- The variables that the program looks at, as far as they are set. -/
def readEnvironment : IO (Dictionary String) :=
  ("CARGO" :: CommandLine.buildGrammar.options.filterMap (·.envName)).foldlM (fun env name => do
    return (← IO.getEnv name).elim env fun value => env.insert name value) .empty

def runOn (args : List String) (line : String) : IO UInt32 := do
  match Machine.parse? (← readEnvironment) line with
  | none =>
    (← IO.getStderr).putStrLn "error: standard input holds no file tree"
    return 2
  | some machine =>
    let (output, after) := Program.run args machine
    (← IO.getStdout).putStr output.stdout
    (← IO.getStderr).putStr output.stderr
    (← IO.getStdout).putStrLn after.files.root.toJson.render
    return UInt32.ofNat output.status

end CompositionGen

def main (args : List String) : IO UInt32 := do
  CompositionGen.runOn args (← (← IO.getStdin).getLine)
