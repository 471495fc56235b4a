import CompositionGen.BuildUnit
import CompositionGen.Duration
import CompositionGen.Signal

/-!
# Results of compilations

How a program ends, and what compiling a unit comes to: the path of its artifact, or the stage
that failed.
-/

namespace CompositionGen

inductive ExitStatus where
  | code (n : Nat)
  | signal (n : Nat)
  deriving DecidableEq, Inhabited, Repr

namespace ExitStatus

/-- The status by which a shell knows how a program has ended. -/
def number : ExitStatus → Nat
  | code n => n
  | signal n => 128 + n

def success (s : ExitStatus) : Bool := s == code 0

def text : ExitStatus → String
  | code n => s!"exit status: {n}"
  | signal n => s!"signal: {n}" ++ (Signal.name? n).elim "" fun name => " (" ++ name ++ ")"

end ExitStatus

inductive CompileError where
  | spawn (program : String) (cause : FileError)
  | wait (cause : FileError)
  | failed (status : ExitStatus)
  | timeout (limit : Duration)
  | artifactMissing (path : Path) (attempts : Nat)
  | io (path : Path) (cause : FileError)
  | panicked (text : String)
  deriving DecidableEq, Inhabited, Repr

/-- The messages of an error and its cause, outermost first. -/
def CompileError.messages : CompileError → List String
  | spawn program cause => ["cannot start " ++ program, cause.message]
  | wait cause => ["waiting for the toolchain failed", cause.message]
  | failed status => ["toolchain exited with " ++ status.text]
  | timeout limit => ["compilation exceeded " ++ limit.text]
  | artifactMissing path attempts =>
    [s!"artifact {path.display} missing after {attempts} attempt(s)"]
  | io path cause => ["i/o error on " ++ path.display, cause.message]
  | panicked text => ["compile job panicked: " ++ text]

structure CompileResult where
  unit : BuildUnit
  outcome : Except CompileError Path

end CompositionGen
