import CompositionGen.Files

/-!
# Effects of utilities

What a utility is given and what it does: it may change the files, and it writes to its output and
its errors in some order. All texts are byte strings.
-/

namespace CompositionGen.Utility

inductive Saying where
  | output (chars : List Char)
  | complaint (line : String)
  deriving DecidableEq, Inhabited, Repr

structure Call where
  name : String
  args : List String
  /-- The files, with the directory that the utility runs in. -/
  files : FileSystem
  environment : List (String × String) := []

structure Effect where
  files : FileSystem
  sayings : List Saying := []
  status : Nat := 0

def Call.writes (c : Call) (chars : List Char) : Effect :=
  { files := c.files, sayings := [.output chars] }

def Call.ends (c : Call) (status : Nat) : Effect := { files := c.files, status }

/-- The effect of saying what is wrong and ending with a status. -/
def Call.complains (c : Call) (lines : List String) (status : Nat) : Effect :=
  { files := c.files, sayings := lines.map .complaint, status }

def Call.message (c : Call) (text : String) : String := c.name ++ ": " ++ text

/-- The line that tells where the right use of a program is told. -/
def Call.hint (c : Call) : String := "Try '" ++ c.name ++ " --help' for more information."

def Call.refuses (c : Call) (problems : List String) : Effect :=
  c.complains (problems.map c.message ++ [c.hint]) 1

/-- Does something for each of several names, and goes on after what fails. -/
def forEach (start : Effect) (names : List String)
    (act : FileSystem → String → FileSystem × List Saying × Bool) : Effect :=
  names.foldl (fun e name =>
    let (files, sayings, done) := act e.files name
    { files, sayings := e.sayings ++ sayings, status := if done then e.status else 1 }) start

end CompositionGen.Utility
