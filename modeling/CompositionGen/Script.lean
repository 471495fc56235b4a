/-!
# Shell scripts

The shell language that compile scripts are written in: simple commands with redirections,
pipelines, lists, groups, subshells, conditionals, loops and functions. Words are kept in parts,
which are expanded only when a command is run. In a script and in all that it works with, a
character stands for the byte of its number.
-/

namespace CompositionGen.Script

inductive Parameter where
  /-- An argument by its number; number zero is the name of the script. -/
  | argument (n : Nat)
  /-- All arguments, each for itself. -/
  | arguments
  /-- All arguments in one. -/
  | joined
  | argumentCount
  | status
  /-- The number of the shell's process. -/
  | process
  /-- The number of the last process that was put into the background. -/
  | background
  | options
  | variable (name : String)
  deriving DecidableEq, Inhabited, Repr

inductive Operation where
  | value
  /-- The number of its bytes. -/
  | size
  /-- A word stands for a value that is unset, or empty if `orEmpty`. -/
  | fallback (orEmpty : Bool)
  /-- As `fallback`, and the variable is set to the word. -/
  | initial (orEmpty : Bool)
  /-- A value that is unset, or empty if `orEmpty`, ends the shell with the word as a message. -/
  | demand (orEmpty : Bool)
  /-- A word stands for a value that is set, and not empty if `orEmpty`. -/
  | replacement (orEmpty : Bool)
  /-- What matches a pattern is cut off at one end. -/
  | cut (atEnd longest : Bool)
  /-- There is no such operation. -/
  | unknown
  deriving DecidableEq, Inhabited, Repr

/-- A part of a word; what is not quoted is cut into fields once it is expanded. -/
inductive Part where
  | text (chars : List Char) (quoted : Bool)
  | parameter (p : Parameter) (operation : Operation) (word : List Part) (quoted : Bool)
  /-- The output of a script, given by its text and the line that it begins on. -/
  | output (source : List Char) (line : Nat) (quoted : Bool)
  | arithmetic (expression : List Part) (quoted : Bool)
  /-- Text that came from an expansion. -/
  | expanded (chars : List Char) (quoted : Bool)
  deriving Inhabited, Repr

/-- A word before expansion. -/
abbrev Word := List Part

inductive OutputKind where
  /-- It is emptied first, unless files that are there are to be kept. -/
  | replace
  /-- It is emptied first in any case. -/
  | force
  | append
  deriving DecidableEq, Inhabited, Repr

/-- What a command does to its descriptors before it runs. -/
inductive Redirect where
  | input (descriptor : Nat) (source : Word)
  | here (descriptor : Nat) (text : Word)
  | output (descriptor : Nat) (kind : OutputKind) (target : Word)
  /-- A descriptor reads from and writes to a file. -/
  | both (descriptor : Nat) (target : Word)
  /-- A descriptor becomes another one, or is closed if the word is a dash. -/
  | duplicate (descriptor : Nat) (source : Word)
  deriving Inhabited, Repr

/-- A command without commands inside. -/
structure Simple where
  line : Nat
  words : List Word
  redirects : List Redirect
  deriving Inhabited, Repr

end Script

inductive Script where
  | nothing
  | simple (command : Script.Simple)
  /-- The output of the first is the input of the second. -/
  | pipe (first second : Script)
  | subshell (body : Script)
  | background (line : Nat) (body : Script)
  | redirected (line : Nat) (body : Script) (redirects : List Script.Redirect)
  | sequence (first second : Script)
  /-- The second only if the first succeeds. -/
  | both (first second : Script)
  /-- The second only if the first fails. -/
  | either (first second : Script)
  | negate (body : Script)
  | branch (condition yes no : Script)
  /-- A body that is repeated as long as a condition succeeds, or fails if `untilTrue`. -/
  | loop (untilTrue : Bool) (condition body : Script)
  /-- A body for each of some words, or for each argument if there are none. -/
  | each (line : Nat) (name : String) (words : Option (List Script.Word)) (body : Script)
  /-- The first body one of whose patterns a word matches. -/
  | choose (line : Nat) (subject : Script.Word) (clauses : List (List Script.Word × Script))
  | define (name : String) (body : Script)
  /-- A place where the text is no script. -/
  | malformed (line : Nat) (problem : String)
  deriving Inhabited, Repr

end CompositionGen
