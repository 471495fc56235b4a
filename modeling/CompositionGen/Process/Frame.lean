import CompositionGen.Process.Channel
import CompositionGen.Process.Program
import CompositionGen.Process.Roster
import CompositionGen.Script.Expansion
import CompositionGen.Script.Parser

/-!
# Processes

A process runs a script or a program of the system. What it still has to do is a stack of frames,
of which the first is done next. It has descriptors, a directory and, if it is a shell, variables,
functions and commands for signals. Processes have numbers by which signals reach them.
-/

namespace CompositionGen

structure Mode where
  /-- Whether something around it looks at its failure. -/
  tested : Bool := false
  /-- Whether the shell has nothing to do after it, so that it may turn into a program. -/
  final : Bool := false
  deriving DecidableEq, Inhabited, Repr

/-- The mode of a part whose failure is looked at. -/
def Mode.condition : Mode := { tested := true }

/-- The mode of a part after which the shell goes on. -/
def Mode.inner (m : Mode) : Mode := { m with final := false }

abbrev SavedVariables := List (String × Option Script.Variable)

abbrev SavedDescriptors := List (Nat × Option Channel)

structure Concatenation where
  name : String
  display : Utility.Display
  state : Utility.DisplayState := {}
  names : List String
  asksInput : Bool := false
  status : Nat := 0
  deriving DecidableEq, Inhabited, Repr

inductive Frame where
  /-- Evaluate a script; `substituted` is the status of the script whose output it took in last. -/
  | run (script : Script) (mode : Mode) (substituted : Option Nat)
  | onSuccess (script : Script) (mode : Mode)
  | onFailure (script : Script) (mode : Mode)
  | branch (yes no : Script) (mode : Mode)
  | invert
  /-- Go round in a loop; `begun` says whether its body was evaluated before. -/
  | loop (untilTrue : Bool) (condition body : Script) (mode : Mode) (begun : Bool)
  /-- Look at the condition of a loop; `last` is the status of its body. -/
  | loopTest (untilTrue : Bool) (condition body : Script) (mode : Mode) (last : Nat)
  /-- Go through the values of a loop that are left. -/
  | each (name : String) (values : List String) (body : Script) (mode : Mode) (begun : Bool)
  /-- Go back to descriptors from before a redirection. -/
  | restore (saved : SavedDescriptors)
  /-- Go back to variables from before a command that had some of its own. -/
  | restoreVars (saved : SavedVariables)
  | endCall (arguments : List String) (locals : SavedVariables)
  /-- Come back from a script that a command has read, perhaps from a file. -/
  | endSource (label : Option String) (isFile : Bool)
  /-- Leave the shell if the last command has failed and that is asked for. -/
  | insist
  /-- Go back to a status after the command of a signal. -/
  | settle (status : Nat)
  /-- Wait for a child; its status is taken over if it `counts`. -/
  | await (child : Nat) (counts : Bool)
  /-- Wait for pieces of work in the background, as they are named by arguments. -/
  | awaitNamed (names : List String)
  | awaitAll
  /-- Read what a child writes into a pipe, and put it into a script. -/
  | substitute (pipe child : Nat) (script : Script) (mode : Mode)
  /-- Read a line into variables; a backslash quotes the next character unless `raw`. -/
  | readLine (names : List String) (raw : Bool)
  | readScript (mode : Mode)
  | program (invocation : Invocation)
  /-- Write in some order, and end with a status. -/
  | say (name : String) (sayings : List Utility.Saying) (status : Nat)
  | concatenate (c : Concatenation)
  /-- Copy what a channel holds, and go on with other files. -/
  | drain (c : Concatenation) (source : Channel)
  | finish (status : Nat)
  deriving Inhabited

structure Process where
  id : Nat
  parent : Nat
  /-- When it goes on, in nanoseconds. -/
  wake : Nat
  bindings : Script.Bindings
  functions : Dictionary Script := .empty
  /-- What a shell does on signals by their numbers; number zero is its end. -/
  traps : List (Nat × String) := []
  directory : Location
  /-- The name by which a shell knows its directory. -/
  named : String := ""
  descriptors : Descriptors
  /-- Channels kept open besides those of the descriptors. -/
  kept : List Channel := []
  ignored : List Nat := []
  /-- Signals that have come and that there are commands for. -/
  pending : List Nat := []
  stopped : Bool := false
  /-- The pipe that the process was writing to when it was full. -/
  writing : Option Nat := none
  roster : Roster := []
  line : Nat := 1
  /-- The command of the shell that is under way. -/
  label : Option String := none
  frames : List Frame
  deriving Inhabited

/-- Whether a frame ends something under way, so that signals are only looked at after it. -/
def Frame.isPartial : Frame → Bool
  | run _ _ (some _) | restore _ | restoreVars _ | insist | await _ _ | substitute _ _ _ _
  | readLine _ _ => true
  | _ => false

def Frame.channels : Frame → List Channel
  | restore saved => saved.filterMap (·.2)
  | substitute pipe _ _ _ => [.pipe pipe false]
  | _ => []

namespace Process

/-- The channels that a process keeps open besides those of its descriptors. -/
def hiddenChannels (p : Process) : List Channel := p.kept ++ p.frames.flatMap Frame.channels

def holds (p : Process) (c : Channel) : Bool :=
  p.descriptors.any (·.2 == c) || p.hiddenChannels.contains c

/-- The channel that a process is to read from next. -/
def source? (p : Process) : Option Channel :=
  match p.frames with
  | .substitute pipe _ _ _ :: _ => some (.pipe pipe false)
  | .readLine _ _ :: _ | .readScript _ :: _ => p.descriptors.get? 0
  | .drain _ source :: _ => some source
  | _ => none

def status (p : Process) : Nat := p.bindings.status

def withStatus (p : Process) (status : Nat) : Process :=
  { p with bindings := { p.bindings with status } }

def withVars (p : Process) (vars : Script.Variables) : Process :=
  { p with bindings := { p.bindings with vars } }

def push (p : Process) (frames : List Frame) : Process := { p with frames := frames ++ p.frames }

def hasOption (p : Process) (letter : Char) : Bool := p.bindings.options.contains letter

/-- The process with a variable set, which is exported if an option asks for that. -/
def set (p : Process) (name value : String) : Process :=
  let vars := p.bindings.vars.assign name value
  p.withVars (if p.hasOption 'a' then vars.publish name else vars)

def messageLabel (p : Process) : String :=
  s!"{p.bindings.name}: {p.line}: " ++ p.label.elim "" (· ++ ": ")

def restoreVars (p : Process) (saved : SavedVariables) : Process :=
  p.withVars (saved.foldl (fun vars (name, old) =>
    vars.alter name fun _ => old.getD {}) p.bindings.vars)

def undo (p : Process) : Frame → Process
  | .restore saved => { p with descriptors := saved.foldl Descriptors.restore p.descriptors }
  | .restoreVars saved => p.restoreVars saved
  | .endCall arguments locals =>
    let q := p.restoreVars locals
    { q with bindings := { q.bindings with arguments } }
  | .endSource label _ => { p with label }
  | _ => p

/-- Gives up frames, undoing what they would undo, up to the first at which `stops` holds. -/
def unwind (stops : Frame → Bool) (p : Process) : Process :=
  let given := p.frames.takeWhile (!stops ·)
  given.foldl undo { p with frames := p.frames.drop given.length }

/-- What a signal does to a process: it goes on, perhaps changed, or it ends. -/
def receive (p : Process) (signal : Nat) : Option Process :=
  let resumed := if signal = Signal.resume then { p with stopped := false } else p
  if Signal.unstoppable.contains signal then
    if signal = Signal.kill then none else some { p with stopped := true }
  else if p.ignored.contains signal then some resumed
  else if p.traps.any (·.1 == signal) then
    some { resumed with pending := (List.range (Signal.last + 1)).filter fun n =>
      n = signal || p.pending.contains n }
  else match Signal.action signal with
    | .terminate => none
    | .ignore | .resume => some resumed
    | .stop => some { p with stopped := true }

/-- A new process like this one, as a shell makes them: what was kept aside stays open, and the
commands for signals do not hold for it. -/
def fork (p : Process) (id wake : Nat) (frames : List Frame) : Process :=
  { p with
    id, wake, frames, parent := p.id, kept := p.hiddenChannels, traps := [], pending := []
    writing := none, roster := [] }

end Process

end CompositionGen
