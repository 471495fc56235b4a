import CompositionGen.Compile.Result
import CompositionGen.Files
import CompositionGen.Text.Lines
import CompositionGen.Toolchain

/-!
# Activities

What a job does on its host, step by step: an activity asks the host for one thing at a time and
goes on with the answer. A host on which nothing else happens carries an activity out at once; a
host that many jobs share takes a step of one and then a step of another.
-/

namespace CompositionGen

/-- What has been seen of a program when watching it ends. -/
structure Child where
  stdout : Flow := {}
  stderr : Flow := {}
  /-- What waiting for its end gave, if it has ended. -/
  exit : Option (Except FileError ExitStatus) := none

/-- Whether a program has ended and all of its output is read. -/
def Child.isOver (c : Child) : Bool := c.exit.isSome && c.stdout.isOver && c.stderr.isOver

/-- Something that is done on a host and comes to a result. -/
inductive Activity (α : Type) where
  | done (result : α)
  | look (next : FileSystem → Activity α)
  /-- Make a directory with all those above it. -/
  | createDirectories (path : Path) (next : Except FileError Unit → Activity α)
  /-- Start a command in a directory and watch it until it is over or the job's time is up; after
  that it is killed. -/
  | watch (command : Command) (directory : Path) (next : Except FileError Child → Activity α)
  | copy (source target : Path) (next : Except FileError Unit → Activity α)
  /-- Let time pass. -/
  | pause (span : Duration) (next : Activity α)

namespace Activity

variable {α β : Type}

/-- An activity, and another one that depends on its result. -/
def andThen (a : Activity α) (f : α → Activity β) : Activity β :=
  match a with
  | done result => f result
  | look next => look fun files => (next files).andThen f
  | createDirectories path next => createDirectories path fun made => (next made).andThen f
  | watch command directory next => watch command directory fun child => (next child).andThen f
  | copy source target next => copy source target fun copied => (next copied).andThen f
  | pause span next => pause span (next.andThen f)

end Activity

/-- A host for one job at a time; `σ` is its state. -/
structure Host (σ : Type) where
  files : σ → FileSystem
  /-- Makes a directory with all those above it. -/
  createDirectories : σ → Path → Except FileError Unit × σ
  /-- Starts a command in a directory and watches it until it is over or its time is up; after
  that it is killed. -/
  watch : σ → Command → (directory : Path) → Except FileError Child × σ
  copy : σ → (source target : Path) → Except FileError Unit × σ
  pause : σ → Duration → σ

/-- Carries an activity out on a host on which nothing else happens. -/
def Activity.carryOut {α σ : Type} (host : Host σ) : Activity α → σ → α × σ
  | done result, s => (result, s)
  | look next, s => (next (host.files s)).carryOut host s
  | createDirectories path next, s =>
    let (made, s) := host.createDirectories s path
    (next made).carryOut host s
  | watch command directory next, s =>
    let (child, s) := host.watch s command directory
    (next child).carryOut host s
  | copy source target next, s =>
    let (copied, s) := host.copy s source target
    (next copied).carryOut host s
  | pause span next, s => next.carryOut host (host.pause s span)

end CompositionGen
