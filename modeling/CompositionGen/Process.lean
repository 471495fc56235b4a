import CompositionGen.Compile.Activity
import CompositionGen.Process.Step

/-!
# Running programs

The machine as the host of programs. The host starts a program with pipes for its output and
listens at them. Processes go on in the order of the times at which they can, and the clock jumps
from one such time to the next. A program that is released is killed, and nobody listens to what it
has left behind.
-/

namespace CompositionGen.Machine

/-- A program that the host has started: its process and the pipes of its output. -/
structure Started where
  process : Nat
  stdout : Nat
  stderr : Nat
  deriving DecidableEq, Inhabited, Repr

/-- What has been seen of a pipe that the host listens to. -/
def flow (m : Machine) (pipe : Nat) : Flow where
  bytes := (((m.pipes[pipe]?).map Pipe.content).getD []).toBytes
  closed := !m.holds (.pipe pipe true)

def child (m : Machine) (s : Started) : Child where
  stdout := m.flow s.stdout
  stderr := m.flow s.stderr
  exit := (m.endOf? s.process).map .ok

/-- Whether a program has ended and the host has stopped to listen to it. -/
def isOver (m : Machine) (s : Started) : Bool :=
  let isSilent (pipe : Nat) : Bool :=
    ((m.pipes[pipe]?).bind (·.unheardFrom)).isSome || !m.holds (.pipe pipe true)
  (m.endOf? s.process).isSome && isSilent s.stdout && isSilent s.stderr

def directoryAt (files : FileSystem) (p : Path) : Except FileError Location := do
  match ← files.resolve p with
  | .occupied location (.directory _) => pure location
  | .occupied _ _ => .error .notDirectory
  | .vacant _ _ => .error .notFound

/-- The variables of a command: a name ends at the first equals sign. -/
def variablesOf (m : Machine) (command : Command) : Dictionary String :=
  let own := Dictionary.empty.insertAll (m.environment.entries.map fun (name, value) =>
    (name, ByteString.ofText value))
  Dictionary.empty.insertAll ((own.insertAll command.env.entries).entries.map fun (name, value) =>
    let (name, value) := Turn.splitAssignment (ByteString.ofText name ++ "=" ++ value)
    (name, value.getD ""))

/-- The program that a command runs. Only where it has a search path of its own and names no path
is a file without an interpreter taken for a script. -/
def invocationOf (files : FileSystem) (environment : Dictionary String) (command : Command) :
    Except FileError Invocation :=
  let isPath := command.program.toList.contains '/'
  Invocation.find files (.ofEnvironment environment) (ByteString.ofText command.program)
    command.args
    ((command.env.get? "PATH").isSome && !isPath)

def start (m : Machine) (command : Command) (directory : Path) :
    Except FileError (Started × Machine) := do
  if command.isImpossible || hasNull directory.text then .error .nullInData
  let location ← directoryAt m.files directory
  let environment := m.variablesOf command
  let i ← invocationOf { m.files with cwd := location } environment command
  let id := m.nextId
  let (m, stdout) := m.makePipe true
  let (m, stderr) := m.makePipe true
  let idle : Process := {
    id, parent := host, wake := m.clock, directory := location, frames := []
    bindings := { name := i.name, process := id }
    descriptors := [(0, .device .null), (1, .pipe stdout true), (2, .pipe stderr true)] }
  let p := idle.become m.clock i environment
  pure (⟨id, stdout, stderr⟩, { m with nextId := id + 1, processes := m.processes ++ [p] })

/-- The machine when nobody listens to a pipe any more. -/
def stopListening (m : Machine) (pipe : Nat) : Machine :=
  match m.pipes[pipe]? with
  | some p => m.withPipe pipe { p with unheardFrom := some m.clock }
  | none => m

def release (m : Machine) (s : Started) : Machine :=
  ((m.signal s.process Signal.kill).stopListening s.stdout).stopListening s.stderr

/-- The process that can go on first, and the other processes. -/
def next? (m : Machine) : Option (Process × List Process) :=
  pick m.processes
where
  /-- The first of those that can go on earliest. -/
  pick : List Process → Option (Process × List Process)
    | [] => none
    | p :: rest =>
      match pick rest with
      | none => if m.isReady p then some (p, rest) else none
      | some (q, others) =>
        if m.isReady p && p.wake ≤ q.wake then some (p, rest) else some (q, p :: others)

def nextTime? (m : Machine) : Option Nat := m.next?.map fun (p, _) => max m.clock p.wake

def advance (m : Machine) : Machine :=
  match m.next? with
  | none => m
  | some (p, others) =>
    { m with clock := max m.clock p.wake, processes := others }.step p

/-- The machine with other files, or the cause why they could not be changed. -/
def change (m : Machine) : Except FileError FileSystem → Except FileError Unit × Machine
  | .error cause => (.error cause, m)
  | .ok files => (.ok (), { m with files })

end CompositionGen.Machine
