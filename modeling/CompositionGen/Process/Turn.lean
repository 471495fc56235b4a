import CompositionGen.Process.Machine

/-!
# Turns of processes

A process that is at its turn on a machine: it writes, says what is wrong, ends, or makes another
process. Writing what nobody reads ends a process by a signal, unless it ignores that.
-/

namespace CompositionGen

/-- A machine and the process that is at its turn, which is not among those of the machine. -/
structure Turn where
  machine : Machine
  process : Process
  ended : Option ExitStatus := none

namespace Turn

def map (u : Turn) (f : Process → Process) : Turn := { u with process := f u.process }

def push (u : Turn) (frames : List Frame) : Turn := u.map (·.push frames)

def withStatus (u : Turn) (status : Nat) : Turn := u.map (·.withStatus status)

def whole (u : Turn) : Machine :=
  { u.machine with processes := u.process :: u.machine.processes }

def files (u : Turn) : FileSystem := { u.machine.files with cwd := u.process.directory }

def withFiles (u : Turn) (files : FileSystem) : Turn :=
  { u with machine := { u.machine with files := { u.machine.files with root := files.root } } }

def finish (u : Turn) (status : ExitStatus) : Turn := { u with ended := some status }

/-- The process receives a signal that it has caused itself. -/
def receive (u : Turn) (signal : Nat) : Turn :=
  match u.process.receive signal with
  | some p => { u with process := p }
  | none => u.finish (.signal signal)

/-- What descriptor zero stands for; a closed one is remembered as such. -/
def input? (u : Turn) : Option Channel := u.process.descriptors.get? 0

/-! ## Writing -/

/-- Writes to a descriptor, or tells why that cannot be done. -/
def write (u : Turn) (descriptor : Nat) (content : Content) : Turn × Option FileError :=
  match u.process.descriptors.get? descriptor with
  | none => (u, some .badDescriptor)
  | some c =>
    match u.whole.write c content with
    | .error .brokenPipe =>
      let v := u.receive Signal.pipe
      (v, if v.ended.isSome then none else some .brokenPipe)
    | .error cause => (u, some cause)
    | .ok m =>
      let writing := match c with
        | .pipe n _ => if (m.pipes[n]?).any Pipe.isOverfull then some n else u.process.writing
        | _ => u.process.writing
      ({ u.map (fun p => { p with writing }) with
        machine := { m with processes := u.machine.processes } }, none)

def contentOf (chars : List Char) : Content := .ofBytes (ByteString.bytes (String.ofList chars))

/-- Says lines about what went wrong; nothing is done if that is not possible. -/
def complain (u : Turn) (lines : List String) : Turn :=
  if lines.isEmpty then u
  else (u.write 2 (contentOf (lines.flatMap fun line => line.toList ++ ['\n']))).1

def warn (u : Turn) (message : String) : Turn := u.complain [u.process.messageLabel ++ message]

/-- Leaves the shell: what is under way is given up. -/
def leave (u : Turn) (status : Nat) : Turn :=
  u.map fun p => (p.unwind fun _ => false).withStatus status

/-- The shell says what went wrong and is left. -/
def fail (u : Turn) (message : String) : Turn := (u.warn message).leave 2

/-- Writes one after another; what cannot be written is given up and told. -/
def sayAll (u : Turn) : List Utility.Saying → Turn × Option FileError
  | [] => (u, none)
  | saying :: rest =>
    if u.ended.isSome then (u, none)
    else match saying with
      | .complaint line => (u.complain [line]).sayAll rest
      | .output [] => u.sayAll rest
      | .output chars =>
        let (u, problem) := u.write 1 (contentOf chars)
        let (u, later) := u.sayAll rest
        (u, problem.or later)

/-! ## Making processes -/

/-- How long it takes until a new process does something, in nanoseconds. -/
def forkTime : Nat := 300000

/-- How long it takes to start a program, in nanoseconds. -/
def startTime : Nat := 1000000

/-- Takes the next number of the roster for a command in the foreground. -/
def claim (u : Turn) : Turn := u.map fun p => { p with roster := p.roster.claim }

/-- Makes a process like this one with something else to do, and gives its number. -/
def fork (u : Turn) (change : Process → Process) (frames : List Frame) : Turn × Nat :=
  let id := u.machine.nextId
  let child := change (u.process.fork id (u.machine.clock + forkTime) frames)
  ({ u with machine := { u.machine with
      nextId := id + 1, processes := u.machine.processes ++ [child] } }, id)

end Turn

end CompositionGen
