import CompositionGen.Process.Frame

/-!
# Machines

A machine has files, a clock and processes with their channels. Processes that have ended are
remembered by their numbers with how they ended. Reading and writing go through channels: a pipe
that nobody listens to takes nothing, and one that somebody may still write to has not ended.
-/

namespace CompositionGen

structure Machine where
  files : FileSystem
  /-- Variables that every program gets. -/
  environment : Dictionary String := .empty
  /-- Nanoseconds since the machine was started. -/
  clock : Nat := 0
  processes : List Process := []
  /-- The files that have been opened, by number. -/
  openFiles : List OpenFile := []
  pipes : List Pipe := []
  ended : List (Nat × ExitStatus) := []
  /-- The number of the next process. -/
  nextId : Nat := 1000
  deriving Inhabited

namespace Machine

/-! ## Channels -/

def holds (m : Machine) (c : Channel) : Bool := m.processes.any (·.holds c)

def withPipe (m : Machine) (n : Nat) (p : Pipe) : Machine := { m with pipes := m.pipes.set n p }

def makePipe (m : Machine) (watched : Bool) : Machine × Nat :=
  ({ m with pipes := m.pipes ++ [{ watched }] }, m.pipes.length)

def openFile (m : Machine) (f : OpenFile) : Machine × Channel :=
  ({ m with openFiles := m.openFiles ++ [f] }, .file m.openFiles.length)

def isHeard (m : Machine) (n : Nat) (p : Pipe) : Bool :=
  if p.watched then p.unheardFrom.all (m.clock < ·) else m.holds (.pipe n false)

/-- A content with some of it replaced from a position on; a gap is filled with zeros. -/
def overwrite (old : Content) (position : Nat) (new : Content) : Content :=
  old.take position ++ List.replicate (position - old.length) (.byte 0) ++ new
    ++ old.drop (position + new.length)

def writeFile (m : Machine) (n : Nat) (f : OpenFile) (content : Content) :
    Except FileError Machine :=
  if !f.writes then .error .badDescriptor
  else match m.files.root.at? f.location with
    | some (.file old executable) =>
      let position := if f.appends then old.length else f.position
      let files := m.files.put f.location (.file (overwrite old position content) executable)
      let f := { f with position := position + content.length }
      .ok { m with files, openFiles := m.openFiles.set n f }
    | _ => .ok m

def write (m : Machine) (c : Channel) (content : Content) : Except FileError Machine :=
  match c with
  | .device d => (d.take content).map fun () => m
  | .file n => match m.openFiles[n]? with
    | some f => m.writeFile n f content
    | none => .error .badDescriptor
  | .pipe _ false => .error .badDescriptor
  | .pipe n true => match m.pipes[n]? with
    | some p =>
      if m.isHeard n p then .ok (m.withPipe n (p.write m.clock content)) else .error .brokenPipe
    | none => .error .badDescriptor

/-- What can be read from a channel now, and whether nothing comes after it. -/
def peek (m : Machine) : Channel → Except FileError (Content × Bool)
  | .device _ => .ok ([], true)
  | .file n => match m.openFiles[n]? with
    | some f =>
      if !f.reads then .error .badDescriptor
      else match m.files.root.at? f.location with
        | some (.file content _) => .ok (content.drop f.position, true)
        | _ => .error .isDirectory
    | none => .error .badDescriptor
  | .pipe _ true => .error .badDescriptor
  | .pipe n false => match m.pipes[n]? with
    | some p => .ok (p.content, !m.holds (.pipe n true))
    | none => .error .badDescriptor

/-- Takes cells from the front of what a channel holds. -/
def skip (m : Machine) (c : Channel) (count : Nat) : Machine :=
  match c with
  | .device _ => m
  | .file n => match m.openFiles[n]? with
    | some f => { m with openFiles := m.openFiles.set n { f with position := f.position + count } }
    | none => m
  | .pipe n _ => match m.pipes[n]? with
    | some p => m.withPipe n { p with pieces := [p.content.drop count] }
    | none => m

/-! ## Processes -/

def endOf? (m : Machine) (id : Nat) : Option ExitStatus :=
  (m.ended.find? (·.1 == id)).map (·.2)

/-- The number of the process that starts programs on the machine; no signal reaches it. -/
def host : Nat := 1

/-- Whether there is a process of a number, or was one whose end nobody has seen. -/
def knows (m : Machine) (id : Nat) : Bool :=
  m.processes.any (·.id == id) || (m.endOf? id).isSome

/-- The machine after the ends of processes were seen. -/
def forget (m : Machine) (ids : List Nat) : Machine :=
  { m with ended := m.ended.filter (!ids.contains ·.1) }

/-- The machine after a process has ended; the process that has made it is told. -/
def withEnd (m : Machine) (p : Process) (status : ExitStatus) : Machine :=
  { m with
    processes := (m.processes.filter (·.id != p.id)).map fun q =>
      if q.id = p.parent then (q.receive Signal.child).getD q else q
    ended := (p.id, status) :: m.ended }

def signal (m : Machine) (id n : Nat) : Machine :=
  match m.processes.find? (·.id == id) with
  | none => m
  | some p => match p.receive n with
    | none => m.withEnd p (.signal n)
    | some q => { m with processes := m.processes.map fun p => if p.id == id then q else p }

/-- Whether something can be read from a channel, or nothing will be. -/
def isReadable (m : Machine) (c : Channel) : Bool :=
  match m.peek c with
  | .ok (content, isLast) => isLast || !content.isEmpty
  | .error _ => true

/-- Whether a whole line can be read from a channel, or nothing after what is there. -/
def hasLine (m : Machine) (c : Channel) : Bool :=
  match m.peek c with
  | .ok (content, isLast) => isLast || content.contains (.byte Flow.lineFeed)
  | .error _ => true

def isComplete (m : Machine) (c : Channel) : Bool :=
  match m.peek c with
  | .ok (_, isLast) => isLast
  | .error _ => true

def isDone (m : Machine) (e : RosterEntry) : Bool := (e.note m.endOf?).isOver

/-- Whether everything is over that a process waits for in the background. -/
def isRested (m : Machine) (p : Process) : Bool :=
  match p.frames with
  | .awaitNamed (name :: _) :: _ => match p.roster.search name with
    | .ok entry => entry.all m.isDone
    | .error _ => true
  | .awaitAll :: _ => p.roster.all m.isDone
  | _ => true

/-- Whether a process has to wait until somebody reads what it has written. What a process is to
read next is taken from the pipe at once. -/
def isHeldUp (m : Machine) (p : Process) : Bool :=
  p.writing.any fun n => (m.pipes[n]?).any fun pipe =>
    pipe.isOverfull && m.isHeard n pipe && !m.processes.any (·.source? == some (.pipe n false))

def isReady (m : Machine) (p : Process) : Bool :=
  let input := (p.descriptors.get? 0).getD (.device .null)
  if p.stopped || m.isHeldUp p then false
  else match p.frames with
    | .await child _ :: _ => (m.endOf? child).isSome
    | .awaitNamed _ :: _ | .awaitAll :: _ => !p.pending.isEmpty || m.isRested p
    | .substitute pipe child _ _ :: _ =>
      m.isComplete (.pipe pipe false) && (m.endOf? child).isSome
    | .readLine _ _ :: _ => m.hasLine input
    | .readScript _ :: _ => m.isComplete input
    | .drain _ source :: _ => m.isReadable source
    | _ => true

end Machine

end CompositionGen
