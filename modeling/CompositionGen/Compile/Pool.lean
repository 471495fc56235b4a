import CompositionGen.Compile.Result

/-!
# The worker pool

Units wait in a queue whose receiving end the workers share: one of them holds it at a time, until
it has a unit or stops. Results come back through a channel that is emptied in order. Both hold as
many things as there are units; who has something to put into a full one waits, and what is put
into one that nobody can read any more is lost. When every result is collected, or no worker is
left, the workers are told to stop. A gauge counts the programs that are running and remembers the
most so far; a worker raises the count and records it in two separate moves. Any order of the moves
is a schedule.
-/

namespace CompositionGen

/-- How many programs are running, and the most that were running at a time. -/
structure Gauge where
  active : Nat := 0
  peak : Nat := 0
  deriving DecidableEq, Inhabited, Repr

inductive Worker where
  | waiting
  /-- It holds the receiving end of the queue. -/
  | receiving
  /-- It has taken a unit whose program is not started yet. -/
  | preparing (unit : BuildUnit)
  /-- It has raised the count to `seen`, which is not recorded yet. -/
  | counting (unit : BuildUnit) (seen : Nat)
  /-- The program of its unit is running. -/
  | compiling (unit : BuildUnit)
  /-- It has a result to hand over. -/
  | finished (result : CompileResult)
  | stopped

def Worker.unit? : Worker → Option BuildUnit
  | waiting => none
  | receiving => none
  | preparing unit => some unit
  | counting unit _ => some unit
  | compiling unit => some unit
  | finished result => some result.unit
  | stopped => none

/-- Whether a worker counts as running a program. -/
def Worker.isActive : Worker → Bool
  | counting _ _ => true
  | compiling _ => true
  | _ => false

def Worker.isReceiving : Worker → Bool
  | receiving => true
  | _ => false

def Worker.isStopped : Worker → Bool
  | stopped => true
  | _ => false

structure Pool where
  /-- Number of units given. -/
  total : Nat
  unsubmitted : List BuildUnit
  queue : List BuildUnit := []
  /-- Whether the queue is still being filled. -/
  accepting : Bool := true
  workers : List Worker
  /-- Results that are handed over but not collected. -/
  channel : List CompileResult := []
  collected : List CompileResult := []
  /-- How many workers, from the first, have been told to stop. -/
  told : Nat := 0
  returned : Bool := false
  gauge : Gauge

namespace Pool

/-- The number of workers for a pool size: at least one. -/
def workerCount (poolSize : Nat) : Nat := max poolSize 1

def start (poolSize : Nat) (gauge : Gauge) (units : List BuildUnit) : Pool where
  total := units.length
  unsubmitted := units
  workers := List.replicate (workerCount poolSize) .waiting
  gauge

/-- Whether one more thing fits where some are held already. -/
def hasRoom (p : Pool) (held : Nat) : Bool := held < p.total

/-- Whether the queue can still be read: the pool keeps its receiving end until it returns, and each
worker until it stops. -/
def queueIsOpen (p : Pool) : Bool := !p.returned || !p.workers.all Worker.isStopped

/-- Whether the results can still be read: nobody but the pool keeps their receiving end. -/
def channelIsOpen (p : Pool) : Bool := !p.returned

def isDrained (p : Pool) : Bool :=
  p.collected.length == p.total || (p.channel.isEmpty && p.workers.all Worker.isStopped)

inductive Move where
  /-- The next unit is put into the queue; if that is lost, so are the units after it. -/
  | submit
  /-- The queue is closed, all units being submitted. -/
  | close
  /-- A worker gets hold of the receiving end of the queue. -/
  | acquire (worker : Nat)
  /-- A worker takes the first unit of the queue and lets go of its receiving end. -/
  | take (worker : Nat)
  /-- A worker raises the count. -/
  | enter (worker : Nat)
  /-- A worker records the count that it has raised. -/
  | record (worker : Nat)
  /-- A worker is done with its unit; one that was counted lowers the count. -/
  | finish (worker : Nat) (outcome : Except CompileError Path)
  /-- A worker hands its result over; it stops if that is lost. -/
  | deliver (worker : Nat)
  /-- The first result of the channel is collected. -/
  | collect
  /-- The next worker is told to stop. -/
  | tell
  | quit (worker : Nat)
  | conclude

def setWorker (p : Pool) (i : Nat) (w : Worker) : Pool := { p with workers := p.workers.set i w }

/-- Whether a worker may stop: it has no unit and is told to, or it is at the queue, which is
closed and empty. -/
def mayQuit (p : Pool) (i : Nat) : Worker → Bool
  | .waiting => i < p.told
  | .receiving => i < p.told || (p.queue.isEmpty && !p.accepting)
  | _ => false

/-- The pool after a move, if the move is possible. -/
def next? (p : Pool) : Move → Option Pool
  | .submit => match p.unsubmitted with
    | [] => none
    | unit :: rest =>
      if !p.queueIsOpen then some { p with unsubmitted := [] }
      else if p.hasRoom p.queue.length then
        some { p with unsubmitted := rest, queue := p.queue ++ [unit] }
      else none
  | .close =>
    if p.unsubmitted.isEmpty && p.accepting then some { p with accepting := false } else none
  | .acquire i => match p.workers[i]? with
    | some .waiting =>
      if p.workers.any Worker.isReceiving then none else some (p.setWorker i .receiving)
    | _ => none
  | .take i => match p.workers[i]?, p.queue with
    | some .receiving, unit :: rest => some ({ p with queue := rest }.setWorker i (.preparing unit))
    | _, _ => none
  | .enter i => match p.workers[i]? with
    | some (.preparing unit) =>
      let seen := p.gauge.active + 1
      some ({ p with gauge := { p.gauge with active := seen } }.setWorker i (.counting unit seen))
    | _ => none
  | .record i => match p.workers[i]? with
    | some (.counting unit seen) =>
      some ({ p with gauge := { p.gauge with peak := max p.gauge.peak seen } }.setWorker i
        (.compiling unit))
    | _ => none
  | .finish i outcome => match p.workers[i]? with
    | some (.preparing unit) => some (p.setWorker i (.finished ⟨unit, outcome⟩))
    | some (.compiling unit) =>
      some ({ p with gauge := { p.gauge with active := p.gauge.active - 1 } }.setWorker i
        (.finished ⟨unit, outcome⟩))
    | _ => none
  | .deliver i => match p.workers[i]? with
    | some (.finished result) =>
      if !p.channelIsOpen then some (p.setWorker i .stopped)
      else if p.hasRoom p.channel.length then
        some ({ p with channel := p.channel ++ [result] }.setWorker i .waiting)
      else none
    | _ => none
  | .collect => match p.channel with
    | [] => none
    | result :: rest =>
      if !p.accepting && p.collected.length < p.total then
        some { p with channel := rest, collected := p.collected ++ [result] }
      else none
  | .tell =>
    if !p.accepting && p.isDrained && p.told < p.workers.length then
      some { p with told := p.told + 1 }
    else none
  | .quit i => match p.workers[i]? with
    | some worker => if p.mayQuit i worker then some (p.setWorker i .stopped) else none
    | none => none
  | .conclude =>
    if p.told == p.workers.length && p.workers.all Worker.isStopped && !p.returned then
      some { p with returned := true }
    else none

def Step (p q : Pool) : Prop := ∃ move, p.next? move = some q

/-- One pool comes from another by moves in any order. -/
inductive Steps : Pool → Pool → Prop where
  | refl (p : Pool) : Steps p p
  | step {p q r : Pool} : Steps p q → Step q r → Steps p r

/-- The pool after a move; nothing changes where the move is not possible. -/
def perform (p : Pool) (move : Move) : Pool := (p.next? move).getD p

def performAll (p : Pool) (moves : List Move) : Pool := moves.foldl perform p

end Pool

end CompositionGen
