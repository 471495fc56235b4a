import CompositionGen.Compile.Job
import CompositionGen.Compile.Pool
import CompositionGen.Process

/-!
# Compiling units

Every unit is compiled on the pool, and each gives one result. The jobs of the workers share the
machine: a job goes on as far as it can without waiting, and where all of them wait, time passes
until the next thing happens. Results come in the order in which jobs are done.

The machine is simulated for a bounded number of steps. A job that is not done by then is given up
as if its time was up; a compilation that ends by itself is not changed by the bound.
-/

namespace CompositionGen

/-- What a job waits for, and how it goes on after that. -/
inductive Waiting where
  | time (moment : Nat) (next : Activity JobRun)
  | program (started : Machine.Started) (next : Except FileError Child → Activity JobRun)

structure Job where
  worker : Nat
  unit : BuildUnit
  /-- When its time is up, in nanoseconds. -/
  deadline : Nat
  waiting : Waiting

/-- When a job goes on at the latest. -/
def Job.latest (job : Job) : Nat :=
  match job.waiting with
  | .time moment _ => moment
  | .program _ _ => job.deadline

/-- A pool on its way, with the jobs that wait and the machine that they share. -/
structure Compilation where
  compiler : Compiler
  pluginDir : Path
  pool : Pool
  jobs : List Job := []
  machine : Machine
  report : Report := {}

namespace Compilation

def nanoseconds (d : Duration) : Nat := d.milliseconds * 1000000

def move (s : Compilation) (moves : List Pool.Move) : Compilation :=
  { s with pool := s.pool.performAll moves }

def postpone (s : Compilation) (job : Job) (waiting : Waiting) : Compilation :=
  { s with jobs := s.jobs ++ [{ job with waiting }] }

/-- The compilation after a worker's job was done, and its result collected. -/
def finish (s : Compilation) (worker : Nat) (run : JobRun) : Compilation :=
  { s with report := s.report ++ run.report }.move
    [.finish worker run.outcome, .deliver worker, .collect]

/-- Takes a job on as far as it can go without waiting. -/
def takeOn (job : Job) : Activity JobRun → Compilation → Compilation
  | .done run, s => s.finish job.worker run
  | .look next, s => takeOn job (next s.machine.files) s
  | .createDirectories path next, s =>
    let (made, machine) := s.machine.change (s.machine.files.createDirectories path)
    takeOn job (next made) { s with machine }
  | .copy source target next, s =>
    let (copied, machine) := s.machine.change (s.machine.files.copy source target)
    takeOn job (next copied) { s with machine }
  | .pause span next, s => s.postpone job (.time (s.machine.clock + nanoseconds span) next)
  | .watch command directory next, s =>
    let counted := s.move [.enter job.worker, .record job.worker]
    match counted.machine.start command directory with
    | .error cause => takeOn job (next (.error cause)) counted
    | .ok (started, machine) => { counted with machine }.postpone job (.program started next)

def isIdle : Worker → Bool
  | .waiting => true
  | _ => false

/-- The compilation after the first idle worker has taken the next unit, if there are both. -/
def assign? (s : Compilation) : Option Compilation :=
  match s.pool.queue, s.pool.workers.findIdx? isIdle with
  | unit :: _, some worker =>
    let deadline := s.machine.clock + nanoseconds s.compiler.config.timeout
    let activity := compileUnit s.compiler unit (s.pluginDir.join (.ofText unit.artifactFile))
    let job : Job := ⟨worker, unit, deadline, .time s.machine.clock activity⟩
    some (takeOn job activity (s.move [.acquire worker, .take worker]))
  | _, _ => none

def isDue (m : Machine) (job : Job) : Bool :=
  job.latest ≤ m.clock || match job.waiting with
    | .time _ _ => false
    | .program started _ => m.isOver started

/-- Takes a job on that does not wait any more; its program is released. -/
def resume (s : Compilation) (job : Job) : Compilation :=
  match job.waiting with
  | .time _ next => takeOn job next s
  | .program started next =>
    takeOn job (next (.ok (s.machine.child started)))
      { s with machine := s.machine.release started }

def due? (m : Machine) : List Job → Option (Job × List Job)
  | [] => none
  | job :: rest =>
    if isDue m job then some (job, rest)
    else (due? m rest).map fun (other, others) => (other, job :: others)

def latest? : List Job → Option Nat
  | [] => none
  | job :: rest => some ((latest? rest).elim job.latest (min job.latest))

/-- Lets time pass until the next thing happens: a step of a process, or a job going on. -/
def waitFor (s : Compilation) (moment : Nat) : Compilation :=
  match s.machine.nextTime? with
  | some time =>
    if time < moment then { s with machine := s.machine.advance }
    else { s with machine := { s.machine with clock := max s.machine.clock moment } }
  | none => { s with machine := { s.machine with clock := max s.machine.clock moment } }

/-- The next thing that happens, if anything is left to be done. -/
def next? (s : Compilation) : Option Compilation :=
  match s.assign? with
  | some t => some t
  | none => match due? s.machine s.jobs with
    | some (job, jobs) => some ({ s with jobs }.resume job)
    | none => (latest? s.jobs).map s.waitFor

def givenUp (s : Compilation) (unit : BuildUnit) : JobRun :=
  .ofStages unit (.ok ⟨.error (.timeout s.compiler.config.timeout), {}⟩)

/-- Gives up the jobs that wait and the units that are not taken. -/
def giveUp (s : Compilation) : Compilation :=
  let stopped := s.jobs.foldl (fun s job => s.finish job.worker (s.givenUp job.unit))
    { s with jobs := [] }
  stopped.pool.queue.foldl
    (fun s unit => (s.move [.acquire 0, .take 0]).finish 0 (s.givenUp unit)) stopped

/-- Goes on until nothing is left to be done; after `steps` steps what is left is given up. -/
def run : (steps : Nat) → Compilation → Compilation
  | 0, s => s.giveUp
  | steps + 1, s =>
    match s.next? with
    | none => s
    | some t => run steps t

def openingMoves (units : List BuildUnit) : List Pool.Move :=
  units.map (fun _ => .submit) ++ [.close]

def closingMoves (workers : Nat) : List Pool.Move :=
  List.replicate workers .tell ++ (List.range workers).map .quit ++ [.conclude]

def stepLimit : Nat := 400000

/-- A compilation before its first step, with all units in the queue. -/
def begun (c : Compiler) (gauge : Gauge) (units : List BuildUnit) (m : Machine) : Compilation :=
  let opened : Compilation := {
    compiler := c
    pluginDir := m.files.absolute c.config.pluginDir
    pool := Pool.start c.config.poolSize gauge units
    machine := m }
  opened.move (openingMoves units)

end Compilation

/-- Compiles all units and gives the pool that has returned their results. -/
def compilePool (c : Compiler) (gauge : Gauge) (units : List BuildUnit) (m : Machine) :
    Compilation :=
  ((Compilation.begun c gauge units m).run Compilation.stepLimit).move
    (Compilation.closingMoves (Pool.start c.config.poolSize gauge units).workers.length)

structure CompileRun where
  results : List CompileResult := []
  report : Report := {}
  gauge : Gauge

/-- Compiles all units; with none there is nothing to do. -/
def compileAll (c : Compiler) (gauge : Gauge) (units : List BuildUnit) (m : Machine) :
    CompileRun × Machine :=
  if units.isEmpty then ({ gauge }, m)
  else
    let done := compilePool c gauge units m
    ({ results := done.pool.collected, report := done.report, gauge := done.pool.gauge },
      done.machine)

end CompositionGen
