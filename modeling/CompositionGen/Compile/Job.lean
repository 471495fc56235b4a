import CompositionGen.Compile.Activity
import CompositionGen.Compile.Output

/-!
# Compile jobs

A job compiles one unit. It makes the directory of the artifact, sets up the command, starts the
program and watches it until it has ended and its output is read, or the time is up. After a
success it waits for the artifact: an announced library is copied into place, and the first attempt
that finds the artifact or cannot copy decides. The outcome is that of the first stage that fails.
-/

namespace CompositionGen

structure CompileConfig where
  /-- The most programs that run at a time; none counts as one. -/
  poolSize : Nat := 10
  /-- How long a job may take until its program is over. -/
  timeout : Duration := .ofSeconds 300
  pollAttempts : Nat := 3
  pollDelay : Duration := ⟨10⟩
  pluginDir : Path := ⟨"plugins"⟩
  deriving DecidableEq, Inhabited, Repr

structure Compiler where
  config : CompileConfig
  toolchain : Toolchain

/-! ## Waiting for the artifact -/

/-- Copies an announced library into place if there is one other than the artifact. -/
def placeLibrary (artifact : Path) (announced : Option Path) : Activity (Except FileError Unit) :=
  match announced.filter fun p => !p.same artifact with
  | none => .done (.ok ())
  | some library => .look fun files =>
    if files.hasNode library then .copy library artifact .done else .done (.ok ())

/-- Looks for the artifact up to `left` times, with a pause between two attempts. -/
def awaitArtifact (config : CompileConfig) (artifact : Path) (announced : Option Path) :
    (left : Nat) → Activity (Except CompileError Path)
  | 0 => .done (.error (.artifactMissing artifact config.pollAttempts))
  | left + 1 => (placeLibrary artifact announced).andThen fun
    | .error cause => .done (.error (.io artifact cause))
    | .ok () => .look fun files =>
      let again := awaitArtifact config artifact announced left
      if files.hasFile artifact then .done (.ok artifact)
      else if left = 0 then again
      else .pause config.pollDelay again

/-! ## Jobs -/

structure JobRun where
  outcome : Except CompileError Path
  report : Report := {}

/-- What the end of a program says, before the artifact is looked for: it has to have ended with
all of its output read. -/
def classify (config : CompileConfig) (child : Child) : Except CompileError Unit :=
  match child.exit, child.stdout.isOver && child.stderr.isOver with
  | some (.ok status), true => if status.success then .ok () else .error (.failed status)
  | some (.error cause), true => .error (.wait cause)
  | _, _ => .error (.timeout config.timeout)

def reportOutput (toolchain : Toolchain) (unit : BuildUnit) (child : Child) : Report :=
  child.stdout.read.report toolchain.interpret unit
    ++ child.stderr.read.report toolchain.interpret unit

/-- Starts the program of a job and sees it through. -/
def seeThrough (c : Compiler) (unit : BuildUnit) (artifact : Path) (command : Command) :
    Activity JobRun :=
  .watch command unit.sourcePath fun
    | .error cause => .done ⟨.error (.spawn command.shown.program cause), {}⟩
    | .ok child =>
      let report := reportOutput c.toolchain unit child
      match classify c.config child with
      | .error cause => .done ⟨.error cause, report⟩
      | .ok () =>
        let announced := child.stdout.read.announced? c.toolchain.interpret
        (awaitArtifact c.config artifact announced c.config.pollAttempts).andThen fun outcome =>
          .done ⟨outcome, report⟩

def makeParent (artifact : Path) : Activity (Except CompileError Unit) :=
  match artifact.parent? with
  | none => .done (.ok ())
  | some above => .createDirectories above fun made => .done (made.mapError (.io above))

/-- Takes a job through its stages, unless setting up the command panics. -/
def runStages (c : Compiler) (unit : BuildUnit) (artifact : Path) :
    Activity (Except Panic JobRun) :=
  (makeParent artifact).andThen fun
    | .error cause => .done (.ok ⟨.error cause, {}⟩)
    | .ok () => .look fun files =>
      match c.toolchain.command files unit artifact with
      | .error panic => .done (.error panic)
      | .ok command => (seeThrough c unit artifact command).andThen fun run => .done (.ok run)

def reportOutcome (unit : BuildUnit) : Except CompileError Path → Report
  | .ok artifact => Report.count .compileOk ++ Report.event .info "compiled"
      [("unit", unit.artifactName), ("artifact", artifact.display)]
  | .error cause => Report.count .compileErr ++ Report.event .error "compile failed"
      [("unit", unit.sourcePath.display), ("error", errorChain cause.messages)]

def JobRun.ofStages (unit : BuildUnit) : Except Panic JobRun → JobRun
  | .error panic => ⟨.error (.panicked panic.message), Report.count .compile⟩
  | .ok run =>
    { run with report := Report.count .compile ++ run.report ++ reportOutcome unit run.outcome }

def compileUnit (c : Compiler) (unit : BuildUnit) (artifact : Path) : Activity JobRun :=
  (runStages c unit artifact).andThen fun run => .done (.ofStages unit run)

end CompositionGen
