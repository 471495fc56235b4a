import CompositionGen.BuildUnit.Discovery
import CompositionGen.Builder.Run
import CompositionGen.Registry

/-!
# Building compositions

A build finds the units, compiles them, loads what was compiled and runs the loaded builders. What
fails on the way is left out, and only a search or a write that fails ends the build. The compiled
units are removed at the end, also after a failed write, unless they are to be kept. A constructor
of a builder that panics is a failure of another kind: the build stops where it is.
-/

namespace CompositionGen

/-- How many units got how far. -/
structure BuildReport where
  units : Nat
  compiled : Nat
  loaded : Nat
  written : Nat
  dropped : Nat
  deriving DecidableEq, Inhabited, Repr

/-- The stages of a build; `σ` is what they change. -/
structure BuildStages (σ : Type) where
  discover : σ → Except BuildUnit.DiscoveryError (List BuildUnit)
  /-- Compiles units; the results come in any order. -/
  compile : List BuildUnit → σ → List CompileResult × Report × σ
  linker : σ → Linker
  writer : Writer σ
  /-- Removes the compiled units. -/
  removePlugins : σ → Report × σ

inductive BuildFailure where
  | discovery (cause : BuildUnit.DiscoveryError)
  | run (cause : RunError)
  /-- The build has not returned. -/
  | panicked (panic : Panic)
  deriving DecidableEq, Inhabited, Repr

def BuildFailure.messages : BuildFailure → List String
  | discovery cause => ("discovering build units below " ++ cause.root.display) :: cause.messages
  | run cause => cause.messages
  | panicked panic => [panic.message]

structure BuildResult (σ : Type) where
  state : σ
  report : Report := {}
  outcome : Except BuildFailure BuildReport

variable {σ : Type}

def compiledCount (results : List CompileResult) : Nat :=
  results.countP fun r => r.outcome.toOption.isSome

/-- Removes the compiled units unless they are kept. -/
def BuildStages.cleanUp (stages : BuildStages σ) (keep : Bool) (state : σ) : Report × σ :=
  if keep then ({}, state) else stages.removePlugins state

/-- Builds the compositions of all units that are found. -/
def build (stages : BuildStages σ) (keepPlugins : Bool) (state : σ) : BuildResult σ :=
  match stages.discover state with
  | .error cause => { state, outcome := .error (.discovery cause) }
  | .ok units =>
    let (results, compileReport, state) := stages.compile units state
    match Registry.loadAllOrPanic (stages.linker state) ⟨.empty⟩ results with
    | (.error panic, loading) =>
      { state, report := compileReport ++ loading.report, outcome := .error (.panicked panic) }
    | (.ok (), loading) =>
      let run := runBuilders stages.writer loading.registry.builders state
      let (cleanReport, state) := stages.cleanUp keepPlugins run.state
      { state
        report := compileReport ++ loading.report ++ run.report ++ cleanReport
        outcome := match run.outcome with
          | .error cause => .error (.run cause)
          | .ok summary => .ok {
              units := units.length, compiled := compiledCount results, loaded := loading.loaded
              written := summary.written, dropped := summary.dropped } }

end CompositionGen
