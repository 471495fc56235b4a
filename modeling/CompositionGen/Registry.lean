import CompositionGen.Compile.Result
import CompositionGen.Library
import CompositionGen.Report

/-!
# The builder registry

Loaded builders by the artifact names of their units. Compile results are loaded batch by batch;
a later builder of a name takes the place of an earlier one, and what cannot be loaded is
reported and left out.
-/

namespace CompositionGen

structure Registry where
  loaded : Dictionary LoadedBuilder := .empty

namespace Registry

def get? (registry : Registry) (unit : String) : Option Builder :=
  (registry.loaded.get? unit).map (·.builder)

def size (registry : Registry) : Nat := registry.loaded.size

def isEmpty (registry : Registry) : Bool := registry.loaded.isEmpty

/-- The registered builders in the order of their units. -/
def builders (registry : Registry) : List (String × Builder) :=
  registry.loaded.entries.map fun (unit, loaded) => (unit, loaded.builder)

/-- The registry with a builder under a unit; an old one is replaced. -/
def insert (registry : Registry) (unit : String) (builder : LoadedBuilder) : Registry :=
  ⟨registry.loaded.insert unit builder⟩

/-! ## Loading batches -/

structure Loading where
  registry : Registry
  report : Report := {}
  loaded : Nat := 0

def reportFailure (index : Nat) (unit : BuildUnit) (cause : LoadError) : Report :=
  Report.count .loadErr
    ++ Report.event .error "cannot load builder" [("unit", unit.artifactName),
      ("index", toString index), ("source_path", unit.sourcePath.display), ("error", cause.message)]

def reportBatch (loaded total : Nat) : Report :=
  Report.event .info "builders loaded" [("loaded", toString loaded), ("total", toString total)]

namespace Loading

def refuse (l : Loading) (index : Nat) (unit : BuildUnit) (cause : LoadError) : Loading :=
  { l with report := l.report ++ reportFailure index unit cause }

def accept (l : Loading) (unit : BuildUnit) (builder : LoadedBuilder) : Loading where
  registry := l.registry.insert unit.artifactName builder
  report := l.report ++ Report.count .loadOk
  loaded := l.loaded + 1

def close (l : Loading) (total : Nat) : Loading :=
  { l with report := l.report ++ reportBatch l.loaded total }

end Loading

section Loading

variable {m : Type → Type} [Monad m] [MonadStateOf Loading m]

def loadResult (make : Declaration → m Builder) (linker : Linker) (index : Nat)
    (result : CompileResult) : m Unit :=
  match result.outcome with
  | .error _ => pure ()
  | .ok artifact => do
    match ← linker.loadWith make artifact with
    | .error cause => modifyThe Loading (·.refuse index result.unit cause)
    | .ok builder => modifyThe Loading (·.accept result.unit builder)

/-- Loads the results from an index of a batch on. -/
def loadResults (make : Declaration → m Builder) (linker : Linker) (index : Nat) :
    List CompileResult → m Unit
  | [] => pure ()
  | result :: rest => do
    loadResult make linker index result
    loadResults make linker (index + 1) rest

/-- Loads the artifacts of a batch of compile results. -/
def loadBatch (make : Declaration → m Builder) (linker : Linker) (results : List CompileResult) :
    m Unit := do
  loadResults make linker 0 results
  modifyThe Loading (·.close results.length)

end Loading

/-- What loading a batch comes to if all constructors return. -/
def loadAll (linker : Linker) (registry : Registry) (results : List CompileResult) : Loading :=
  let batch : StateM Loading Unit := loadBatch (fun d => pure d.create) linker results
  (batch.run { registry }).2

/-- Loads a batch. A constructor that panics ends this, and what was loaded before is left. -/
def loadAllOrPanic (linker : Linker) (registry : Registry) (results : List CompileResult) :
    Except Panic Unit × Loading :=
  let batch : ExceptT Panic (StateM Loading) Unit :=
    loadBatch (fun d => liftExcept d.construct) linker results
  batch.run.run { registry }

end Registry

end CompositionGen
