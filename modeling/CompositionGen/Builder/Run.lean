import CompositionGen.Builder
import CompositionGen.Composition.Record
import CompositionGen.Yaml

/-!
# Running builders

Builders are run in order, and each composition is written under its name. A builder that yields
nothing is reported and dropped; the first composition that cannot be written ends the run.
-/

namespace CompositionGen

/-- Where compositions are written; `σ` is what writing changes. -/
structure Writer (σ : Type) where
  files : σ → FileSystem
  /-- Writes a text under a name, or says why it cannot. -/
  write : σ → (name text : String) → σ × Except (List String) Unit

/-- Writes each composition to a file of its name in a directory, which is made if need be. -/
def Writer.directory (dir : Path) : Writer FileSystem where
  files := id
  write fs name text :=
    match fs.createDirectories dir with
    | .error cause => (fs, .error ["creating " ++ dir.display, cause.message])
    | .ok made =>
      let target := dir.join (.ofText (name ++ ".yaml"))
      match made.writeText target text with
      | .error cause => (made, .error ["writing " ++ target.display, cause.message])
      | .ok written => (written, .ok ())

/-- How many builders came to a written composition, and how many to none. -/
structure RunSummary where
  written : Nat := 0
  dropped : Nat := 0
  deriving DecidableEq, Inhabited, Repr

structure RunError where
  name : String
  unit : String
  cause : List String
  deriving DecidableEq, Inhabited, Repr

def RunError.messages (e : RunError) : List String :=
  ("writing composition " ++ Text.quoted e.name ++ " from " ++ e.unit) :: e.cause

structure RunResult (σ : Type) where
  state : σ
  report : Report
  outcome : Except RunError RunSummary

namespace RunResult

variable {σ : Type}

def after (report : Report) (r : RunResult σ) : RunResult σ :=
  { r with report := report ++ r.report }

end RunResult

def reportDropped (unit : String) (index : Nat) (reason : DropReason) : Report :=
  Report.event .error "dropping composition" [("unit", unit), ("index", toString index),
      ("error", errorChain reason.messages)]
    ++ Report.count .compositionsDropped

def reportWritten (unit : String) (c : Composition) : Report :=
  Report.event .info "composition written" [("unit", unit), ("composition", c.name),
      ("mode", c.spec.mode.name)]
    ++ Report.count .compositionsWritten

variable {σ : Type}

/-- Runs the builders of units from index `index` on. -/
def runFrom (w : Writer σ) (index : Nat) (summary : RunSummary) :
    List (String × Builder) → σ → RunResult σ
  | [], state => ⟨state, {}, .ok summary⟩
  | (unit, builder) :: rest, state =>
    let (report, composed) := builder.compose (w.files state)
    match composed with
    | .error reason =>
      (runFrom w (index + 1) { summary with dropped := summary.dropped + 1 } rest state).after
        (report ++ reportDropped unit index reason)
    | .ok c =>
      match w.write state c.name (Yaml.document c.toJson) with
      | (state, .error cause) => ⟨state, report, .error ⟨c.name, unit, cause⟩⟩
      | (state, .ok ()) =>
        (runFrom w (index + 1) { summary with written := summary.written + 1 } rest state).after
          (report ++ reportWritten unit c)

/-- Runs the builders of units in order and writes their compositions. -/
def runBuilders (w : Writer σ) (builders : List (String × Builder)) (state : σ) : RunResult σ :=
  runFrom w 0 {} builders state

end CompositionGen
