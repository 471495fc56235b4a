import CompositionGen.Draft.Finalize
import CompositionGen.Files

/-!
# Builders

A builder names the composite that its composition is for and makes calls on a draft. It may read
files and report events while it does so. One that fails or panics yields no composition, and
neither does a draft that cannot be finalized.
-/

namespace CompositionGen

inductive BuildOutcome where
  | done (calls : List DraftCall)
  | failed (messages : List String)
  | panicked
  deriving DecidableEq, Inhabited, Repr

/-- What fills the draft of one composition. -/
structure Builder where
  composite : ObjectRef
  /-- What the builder reports and comes to when it finds these files. -/
  build : FileSystem → Report × BuildOutcome
  deriving Inhabited

inductive DropReason where
  | failed (messages : List String)
  | notFinalized (name : String) (cause : BuildError)
  | panicked
  deriving DecidableEq, Repr

def DropReason.messages : DropReason → List String
  | failed messages => "builder failed" :: messages
  | notFinalized name cause =>
    ("cannot finalize composition " ++ Text.quoted name) :: cause.messages
  | panicked => ["builder panicked"]

namespace Builder

def draft (b : Builder) (calls : List DraftCall) : CompositionDraft :=
  (CompositionDraft.new b.composite).applyAll calls

def compose (b : Builder) (fs : FileSystem) : Report × Except DropReason Composition :=
  match b.build fs with
  | (report, .failed messages) => (report, .error (.failed messages))
  | (report, .panicked) => (report, .error .panicked)
  | (report, .done calls) =>
    let draft := b.draft calls
    let (finalReport, result) := draft.finalize
    (report ++ finalReport, result.mapError (.notFinalized draft.name))

end Builder

end CompositionGen
