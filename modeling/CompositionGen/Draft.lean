import CompositionGen.Composition
import CompositionGen.Dictionary
import CompositionGen.Object

/-!
# Drafts of compositions

A builder fills a draft call by call: the composition's own settings, its composed resources and
its pipeline steps. Lists are appended to, maps are merged, single values are overwritten. No
call fails; a draft is judged when it is finalized.
-/

namespace CompositionGen

/-! ## Composed resources -/

structure DraftPatch where
  patch : Patch
  checked : Bool
  deriving DecidableEq, Inhabited, Repr

structure ResourceDraft where
  base : ObjectRef
  name : Option String := none
  patches : List DraftPatch := []
  connectionDetails : List ConnectionDetail := []
  readinessChecks : List ReadinessCheck := []
  registeredPaths : List String := []
  deriving DecidableEq, Inhabited, Repr

inductive ResourceCall where
  | withName (name : String)
  | withPatches (patches : List Patch)
  /-- Patches that are never validated. -/
  | withUnsafePatches (patches : List Patch)
  | withConnectionDetails (details : List ConnectionDetail)
  | withReadinessChecks (checks : List ReadinessCheck)
  | registerFieldPaths (paths : List String)
  | registerLabels (keys : List String)
  | registerAnnotations (keys : List String)
  deriving DecidableEq, Inhabited, Repr

namespace ResourceDraft

def apply (r : ResourceDraft) : ResourceCall → ResourceDraft
  | .withName name => { r with name := some name }
  | .withPatches patches => { r with patches := r.patches ++ patches.map (⟨·, true⟩) }
  | .withUnsafePatches patches => { r with patches := r.patches ++ patches.map (⟨·, false⟩) }
  | .withConnectionDetails details =>
    { r with connectionDetails := r.connectionDetails ++ details }
  | .withReadinessChecks checks => { r with readinessChecks := r.readinessChecks ++ checks }
  | .registerFieldPaths paths => { r with registeredPaths := r.registeredPaths ++ paths }
  | .registerLabels keys =>
    { r with registeredPaths := r.registeredPaths ++ keys.map labelPath }
  | .registerAnnotations keys =>
    { r with registeredPaths := r.registeredPaths ++ keys.map annotationPath }

def applyAll (r : ResourceDraft) (calls : List ResourceCall) : ResourceDraft :=
  calls.foldl apply r

end ResourceDraft

/-! ## Pipeline steps -/

structure StepDraft where
  step : String
  functionRef : Option String := none
  input : Option ObjectRef := none
  patches : Dictionary (List Patch) := .empty
  mergePatches : Bool := false
  deriving DecidableEq, Inhabited, Repr

inductive StepCall where
  | withFunctionRef (name : String)
  | withInput (input : ObjectRef)
  | withPatch (resource : String) (patch : Patch)
  | withPatches (resource : String) (patches : List Patch)
  | mergePatchesIntoInput (enabled : Bool)
  deriving DecidableEq, Inhabited, Repr

namespace StepDraft

def addPatches (s : StepDraft) (resource : String) (patches : List Patch) : StepDraft :=
  { s with patches := s.patches.alter resource fun old => old.getD [] ++ patches }

def apply (s : StepDraft) : StepCall → StepDraft
  | .withFunctionRef name => { s with functionRef := some name }
  | .withInput input => { s with input := some input }
  | .withPatch resource patch => s.addPatches resource [patch]
  | .withPatches resource patches => s.addPatches resource patches
  | .mergePatchesIntoInput enabled => { s with mergePatches := enabled }

def applyAll (s : StepDraft) (calls : List StepCall) : StepDraft := calls.foldl apply s

end StepDraft

/-! ## Compositions -/

structure CompositionDraft where
  composite : ObjectRef
  name : String := ""
  mode : Option CompositionMode := none
  labels : Dictionary String := .empty
  annotations : Dictionary String := .empty
  registeredPaths : List String := []
  resources : List ResourceDraft := []
  steps : List StepDraft := []
  writeConnectionSecretsToNamespace : Option String := none
  publishConnectionDetailsWithStoreConfig : Option String := none
  deriving DecidableEq, Inhabited, Repr

inductive DraftCall where
  | withName (name : String)
  | withLabels (labels : List (String × String))
  | withAnnotations (annotations : List (String × String))
  | withMode (mode : CompositionMode)
  | withWriteConnectionSecretsToNamespace (name : String)
  | withPublishConnectionDetailsWithStoreConfig (name : String)
  | registerCompositeFieldPaths (paths : List String)
  | registerCompositeLabels (keys : List String)
  | registerCompositeAnnotations (keys : List String)
  | newResource (base : ObjectRef) (calls : List ResourceCall)
  | newPipelineStep (step : String) (calls : List StepCall)
  deriving DecidableEq, Inhabited, Repr

namespace CompositionDraft

def new (composite : ObjectRef) : CompositionDraft := { composite }

def register (d : CompositionDraft) (paths : List String) : CompositionDraft :=
  { d with registeredPaths := d.registeredPaths ++ paths }

def apply (d : CompositionDraft) : DraftCall → CompositionDraft
  | .withName name => { d with name }
  | .withLabels labels => { d with labels := d.labels.insertAll labels }
  | .withAnnotations annotations =>
    { d with annotations := d.annotations.insertAll annotations }
  | .withMode mode => { d with mode := some mode }
  | .withWriteConnectionSecretsToNamespace name =>
    { d with writeConnectionSecretsToNamespace := some name }
  | .withPublishConnectionDetailsWithStoreConfig name =>
    { d with publishConnectionDetailsWithStoreConfig := some name }
  | .registerCompositeFieldPaths paths => d.register paths
  | .registerCompositeLabels keys => d.register (keys.map labelPath)
  | .registerCompositeAnnotations keys => d.register (keys.map annotationPath)
  | .newResource base calls =>
    { d with resources := d.resources ++ [ResourceDraft.applyAll { base } calls] }
  | .newPipelineStep step calls =>
    { d with steps := d.steps ++ [StepDraft.applyAll { step } calls] }

def applyAll (d : CompositionDraft) (calls : List DraftCall) : CompositionDraft :=
  calls.foldl apply d

end CompositionDraft

end CompositionGen
