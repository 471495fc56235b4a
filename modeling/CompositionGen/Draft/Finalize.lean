import CompositionGen.Draft.Merge
import CompositionGen.Patch.Validation

/-!
# Finalizing drafts

A draft becomes a composition when its name is not empty, its children fit its mode, all its
registered paths parse, every checked patch is valid and every step names a function. The first
violation in that order is reported.
-/

namespace CompositionGen

/-- Why a composed resource cannot be built. -/
inductive TemplateError where
  | invalidRegisteredPath (path : String) (cause : ParseError)
  | invalidPatch (index : Nat) (cause : PatchError)
  deriving DecidableEq, Repr

inductive BuildError where
  | emptyName
  | pipelineStepsInResourcesMode (count : Nat)
  | resourcesInPipelineMode (count : Nat)
  | invalidRegisteredPath (path : String) (cause : ParseError)
  | composedTemplate (index : Nat) (name : Option String) (cause : TemplateError)
  | missingFunctionRef (index : Nat) (step : String)
  deriving DecidableEq, Repr

def TemplateError.messages : TemplateError → List String
  | .invalidRegisteredPath path cause =>
    ["cannot parse registered composed path " ++ Text.quoted path, cause.message]
  | .invalidPatch index cause => s!"invalid patch at index {index}" :: cause.messages

def BuildError.messages : BuildError → List String
  | .emptyName => ["composition name must not be empty"]
  | .pipelineStepsInResourcesMode count =>
    [s!"{count} pipeline step(s) declared on a Resources mode composition"]
  | .resourcesInPipelineMode count =>
    [s!"{count} composed resource(s) declared on a Pipeline mode composition"]
  | .invalidRegisteredPath path cause =>
    ["cannot parse registered composite path " ++ Text.quoted path, cause.message]
  | .composedTemplate index name cause =>
    let suffix := name.elim "" fun n => " (" ++ n ++ ")"
    s!"cannot build composed template at index {index}{suffix}" :: cause.messages
  | .missingFunctionRef index step =>
    [s!"cannot build pipeline step at index {index} ({step})",
      "pipeline step " ++ Text.quoted step ++ " has no function reference"]

namespace ResourceDraft

/-- The registered paths with the well-known annotations. -/
def allPaths (r : ResourceDraft) : List String :=
  r.registeredPaths ++ knownResourceAnnotations.map annotationPath

def explicitType (p : Patch) : Patch :=
  match p.type with
  | none | some (.other "") => { p with type := some .fromCompositeFieldPath }
  | some _ => p

/-- Validates the checked patches from index `index` on. -/
def buildPatches (composite base : Side) (index : Nat) :
    List DraftPatch → Except TemplateError (List Patch)
  | [] => .ok []
  | ⟨patch, false⟩ :: rest => (buildPatches composite base (index + 1) rest).map (patch :: ·)
  | ⟨patch, true⟩ :: rest =>
    match patch.validate composite base with
    | .error cause => .error (.invalidPatch index cause)
    | .ok () => (buildPatches composite base (index + 1) rest).map (explicitType patch :: ·)

def build (r : ResourceDraft) (composite : Side) : Except TemplateError ComposedTemplate :=
  match PathSet.parseAll r.allPaths with
  | .error (path, cause) => .error (.invalidRegisteredPath path cause)
  | .ok registered => do
    let patches ← buildPatches composite ⟨r.base, registered⟩ 0 r.patches
    pure {
      name := r.name
      base := r.base.stamped
      patches
      connectionDetails := r.connectionDetails
      readinessChecks := r.readinessChecks }

/-- The composed resources of drafts from index `index` on. -/
def buildAll (composite : Side) (index : Nat) :
    List ResourceDraft → Except BuildError (List ComposedTemplate)
  | [] => .ok []
  | r :: rest =>
    match r.build composite with
    | .error cause => .error (.composedTemplate index r.name cause)
    | .ok template => (buildAll composite (index + 1) rest).map (template :: ·)

end ResourceDraft

namespace StepDraft

/-- The steps of drafts from index `index` on, with what is reported up to the first failure. -/
def buildAll (index : Nat) : List StepDraft → Report × Except BuildError (List PipelineStep)
  | [] => ({}, .ok [])
  | s :: rest =>
    match s.functionRef with
    | none => ({}, .error (.missingFunctionRef index s.step))
    | some functionRef =>
      let (report, input) := s.finalInput
      let (others, steps) := buildAll (index + 1) rest
      (report ++ others, steps.map (⟨s.step, functionRef, input⟩ :: ·))

end StepDraft

namespace CompositionDraft

def finalMode (d : CompositionDraft) : CompositionMode := d.mode.getD .resources

/-- The registered composite paths with the well-known labels. -/
def allPaths (d : CompositionDraft) : List String :=
  d.registeredPaths ++ knownCompositeLabels.map labelPath

/-- The resources and steps of a draft, of which those of its mode may be there. -/
def buildChildren (d : CompositionDraft) :
    Report × Except BuildError (List ComposedTemplate × List PipelineStep) :=
  match d.finalMode with
  | .resources =>
    if !d.steps.isEmpty then ({}, .error (.pipelineStepsInResourcesMode d.steps.length))
    else match PathSet.parseAll d.allPaths with
      | .error (path, cause) => ({}, .error (.invalidRegisteredPath path cause))
      | .ok registered =>
        ({}, (ResourceDraft.buildAll ⟨d.composite, registered⟩ 0 d.resources).map (·, []))
  | .pipeline =>
    if !d.resources.isEmpty then ({}, .error (.resourcesInPipelineMode d.resources.length))
    else
      let (report, steps) := StepDraft.buildAll 0 d.steps
      (report, steps.map ([], ·))

/-- A map of metadata; an empty one is left out. -/
def metadataMap (map : Dictionary String) : Option (List (String × String)) :=
  if map.isEmpty then none else some map.entries

def assemble (d : CompositionDraft) (resources : List ComposedTemplate)
    (pipeline : List PipelineStep) : Composition where
  apiVersion := Composition.currentApiVersion
  kind := Composition.currentKind
  metadata := {
    annotations := metadataMap d.annotations
    labels := metadataMap d.labels
    name := some d.name }
  spec := {
    compositeTypeRef := d.composite.kind.typeReference
    mode := d.finalMode
    resources
    pipeline
    writeConnectionSecretsToNamespace := d.writeConnectionSecretsToNamespace
    publishConnectionDetailsWithStoreConfig := d.publishConnectionDetailsWithStoreConfig }

/-- The composition of a draft, or why there is none, with what is reported on the way. -/
def finalize (d : CompositionDraft) : Report × Except BuildError Composition :=
  if d.name.isEmpty then ({}, .error .emptyName)
  else
    let (report, children) := d.buildChildren
    (report, children.map fun (resources, pipeline) => d.assemble resources pipeline)

end CompositionDraft

end CompositionGen
