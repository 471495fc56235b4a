import CompositionGen.Draft
import CompositionGen.Proofs.Sequences

/-!
# What calls leave on a draft

A draft after a sequence of calls, read off the calls themselves: what is appended by one kind of
call stands in the order of these calls, whatever other calls lie between them.
-/

namespace CompositionGen

/-! ## Composed resources -/

namespace ResourceCall

def name? : ResourceCall → Option String
  | .withName name => some name
  | _ => none

/-- The patches that a call adds. -/
def patches : ResourceCall → List DraftPatch
  | .withPatches patches => patches.map (⟨·, true⟩)
  | .withUnsafePatches patches => patches.map (⟨·, false⟩)
  | _ => []

def connectionDetails : ResourceCall → List ConnectionDetail
  | .withConnectionDetails details => details
  | _ => []

def readinessChecks : ResourceCall → List ReadinessCheck
  | .withReadinessChecks checks => checks
  | _ => []

/-- The texts that a call registers. -/
def registered : ResourceCall → List String
  | .registerFieldPaths paths => paths
  | .registerLabels keys => keys.map labelPath
  | .registerAnnotations keys => keys.map annotationPath
  | _ => []

end ResourceCall

namespace ResourceDraft

variable {r : ResourceDraft}

theorem base_applyAll (calls : List ResourceCall) : (r.applyAll calls).base = r.base :=
  foldl_keeps (fun _ call => by cases call <;> rfl) calls r

theorem name_applyAll (calls : List ResourceCall) :
    (r.applyAll calls).name = (calls.filterMap ResourceCall.name?).getLast?.or r.name :=
  foldl_last (·.name) (fun _ call => by cases call <;> rfl) calls r

theorem connectionDetails_applyAll (calls : List ResourceCall) :
    (r.applyAll calls).connectionDetails =
      r.connectionDetails ++ calls.flatMap ResourceCall.connectionDetails :=
  foldl_appends (fun _ call => by cases call <;> simp [apply, ResourceCall.connectionDetails])
    calls r

theorem readinessChecks_applyAll (calls : List ResourceCall) :
    (r.applyAll calls).readinessChecks =
      r.readinessChecks ++ calls.flatMap ResourceCall.readinessChecks :=
  foldl_appends (fun _ call => by cases call <;> simp [apply, ResourceCall.readinessChecks])
    calls r

theorem patches_applyAll (calls : List ResourceCall) :
    (r.applyAll calls).patches = r.patches ++ calls.flatMap ResourceCall.patches :=
  foldl_appends (fun _ call => by cases call <;> simp [apply, ResourceCall.patches]) calls r

theorem registeredPaths_applyAll (calls : List ResourceCall) :
    (r.applyAll calls).registeredPaths =
      r.registeredPaths ++ calls.flatMap ResourceCall.registered :=
  foldl_appends (fun _ call => by cases call <;> simp [apply, ResourceCall.registered]) calls r

end ResourceDraft

/-! ## Pipeline steps -/

namespace StepCall

def functionRef? : StepCall → Option String
  | .withFunctionRef name => some name
  | _ => none

def input? : StepCall → Option ObjectRef
  | .withInput input => some input
  | _ => none

/-- Whether a call turns merging on or off. -/
def merging? : StepCall → Option Bool
  | .mergePatchesIntoInput enabled => some enabled
  | _ => none

end StepCall

namespace StepDraft

variable {s : StepDraft}

theorem step_applyAll (calls : List StepCall) : (s.applyAll calls).step = s.step :=
  foldl_keeps (fun _ call => by cases call <;> rfl) calls s

theorem functionRef_applyAll (calls : List StepCall) :
    (s.applyAll calls).functionRef =
      (calls.filterMap StepCall.functionRef?).getLast?.or s.functionRef :=
  foldl_last (·.functionRef) (fun _ call => by cases call <;> rfl) calls s

theorem input_applyAll (calls : List StepCall) :
    (s.applyAll calls).input = (calls.filterMap StepCall.input?).getLast?.or s.input :=
  foldl_last (·.input) (fun _ call => by cases call <;> rfl) calls s

theorem mergePatches_applyAll (calls : List StepCall) :
    some (s.applyAll calls).mergePatches =
      (calls.filterMap StepCall.merging?).getLast?.or (some s.mergePatches) :=
  foldl_last (some ·.mergePatches) (fun _ call => by cases call <;> rfl) calls s

end StepDraft

/-! ## Compositions -/

namespace DraftCall

def name? : DraftCall → Option String
  | .withName name => some name
  | _ => none

def mode? : DraftCall → Option CompositionMode
  | .withMode mode => some mode
  | _ => none

def labels : DraftCall → List (String × String)
  | .withLabels labels => labels
  | _ => []

def annotations : DraftCall → List (String × String)
  | .withAnnotations annotations => annotations
  | _ => []

/-- The namespace that a call gives for connection secrets. -/
def secretsNamespace? : DraftCall → Option String
  | .withWriteConnectionSecretsToNamespace name => some name
  | _ => none

/-- The store configuration that a call gives for connection details. -/
def storeConfig? : DraftCall → Option String
  | .withPublishConnectionDetailsWithStoreConfig name => some name
  | _ => none

/-- The texts that a call registers for the composite. -/
def registered : DraftCall → List String
  | .registerCompositeFieldPaths paths => paths
  | .registerCompositeLabels keys => keys.map labelPath
  | .registerCompositeAnnotations keys => keys.map annotationPath
  | _ => []

/-- The resource that a call adds: its base and the calls made on it. -/
def resources : DraftCall → List (ObjectRef × List ResourceCall)
  | .newResource base calls => [(base, calls)]
  | _ => []

/-- The step that a call adds: its name and the calls made on it. -/
def steps : DraftCall → List (String × List StepCall)
  | .newPipelineStep step calls => [(step, calls)]
  | _ => []

end DraftCall

namespace CompositionDraft

variable {d : CompositionDraft}

theorem composite_applyAll (calls : List DraftCall) :
    (d.applyAll calls).composite = d.composite :=
  foldl_keeps (fun _ call => by cases call <;> rfl) calls d

theorem name_applyAll (calls : List DraftCall) :
    some (d.applyAll calls).name =
      (calls.filterMap DraftCall.name?).getLast?.or (some d.name) :=
  foldl_last (some ·.name) (fun _ call => by cases call <;> rfl) calls d

theorem mode_applyAll (calls : List DraftCall) :
    (d.applyAll calls).mode = (calls.filterMap DraftCall.mode?).getLast?.or d.mode :=
  foldl_last (·.mode) (fun _ call => by cases call <;> rfl) calls d

theorem labels_applyAll (calls : List DraftCall) :
    (d.applyAll calls).labels = d.labels.insertAll (calls.flatMap DraftCall.labels) :=
  foldl_merges (fun _ call => by cases call <;> rfl) calls d

theorem annotations_applyAll (calls : List DraftCall) :
    (d.applyAll calls).annotations =
      d.annotations.insertAll (calls.flatMap DraftCall.annotations) :=
  foldl_merges (fun _ call => by cases call <;> rfl) calls d

theorem secretsNamespace_applyAll (calls : List DraftCall) :
    (d.applyAll calls).writeConnectionSecretsToNamespace =
      (calls.filterMap DraftCall.secretsNamespace?).getLast?.or
        d.writeConnectionSecretsToNamespace :=
  foldl_last (·.writeConnectionSecretsToNamespace) (fun _ call => by cases call <;> rfl) calls d

theorem storeConfig_applyAll (calls : List DraftCall) :
    (d.applyAll calls).publishConnectionDetailsWithStoreConfig =
      (calls.filterMap DraftCall.storeConfig?).getLast?.or
        d.publishConnectionDetailsWithStoreConfig :=
  foldl_last (·.publishConnectionDetailsWithStoreConfig) (fun _ call => by cases call <;> rfl)
    calls d

theorem registeredPaths_applyAll (calls : List DraftCall) :
    (d.applyAll calls).registeredPaths =
      d.registeredPaths ++ calls.flatMap DraftCall.registered :=
  foldl_appends (fun _ call => by cases call <;> simp [apply, register, DraftCall.registered])
    calls d

/-- The draft that the calls on a resource leave. -/
def resourceDraft (resource : ObjectRef × List ResourceCall) : ResourceDraft :=
  ResourceDraft.applyAll { base := resource.1 } resource.2

theorem resources_applyAll (calls : List DraftCall) :
    (d.applyAll calls).resources =
      d.resources ++ (calls.flatMap DraftCall.resources).map resourceDraft := by
  rw [List.map_flatMap]
  exact foldl_appends (fun _ call => by
    cases call <;> simp [apply, register, DraftCall.resources, resourceDraft]) calls d

/-- The draft that the calls on a step leave. -/
def stepDraft (step : String × List StepCall) : StepDraft :=
  StepDraft.applyAll { step := step.1 } step.2

theorem mergePatches_stepDraft (step : String × List StepCall) :
    (stepDraft step).mergePatches =
      decide ((step.2.filterMap StepCall.merging?).getLast? = some true) := by
  have hlast := StepDraft.mergePatches_applyAll (s := { step := step.1 }) step.2
  rw [stepDraft]
  cases hg : (step.2.filterMap StepCall.merging?).getLast? with
  | none => simpa [hg] using hlast
  | some enabled => simpa [hg] using hlast

theorem steps_applyAll (calls : List DraftCall) :
    (d.applyAll calls).steps =
      d.steps ++ (calls.flatMap DraftCall.steps).map stepDraft := by
  rw [List.map_flatMap]
  exact foldl_appends (fun _ call => by
    cases call <;> simp [apply, register, DraftCall.steps, stepDraft]) calls d

end CompositionDraft

end CompositionGen
