import CompositionGen.Proofs.Draft.Calls
import CompositionGen.Proofs.Draft.Finalization
import CompositionGen.Proofs.Draft.Soundness
import CompositionGen.Proofs.Json.Members

/-!
# Faithfulness of finalizing

Finalizing loses, duplicates and reorders nothing. What a finished composition has to be is read
off the calls that led to it, without the draft between them: single values are those given last,
lists are what the calls appended in their order, maps hold the last value of each name. Two things
are added on the way: the type of a base, and the type of a checked patch that has none.
-/

namespace CompositionGen

/-! ## Bases -/

/-- Whether a member says which type an object is of. -/
def isTypeTag (name : String) : Bool := name = "apiVersion" || name = "kind"

/-- Members that are tagged with a kind: the two tags are those of the kind, and every other member
is the same one in the same order. Members in ascending order are in ascending order still. -/
structure Tagged (kind : ObjectKind) (members tagged : List (String × Json)) : Prop where
  apiVersion : lookup? "apiVersion" tagged = some (.string kind.apiVersion)
  kind : lookup? "kind" tagged = some (.string kind.kind)
  others : tagged.filter (!isTypeTag ·.1) = members.filter (!isTypeTag ·.1)
  sorted : (members.Pairwise fun a b => a.1 < b.1) → tagged.Pairwise fun a b => a.1 < b.1

/-- The base that an object becomes: tagged with its kind, unless it is not an object at all. -/
def ObjectRef.HasBase (o : ObjectRef) (base : Json) : Prop :=
  match o.value with
  | .object members => ∃ tagged, base = .object tagged ∧ Tagged o.kind members tagged
  | value => base = value

theorem ObjectRef.hasBase_stamped (o : ObjectRef) : o.HasBase o.stamped := by
  unfold HasBase stamped
  cases o.value with
  | object members =>
    refine ⟨_, rfl, ?_, ?_, ?_, fun h => Json.sorted_setMember (Json.sorted_setMember h)⟩
    · simp [Json.lookup?_setMember]
    · simp [Json.lookup?_setMember]
    · rw [Json.filter_setMember (!isTypeTag ·) rfl, Json.filter_setMember (!isTypeTag ·) rfl]
  | _ => rfl

/-! ## Patches -/

/-- What a patch of a draft is written as: a checked one whose type is unset or empty gets the type
that it counts as, and any other stays as it was given. -/
inductive DraftPatch.Becomes : DraftPatch → Patch → Prop where
  | unchecked (p : Patch) : Becomes ⟨p, false⟩ p
  | typed {p : Patch} {type : PatchType} (h : p.type = some type) (named : type.name ≠ "") :
    Becomes ⟨p, true⟩ p
  | untyped {p : Patch} (h : ∀ type, p.type = some type → type.name = "") :
    Becomes ⟨p, true⟩ { p with type := some .fromCompositeFieldPath }

theorem PatchType.name_eq_empty_iff {type : PatchType} : type.name = "" ↔ type = .other "" := by
  cases type <;> simp [name]

theorem DraftPatch.becomes_final (e : DraftPatch) : e.Becomes e.final := by
  obtain ⟨patch, checked⟩ := e
  cases checked with
  | false => exact .unchecked patch
  | true =>
    simp only [final, ResourceDraft.explicitType, if_true]
    split
    · rename_i h
      exact .untyped fun type ht => by simp [h] at ht
    · rename_i h
      refine .untyped fun type ht => ?_
      cases h.symm.trans ht
      rfl
    · rename_i type hother h
      exact .typed h fun hn => hother (PatchType.name_eq_empty_iff.mp hn)

/-! ## Children -/

/-- A template that says what the calls on a resource said. -/
structure ComposedTemplate.Reflects (t : ComposedTemplate)
    (resource : ObjectRef × List ResourceCall) : Prop where
  name : t.name = (resource.2.filterMap ResourceCall.name?).getLast?
  base : resource.1.HasBase t.base
  patches :
    List.Forall₂ DraftPatch.Becomes (resource.2.flatMap ResourceCall.patches) t.patches
  connectionDetails :
    t.connectionDetails = resource.2.flatMap ResourceCall.connectionDetails
  readinessChecks : t.readinessChecks = resource.2.flatMap ResourceCall.readinessChecks

/-- A step that says what the calls on it said; its input is the given one unless patches are to be
merged into it. -/
structure PipelineStep.Reflects (p : PipelineStep) (given : String × List StepCall) : Prop where
  step : p.step = given.1
  functionRef : (given.2.filterMap StepCall.functionRef?).getLast? = some p.functionRef
  input : (given.2.filterMap StepCall.merging?).getLast? ≠ some true →
    p.input = (given.2.filterMap StepCall.input?).getLast?.map ObjectRef.withTypeMeta

theorem ResourceDraft.template_reflects (resource : ObjectRef × List ResourceCall) :
    (CompositionDraft.resourceDraft resource).template.Reflects resource where
  name := by
    simp [template, CompositionDraft.resourceDraft, name_applyAll]
  base := by
    rw [template, CompositionDraft.resourceDraft, base_applyAll]
    exact ObjectRef.hasBase_stamped _
  patches := by
    rw [template, CompositionDraft.resourceDraft, patches_applyAll, List.nil_append,
      List.forall₂_map_right_iff, List.forall₂_same]
    exact fun e _ => e.becomes_final
  connectionDetails := by
    rw [template, CompositionDraft.resourceDraft, connectionDetails_applyAll, List.nil_append]
  readinessChecks := by
    rw [template, CompositionDraft.resourceDraft, readinessChecks_applyAll, List.nil_append]

theorem StepDraft.finalInput_of_not_merging {s : StepDraft} (h : s.mergePatches = false) :
    s.finalInput.2 = s.input.map ObjectRef.withTypeMeta := by
  simp [finalInput, h]

theorem StepDraft.Builds.reflects {given : String × List StepCall} {p : PipelineStep}
    (h : (CompositionDraft.stepDraft given).Builds p) : p.Reflects given where
  step := h.step.trans (step_applyAll _)
  functionRef := by
    simpa [CompositionDraft.stepDraft, functionRef_applyAll] using h.functionRef
  input hm := by
    have hoff : (CompositionDraft.stepDraft given).mergePatches = false := by
      rw [CompositionDraft.mergePatches_stepDraft]
      exact decide_eq_false hm
    rw [h.input, finalInput_of_not_merging hoff, CompositionDraft.stepDraft, input_applyAll,
      Option.or_none]

/-! ## Metadata -/

/-- A map that pairs are merged into one after another: absent without a pair, and otherwise in
ascending order of the names with the last value of each. -/
def MergedMap (pairs : List (String × String)) : Option (List (String × String)) → Prop
  | none => pairs = []
  | some entries =>
    pairs ≠ [] ∧ (entries.Pairwise fun a b => a.1 < b.1) ∧
      ∀ key, lookup? key entries =
        (pairs.filterMap fun e => if e.1 = key then some e.2 else none).getLast?

namespace CompositionDraft

theorem mergedMap_metadataMap (pairs : List (String × String)) :
    MergedMap pairs (metadataMap (Dictionary.empty.insertAll pairs)) := by
  have hlook := fun key => Dictionary.get?_insertAll Dictionary.empty pairs key
  simp only [Dictionary.get?, Dictionary.empty, lookup?, Option.or_none] at hlook
  unfold metadataMap Dictionary.isEmpty
  split
  · rename_i hempty
    rw [List.isEmpty_iff] at hempty
    -- The name of a pair would be looked up in vain.
    cases pairs with
    | nil => rfl
    | cons pair rest =>
      have hnone := hlook pair.1
      rw [show (Dictionary.insertAll ⟨[], .nil⟩ (pair :: rest)).entries = [] from hempty] at hnone
      simp [lookup?, eq_comm, List.getLast?_cons] at hnone
  · rename_i hfull
    refine ⟨?_, Dictionary.sorted _, hlook⟩
    rintro rfl
    exact hfull rfl

end CompositionDraft

/-! ## Compositions -/

/-- A composition that says what the calls on a draft said. -/
structure Composition.Reflects (c : Composition) (composite : ObjectRef) (calls : List DraftCall) :
    Prop where
  name : ∃ name, (calls.filterMap DraftCall.name?).getLast? = some name ∧
    c.metadata.name = some name
  mode : c.spec.mode = (calls.filterMap DraftCall.mode?).getLast?.getD .resources
  /-- Only children of the mode are there. -/
  exclusive : match c.spec.mode with
    | .resources => c.spec.pipeline = []
    | .pipeline => c.spec.resources = []
  resources : List.Forall₂ ComposedTemplate.Reflects c.spec.resources
    (calls.flatMap DraftCall.resources)
  pipeline : List.Forall₂ PipelineStep.Reflects c.spec.pipeline (calls.flatMap DraftCall.steps)
  labels : MergedMap (calls.flatMap DraftCall.labels) c.metadata.labels
  annotations : MergedMap (calls.flatMap DraftCall.annotations) c.metadata.annotations
  compositeTypeRef : c.spec.compositeTypeRef = ⟨composite.kind.apiVersion, composite.kind.kind⟩
  writeConnectionSecretsToNamespace : c.spec.writeConnectionSecretsToNamespace =
    (calls.filterMap DraftCall.secretsNamespace?).getLast?
  publishConnectionDetailsWithStoreConfig : c.spec.publishConnectionDetailsWithStoreConfig =
    (calls.filterMap DraftCall.storeConfig?).getLast?

namespace CompositionDraft

variable {composite : ObjectRef} {calls : List DraftCall}

/-- The templates built from the resources of a draft say what the calls on the resources said. -/
theorem reflects_of_buildAll {drafts : List (ObjectRef × List ResourceCall)}
    {templates : List ComposedTemplate} {side : Side}
    (h : List.Forall₂ (fun r t => r.build side = .ok t) (drafts.map resourceDraft) templates) :
    List.Forall₂ ComposedTemplate.Reflects templates drafts := by
  rw [List.forall₂_map_left_iff] at h
  refine (h.imp fun resource t ht => ?_).flip
  obtain ⟨-, rfl⟩ := ResourceDraft.build_ok_iff.mp ht
  exact ResourceDraft.template_reflects resource

/-- The steps built from the steps of a draft say what the calls on them said. -/
theorem reflects_of_steps {drafts : List (String × List StepCall)} {steps : List PipelineStep}
    (h : List.Forall₂ StepDraft.Builds (drafts.map stepDraft) steps) :
    List.Forall₂ PipelineStep.Reflects steps drafts := by
  rw [List.forall₂_map_left_iff] at h
  exact (h.imp fun _ _ hp => hp.reflects).flip

/-- The children of a draft say what its calls said. A draft that has children of the other mode is
refused, so there are none to lose. -/
theorem reflects_of_buildChildren {d : CompositionDraft}
    {resourceCalls : List (ObjectRef × List ResourceCall)}
    {stepCalls : List (String × List StepCall)} {resources : List ComposedTemplate}
    {pipeline : List PipelineStep} (hr : d.resources = resourceCalls.map resourceDraft)
    (hs : d.steps = stepCalls.map stepDraft)
    (h : d.buildChildren.2 = .ok (resources, pipeline)) :
    (match d.finalMode with
      | .resources => pipeline = []
      | .pipeline => resources = []) ∧
    List.Forall₂ ComposedTemplate.Reflects resources resourceCalls ∧
    List.Forall₂ PipelineStep.Reflects pipeline stepCalls := by
  rcases buildChildren_ok_iff.mp h with ⟨hm, hnone, rfl, _, -, hall⟩ | ⟨hm, hnone, rfl, hall⟩
  · obtain rfl := List.map_eq_nil_iff.mp (hs.symm.trans hnone)
    exact ⟨by rw [hm], reflects_of_buildAll (hr ▸ hall), .nil⟩
  · obtain rfl := List.map_eq_nil_iff.mp (hr.symm.trans hnone)
    exact ⟨by rw [hm], .nil, reflects_of_steps (hs ▸ hall)⟩

/-- A new draft is nameless, so that a name was given by a call. -/
theorem last_name (h : ((new composite).applyAll calls).name ≠ "") :
    (calls.filterMap DraftCall.name?).getLast? = some ((new composite).applyAll calls).name := by
  have hlast := name_applyAll (d := new composite) calls
  cases hg : (calls.filterMap DraftCall.name?).getLast? with
  | none =>
    rw [hg] at hlast
    exact absurd (Option.some.inj hlast) h
  | some name =>
    rw [hg] at hlast
    exact hlast.symm

/-- Every composition that is finished says what the calls on its draft said: nothing that was
given is lost, doubled or moved, and nothing else is there. -/
theorem finalize_faithful (composite : ObjectRef) (calls : List DraftCall) (c : Composition)
    (h : ((new composite).applyAll calls).finalize.2 = .ok c) : c.Reflects composite calls := by
  obtain ⟨hname, resources, pipeline, hb, rfl⟩ := finalize_ok_iff.mp h
  -- A draft begins without a mode, so the mode is that of the last call that gives one.
  have hmode : ((new composite).applyAll calls).finalMode =
      (calls.filterMap DraftCall.mode?).getLast?.getD .resources := by
    rw [finalMode, mode_applyAll, new, Option.or_none]
  obtain ⟨hexclusive, hresources, hpipeline⟩ :=
    reflects_of_buildChildren (resources_applyAll calls) (steps_applyAll calls) hb
  refine {
    name := ⟨_, last_name hname, rfl⟩
    mode := hmode
    exclusive := hexclusive
    resources := hresources
    pipeline := hpipeline
    labels := ?_
    annotations := ?_
    compositeTypeRef := ?_
    writeConnectionSecretsToNamespace := ?_
    publishConnectionDetailsWithStoreConfig := ?_ }
  · rw [assemble, labels_applyAll]
    exact mergedMap_metadataMap _
  · rw [assemble, annotations_applyAll]
    exact mergedMap_metadataMap _
  · rw [assemble, composite_applyAll]
    rfl
  · rw [assemble, secretsNamespace_applyAll]
    exact Option.or_none
  · rw [assemble, storeConfig_applyAll]
    exact Option.or_none

/-! Single values are given twice, a label is merged over another, and an unchecked patch lies
between two checked ones, of which one has the empty type. -/

def layeredCalls : List DraftCall := [
  .withName "outline",
  .withMode .pipeline,
  .withLabels [("tier", "low"), ("team", "storage")],
  .newResource sampleBase [
    .withName "first",
    .withPatches [.simple "spec.size" "data[size]"],
    .withUnsafePatches [.simple "nowhere" "nothing"],
    .withPatches [{ Patch.simple "spec.size" "data.copy" with type := some (.other "") }],
    .registerFieldPaths ["data.size", "data.copy"],
    .withName "main"],
  .newResource sampleBase [],
  .withLabels [("tier", "high")],
  .withMode .resources,
  .withName "sample"]

theorem finalize_layeredCalls : ∃ c,
    ((new sampleComposite).applyAll layeredCalls).finalize.2 = .ok c ∧
      c.Reflects sampleComposite layeredCalls := by
  have hok : ((new sampleComposite).applyAll layeredCalls).finalize.2.isOk = true := by
    decide +kernel
  cases h : ((new sampleComposite).applyAll layeredCalls).finalize.2 with
  | ok c => exact ⟨c, rfl, finalize_faithful _ _ c h⟩
  | error e => simp [h, Except.isOk, Except.toBool] at hok

end CompositionDraft

end CompositionGen
