import CompositionGen.Proofs.Composition.ReadBack
import CompositionGen.Proofs.Draft.Faithfulness

/-!
# Reading finished compositions back

A finished composition can be written and read again. What is read is the finished composition
itself unless a call gave something that has the written form of something else.
-/

namespace CompositionGen

/-! ## Patches -/

/-- The empty name, for which a type is written out, is not that of a known type. -/
theorem Patch.readable_explicitType {p : Patch} :
    (ResourceDraft.explicitType p).Readable ↔ p.Readable := by
  have hwritten : ∀ t, some .fromCompositeFieldPath = some t → PatchType.Readable t := by
    rintro _ ⟨rfl⟩
    exact nofun
  unfold ResourceDraft.explicitType
  split
  · rename_i hnone
    have hgiven : ∀ t, p.type = some t → t.Readable := by simp [hnone]
    exact ⟨fun h => ⟨hgiven, h.combine⟩, fun h => ⟨hwritten, h.combine⟩⟩
  · rename_i hempty
    have hgiven : ∀ t, p.type = some t → t.Readable := by
      intro t ht
      cases hempty.symm.trans ht
      rintro _ ⟨rfl⟩
      decide
    exact ⟨fun h => ⟨hgiven, h.combine⟩, fun h => ⟨hwritten, h.combine⟩⟩
  · exact Iff.rfl

theorem DraftPatch.readable_final (e : DraftPatch) : e.final.Readable ↔ e.patch.Readable := by
  unfold final
  split
  · exact Patch.readable_explicitType
  · exact Iff.rfl

/-! ## Inputs of steps -/

theorem ObjectRef.withTypeMeta_eq_null_iff {o : ObjectRef} :
    o.withTypeMeta = .null ↔ o.value = .null := by
  unfold withTypeMeta
  split
  · exact Iff.rfl
  · split
    · rename_i members hmembers
      simp [hmembers]
    · exact Iff.rfl

namespace StepDraft

variable {s : StepDraft}

theorem mergeInput_eq_null_iff {input : Json} : (s.mergeInput input).2 = .null ↔ input = .null := by
  unfold mergeInput
  split
  · split
    · simp
    · simp [mergeInput.noResources]
  · exact Iff.rfl

/-- Merging patches into an input neither makes it `null` nor gives a `null` members. -/
theorem finalInput_eq_null_iff :
    s.finalInput.2 = some .null ↔ ∃ o, s.input = some o ∧ o.value = .null := by
  unfold finalInput
  cases s.input with
  | none => split <;> simp
  | some o =>
    simp only [Option.map_some]
    split
    · simp [mergeInput_eq_null_iff, ObjectRef.withTypeMeta_eq_null_iff]
    · simp [ObjectRef.withTypeMeta_eq_null_iff]

end StepDraft

/-! ## Compositions -/

/-- Calls that give nothing with the written form of something else. -/
structure DraftCall.Readable (calls : List DraftCall) : Prop where
  patches : ∀ resource ∈ calls.flatMap DraftCall.resources,
    ∀ e ∈ resource.2.flatMap ResourceCall.patches, e.patch.Readable
  /-- The input that a step is given last is not `null`. -/
  inputs : ∀ step ∈ calls.flatMap DraftCall.steps,
    ∀ o, (step.2.filterMap StepCall.input?).getLast? = some o → o.value ≠ .null

namespace CompositionDraft

variable {composite : ObjectRef} {calls : List DraftCall} {c : Composition}

/-- The templates are those of the resources that calls have added, with what these were given. -/
theorem resources_eq_of_calls (h : ((new composite).applyAll calls).finalize.2 = .ok c) :
    c.spec.resources =
      (calls.flatMap DraftCall.resources).map fun r => (resourceDraft r).template := by
  rw [resources_eq_of_finalize h, resources_applyAll, new, List.nil_append, List.map_map]
  rfl

theorem readable_iff_of_finalize (h : ((new composite).applyAll calls).finalize.2 = .ok c) :
    c.Readable ↔ DraftCall.Readable calls := by
  have hpatches : (∀ t ∈ c.spec.resources, ∀ p ∈ t.patches, p.Readable) ↔
      ∀ resource ∈ calls.flatMap DraftCall.resources,
        ∀ e ∈ resource.2.flatMap ResourceCall.patches, e.patch.Readable := by
    rw [resources_eq_of_calls h, List.forall_mem_map]
    simp only [ResourceDraft.template, List.forall_mem_map, DraftPatch.readable_final,
      resourceDraft, ResourceDraft.patches_applyAll, List.nil_append]
  have hinputs : (∀ s ∈ c.spec.pipeline, s.input ≠ some .null) ↔
      ∀ step ∈ calls.flatMap DraftCall.steps,
        ∀ o, (step.2.filterMap StepCall.input?).getLast? = some o → o.value ≠ .null := by
    have heq := inputs_eq_of_finalize h
    rw [steps_applyAll, new, List.nil_append, List.map_map] at heq
    have hmap : (∀ s ∈ c.spec.pipeline, s.input ≠ some .null) ↔
        ∀ input ∈ c.spec.pipeline.map (·.input), input ≠ some .null := by
      rw [List.forall_mem_map]
    rw [hmap, heq, List.forall_mem_map]
    simp only [Function.comp, ne_eq, StepDraft.finalInput_eq_null_iff, stepDraft,
      StepDraft.input_applyAll, Option.or_none, not_exists, not_and]
  exact ⟨fun hc => ⟨hpatches.mp hc.patches, hinputs.mp hc.inputs⟩,
    fun hd => ⟨hpatches.mpr hd.patches, hinputs.mpr hd.inputs⟩⟩

theorem sized_of_finalize (h : ((new composite).applyAll calls).finalize.2 = .ok c)
    (sized : ∀ resource ∈ calls.flatMap DraftCall.resources,
      ∀ check ∈ resource.2.flatMap ResourceCall.readinessChecks, check.Sized) :
    ∀ t ∈ c.spec.resources, t.Sized := by
  rw [resources_eq_of_calls h, List.forall_mem_map]
  intro resource hresource check hcheck
  rw [ResourceDraft.template, resourceDraft, ResourceDraft.readinessChecks_applyAll,
    List.nil_append] at hcheck
  exact sized resource hresource check hcheck

/-- A finished composition is read again, as itself exactly if its calls gave no `null` as the input
of a step or in a combination and no type that is kept as unknown under a known name. -/
theorem finalize_reads_back_iff (composite : ObjectRef) (calls : List DraftCall) (c : Composition)
    (h : ((new composite).applyAll calls).finalize.2 = .ok c)
    (sized : ∀ resource ∈ calls.flatMap DraftCall.resources,
      ∀ check ∈ resource.2.flatMap ResourceCall.readinessChecks, check.Sized) :
    Composition.ofJson? c.toJson = some c.asRead ∧
      (c.asRead = c ↔ DraftCall.Readable calls) := by
  constructor
  · exact Composition.ofJson?_toJson (sized_of_finalize h sized)
  · exact Composition.asRead_eq_iff.trans (readable_iff_of_finalize h)

/-! A check counts, and an unchecked patch has a type that is not known. -/

def countedCalls : List DraftCall := [
  .withName "sample",
  .newResource sampleBase [
    .withReadinessChecks [⟨.matchInteger, some "status.count", none, some (-3), none⟩],
    .withUnsafePatches [{ Patch.simple "nowhere" "nothing" with type := some (.other "Odd") }]]]

theorem readable_countedCalls : DraftCall.Readable countedCalls where
  patches := by
    simp only [countedCalls, DraftCall.resources, ResourceCall.patches, List.flatMap_cons,
      List.flatMap_nil, List.append_nil, List.nil_append, List.map_cons, List.map_nil,
      List.forall_mem_singleton]
    constructor
    · rintro _ ⟨rfl⟩ _ ⟨rfl⟩
      decide
    · intro c hc
      cases hc
  inputs := by
    simp [countedCalls, DraftCall.steps]

theorem finalize_reads_back_counted : ∃ c,
    ((new sampleComposite).applyAll countedCalls).finalize.2 = .ok c ∧
      Composition.ofJson? c.toJson = some c := by
  have hok : ((new sampleComposite).applyAll countedCalls).finalize.2.isOk = true := by
    decide +kernel
  cases h : ((new sampleComposite).applyAll countedCalls).finalize.2 with
  | ok c =>
    have hsized : ∀ resource ∈ countedCalls.flatMap DraftCall.resources,
        ∀ check ∈ resource.2.flatMap ResourceCall.readinessChecks, check.Sized := by
      simp only [countedCalls, DraftCall.resources, ResourceCall.readinessChecks,
        List.flatMap_cons, List.flatMap_nil, List.append_nil, List.nil_append,
        List.forall_mem_singleton]
      rintro _ ⟨rfl⟩
      decide
    obtain ⟨hread, hsame⟩ := finalize_reads_back_iff _ _ c h hsized
    exact ⟨c, rfl, hread.trans (congrArg some (hsame.mpr readable_countedCalls))⟩
  | error e => simp [h, Except.isOk, Except.toBool] at hok

/-! A step whose input is `null` is one without an input once it is read again. -/

def nullInputCalls : List DraftCall := [
  .withName "sample",
  .withMode .pipeline,
  .newPipelineStep "first" [
    .withFunctionRef "render", .withInput (.ofValue ⟨"", "v1", "ConfigMap"⟩ .null)]]

theorem finalize_nullInputCalls_reads_otherwise : ∃ c back,
    ((new sampleComposite).applyAll nullInputCalls).finalize.2 = .ok c ∧
      Composition.ofJson? c.toJson = some back ∧ back ≠ c := by
  have hok : ((new sampleComposite).applyAll nullInputCalls).finalize.2.isOk = true := by
    decide +kernel
  cases h : ((new sampleComposite).applyAll nullInputCalls).finalize.2 with
  | ok c =>
    have hsized := sized_of_finalize h (by simp [nullInputCalls, DraftCall.resources])
    refine ⟨c, c.asRead, rfl, Composition.ofJson?_toJson hsized, ?_⟩
    rw [ne_eq, Composition.asRead_eq_iff, readable_iff_of_finalize h]
    intro hreadable
    exact hreadable.inputs _ (List.mem_singleton.mpr rfl) _ rfl rfl
  | error e => simp [h, Except.isOk, Except.toBool] at hok

end CompositionDraft

end CompositionGen
