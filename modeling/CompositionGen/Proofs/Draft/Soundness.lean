import CompositionGen.Proofs.Draft.Calls
import CompositionGen.Proofs.Draft.Finalization
import CompositionGen.Proofs.FieldPath.Matching
import CompositionGen.Proofs.Patch.Validity

/-!
# Soundness of finalizing

Every checked patch of a finished composition is valid: its type is written out, and each path that
it uses exists on the object that its type assigns to the path, or matches a text that was
registered for that very object. Texts registered elsewhere play no part.
-/

namespace CompositionGen

/-- A text names a path that may be used on an object: it parses, and its path exists on the object
or matches the path of a registered text. -/
def ObjectRef.Accepts (o : ObjectRef) (registered : List String) (raw : String) : Prop :=
  ∃ path, FieldPath.parse raw = .ok path ∧
    (o.schema.resolves path = true ∨
      ∃ r ∈ registered, ∃ q, FieldPath.parse r = .ok q ∧ q.Matches path = true)

theorem Side.valid_iff_accepts {o : ObjectRef} {raws : List String} {s : PathSet} {raw : String}
    (h : PathSet.parseAll raws = .ok s) :
    Side.Valid ⟨o, s⟩ raw ↔ o.Accepts raws raw := by
  refine exists_congr fun path => and_congr_right fun _ => ?_
  rw [or_comm, ← PathSet.contains_parseAll h]
  simp [PathSet.contains]

namespace Patch

/-- The types that a checked patch may have once its type is written out. -/
def checkedTypes : List PatchType :=
  [.fromCompositeFieldPath, .toCompositeFieldPath, .combineFromComposite, .combineToComposite]

variable {p : Patch}

/-- Writing the type out changes how no patch is read, and no other field. -/
theorem validate_explicitType (p : Patch) (composite base : Side) :
    (ResourceDraft.explicitType p).validate composite base = p.validate composite base := by
  unfold ResourceDraft.explicitType
  split
  · rename_i ht
    simp [validate_eq, ht, PatchReading.of, validateDirect]
  · rename_i ht
    simp [validate_eq, ht, PatchReading.of, validateDirect]
  · rfl

theorem type_explicitType_mem {valid : PatchEnd → String → Prop} (h : p.Valid valid) :
    ∃ type ∈ checkedTypes, (ResourceDraft.explicitType p).type = some type := by
  unfold ResourceDraft.explicitType
  rcases ht : p.type with _ | type
  · exact ⟨.fromCompositeFieldPath, by decide, rfl⟩
  · cases type with
    | fromCompositeFieldPath => exact ⟨_, by decide, ht⟩
    | toCompositeFieldPath => exact ⟨_, by decide, ht⟩
    | combineFromComposite => exact ⟨_, by decide, ht⟩
    | combineToComposite => exact ⟨_, by decide, ht⟩
    | other name =>
      by_cases hn : name = ""
      · subst hn
        exact ⟨.fromCompositeFieldPath, by decide, rfl⟩
      · simp [Valid, ht, PatchReading.of, hn] at h
    | _ => simp [Valid, ht, PatchReading.of] at h

theorem Valid.explicitType {valid : PatchEnd → String → Prop} (h : p.Valid valid) :
    (ResourceDraft.explicitType p).Valid valid := by
  unfold ResourceDraft.explicitType
  split
  · rename_i ht
    simpa [Valid, ht, PatchReading.of, ValidDirect] using h
  · rename_i ht
    simpa [Valid, ht, PatchReading.of, ValidDirect] using h
  · exact h

end Patch

/-! ## Finished compositions -/

theorem forall₂_getElem? {α β : Type} {R : α → β → Prop} {as : List α} {bs : List β}
    (h : List.Forall₂ R as bs) {i : Nat} {a : α} {b : β} (ha : as[i]? = some a)
    (hb : bs[i]? = some b) : R a b := by
  obtain ⟨hi, rfl⟩ := List.getElem?_eq_some_iff.mp ha
  obtain ⟨hj, rfl⟩ := List.getElem?_eq_some_iff.mp hb
  exact h.get hi hj

/-- The texts that count for the composite: those that the calls register, and the well-known
labels. -/
def compositeTexts (calls : List DraftCall) : List String :=
  calls.flatMap DraftCall.registered ++ knownCompositeLabels.map labelPath

/-- The texts that count for a composed resource: those that its own calls register, and the
well-known annotations. -/
def baseTexts (own : List ResourceCall) : List String :=
  own.flatMap ResourceCall.registered ++ knownResourceAnnotations.map annotationPath

/-- Where a text may be used in a patch between a composite and a composed resource. -/
def AcceptsBetween (composite : ObjectRef) (calls : List DraftCall)
    (resource : ObjectRef × List ResourceCall) : PatchEnd → String → Prop
  | .composite => composite.Accepts (compositeTexts calls)
  | .base => resource.1.Accepts (baseTexts resource.2)

namespace CompositionDraft

/-- What is known of a template that a resource's calls have led to. -/
theorem patches_of_build {composite : ObjectRef} {calls : List DraftCall}
    {resource : ObjectRef × List ResourceCall} {shared : PathSet} {t : ComposedTemplate}
    (hs : PathSet.parseAll (compositeTexts calls) = .ok shared)
    (h : (resourceDraft resource).build ⟨composite, shared⟩ = .ok t) :
    t.patches = (resource.2.flatMap ResourceCall.patches).map DraftPatch.final ∧
    ∃ own, PathSet.parseAll (baseTexts resource.2) = .ok own ∧
      ∀ e ∈ resource.2.flatMap ResourceCall.patches, e.checked = true →
        e.patch.validate ⟨composite, shared⟩ ⟨resource.1, own⟩ = .ok () ∧
        e.patch.Valid (AcceptsBetween composite calls resource) := by
  obtain ⟨⟨own, ho, hv⟩, rfl⟩ := ResourceDraft.build_ok_iff.mp h
  simp only [ResourceDraft.allPaths, resourceDraft, ResourceDraft.registeredPaths_applyAll,
    ResourceDraft.patches_applyAll, ResourceDraft.base_applyAll, List.nil_append] at ho hv
  refine ⟨?_, own, ho, fun e he hc => ⟨hv e he hc, ?_⟩⟩
  · simp [ResourceDraft.template, resourceDraft, ResourceDraft.patches_applyAll]
  · refine (Patch.validate_ok_iff.mp (hv e he hc)).mono fun place raw hr => ?_
    cases place with
    | composite => exact (Side.valid_iff_accepts hs).mp hr
    | base => exact (Side.valid_iff_accepts ho).mp hr

/-- A finished composition has a template for each composed resource and a patch for each patch
that was added to it, in their order. The patches that were added to be checked have one of the
four checked types, use only paths that their own side admits, and would be found valid again. -/
theorem finalize_sound (composite : ObjectRef) (calls : List DraftCall) (c : Composition)
    (h : ((CompositionDraft.new composite).applyAll calls).finalize.2 = .ok c) :
    c.spec.resources.length = (calls.flatMap DraftCall.resources).length ∧
    ∀ (i : Nat) (resource : ObjectRef × List ResourceCall) (t : ComposedTemplate),
      (calls.flatMap DraftCall.resources)[i]? = some resource →
      c.spec.resources[i]? = some t →
      t.patches.length = (resource.2.flatMap ResourceCall.patches).length ∧
      ∃ shared own, PathSet.parseAll (compositeTexts calls) = .ok shared ∧
        PathSet.parseAll (baseTexts resource.2) = .ok own ∧
        ∀ (j : Nat) (given emitted : Patch),
          (resource.2.flatMap ResourceCall.patches)[j]? = some ⟨given, true⟩ →
          t.patches[j]? = some emitted →
          (∃ type ∈ Patch.checkedTypes, emitted.type = some type) ∧
          emitted.Valid (AcceptsBetween composite calls resource) ∧
          emitted.validate ⟨composite, shared⟩ ⟨resource.1, own⟩ = .ok () := by
  have hres : ((new composite).applyAll calls).resources =
      (calls.flatMap DraftCall.resources).map resourceDraft := by
    rw [resources_applyAll]
    rfl
  rcases resources_of_finalize h with ⟨hd, hc⟩ | ⟨shared, hs, hall⟩
  · rw [hres, List.map_eq_nil_iff] at hd
    simp [hd, hc]
  · rw [hres, List.forall₂_map_left_iff] at hall
    have htexts : ((new composite).applyAll calls).allPaths = compositeTexts calls := by
      rw [allPaths, registeredPaths_applyAll]
      rfl
    rw [htexts] at hs
    rw [composite_applyAll] at hall
    refine ⟨hall.length_eq.symm, fun i resource t hi ht => ?_⟩
    -- The template was built from the calls on its own resource and nothing of its siblings.
    have hbuild := forall₂_getElem? hall hi ht
    obtain ⟨hp, own, ho, hv⟩ := patches_of_build hs hbuild
    refine ⟨by simp [hp], shared, own, hs, ho, fun j given emitted hg he => ?_⟩
    obtain ⟨hok, hvalid⟩ := hv ⟨given, true⟩ (List.mem_of_getElem? hg) rfl
    obtain rfl : ResourceDraft.explicitType given = emitted := by
      simpa [hp, hg, DraftPatch.final] using he
    refine ⟨Patch.type_explicitType_mem hvalid, ?_, ?_⟩
    · exact hvalid.explicitType
    · rw [Patch.validate_explicitType]
      exact hok

/-! A composite with a path of its own, and two resources, of which the second has an unchecked
patch before the checked one. -/

def sampleComposite : ObjectRef :=
  .ofValue ⟨"example.org", "v1", "XThing"⟩ (.object [("spec", .object [("size", .string "small")])])

def sampleBase : ObjectRef :=
  .ofValue ⟨"", "v1", "ConfigMap"⟩ (.object [("data", .object [])])

def sampleCalls : List DraftCall := [
  .newResource sampleBase [
    .withPatches [.simple "spec.size" "data[size]"],
    .registerFieldPaths ["data.size"]],
  .newResource sampleBase [
    .withUnsafePatches [.simple "nowhere" "nothing"],
    .withPatches [
      .toComposite "status.note" "metadata.annotations[crossplane.io/external-name]"]],
  .registerCompositeFieldPaths ["status.note"],
  .withName "sample"]

theorem finalize_sampleCalls : ∃ c,
    ((new sampleComposite).applyAll sampleCalls).finalize.2 = .ok c ∧
      c.spec.resources.length = 2 := by
  have hok : ((new sampleComposite).applyAll sampleCalls).finalize.2.isOk = true := by
    decide +kernel
  cases h : ((new sampleComposite).applyAll sampleCalls).finalize.2 with
  | ok c => exact ⟨c, rfl, (finalize_sound _ _ c h).1⟩
  | error e => simp [h, Except.isOk, Except.toBool] at hok

end CompositionDraft

end CompositionGen
