import CompositionGen.Draft.Finalize
import CompositionGen.Proofs.Outcome
import Mathlib.Data.List.Forall2

/-!
# When drafts are finalized

What a finalized draft consists of: one template for each composed resource in their order, each
with its patches, of which the checked ones were found valid against the registered paths.
-/

namespace CompositionGen

/-- The patch that a draft's patch becomes: the type of a checked one is written out. -/
def DraftPatch.final (e : DraftPatch) : Patch :=
  if e.checked then ResourceDraft.explicitType e.patch else e.patch

namespace ResourceDraft

theorem buildPatches_ok_iff {composite base : Side} {index : Nat} {entries : List DraftPatch}
    {patches : List Patch} :
    buildPatches composite base index entries = .ok patches ↔
      (∀ e ∈ entries, e.checked = true → e.patch.validate composite base = .ok ()) ∧
        patches = entries.map DraftPatch.final := by
  induction entries generalizing index patches with
  | nil => exact ⟨fun h => by cases h; simp, fun h => by rw [h.2]; rfl⟩
  | cons e rest ih =>
    obtain ⟨patch, checked⟩ := e
    cases checked with
    | false =>
      simp only [buildPatches, Outcome.map_ok_iff, ih]
      constructor
      · rintro ⟨_, ⟨hv, rfl⟩, rfl⟩
        exact ⟨by simpa using hv, by simp [DraftPatch.final]⟩
      · rintro ⟨hv, rfl⟩
        exact ⟨_, ⟨by simpa using hv, rfl⟩, by simp [DraftPatch.final]⟩
    | true =>
      rw [buildPatches]
      cases hp : patch.validate composite base with
      | error cause => simp [hp]
      | ok u =>
        simp only [Outcome.map_ok_iff, ih]
        constructor
        · rintro ⟨_, ⟨hv, rfl⟩, rfl⟩
          exact ⟨by simpa [hp] using hv, by simp [DraftPatch.final]⟩
        · rintro ⟨hv, rfl⟩
          exact ⟨_, ⟨fun e he => hv e (List.mem_cons_of_mem _ he), rfl⟩,
            by simp [DraftPatch.final]⟩

/-- The template of a resource whose patches are finished. -/
def template (r : ResourceDraft) : ComposedTemplate where
  name := r.name
  base := r.base.stamped
  patches := r.patches.map DraftPatch.final
  connectionDetails := r.connectionDetails
  readinessChecks := r.readinessChecks

theorem build_ok_iff {r : ResourceDraft} {composite : Side} {t : ComposedTemplate} :
    r.build composite = .ok t ↔
      (∃ registered, PathSet.parseAll r.allPaths = .ok registered ∧
        ∀ e ∈ r.patches, e.checked = true →
          e.patch.validate composite ⟨r.base, registered⟩ = .ok ()) ∧
      t = r.template := by
  unfold build
  split
  · rename_i path cause hp
    simp [hp]
  · rename_i registered hp
    simp only [Outcome.bind_ok_iff, buildPatches_ok_iff, hp, Except.ok.injEq, exists_eq_left']
    constructor
    · rintro ⟨_, ⟨hv, rfl⟩, ht⟩
      cases ht
      exact ⟨hv, rfl⟩
    · rintro ⟨hv, rfl⟩
      exact ⟨_, ⟨hv, rfl⟩, rfl⟩

theorem buildAll_ok_iff {composite : Side} {index : Nat} {drafts : List ResourceDraft}
    {templates : List ComposedTemplate} :
    buildAll composite index drafts = .ok templates ↔
      List.Forall₂ (fun r t => r.build composite = .ok t) drafts templates := by
  induction drafts generalizing index templates with
  | nil => exact ⟨fun h => by cases h; exact .nil, fun h => by cases h; rfl⟩
  | cons r rest ih =>
    rw [buildAll, List.forall₂_cons_left_iff]
    cases hr : r.build composite with
    | error cause => simp
    | ok t =>
      simp only [Outcome.map_ok_iff, ih, Except.ok.injEq]
      constructor
      · rintro ⟨ts, hts, rfl⟩
        exact ⟨t, ts, rfl, hts, rfl⟩
      · rintro ⟨_, ts, rfl, hts, rfl⟩
        exact ⟨ts, hts, rfl⟩

end ResourceDraft

namespace StepDraft

/-- A step that a draft leads to: it calls the function that the draft names. -/
structure Builds (s : StepDraft) (p : PipelineStep) : Prop where
  step : p.step = s.step
  functionRef : s.functionRef = some p.functionRef
  input : p.input = s.finalInput.2

theorem buildAll_ok_iff {index : Nat} {drafts : List StepDraft} {steps : List PipelineStep} :
    (buildAll index drafts).2 = .ok steps ↔ List.Forall₂ Builds drafts steps := by
  induction drafts generalizing index steps with
  | nil => exact ⟨fun h => by cases h; exact .nil, fun h => by cases h; rfl⟩
  | cons s rest ih =>
    rw [buildAll, List.forall₂_cons_left_iff]
    cases hf : s.functionRef with
    | none =>
      refine iff_of_false (nomatch ·) ?_
      rintro ⟨p, ps, hp, -, -⟩
      cases hf.symm.trans hp.functionRef
    | some functionRef =>
      simp only [Outcome.map_ok_iff, ih]
      constructor
      · rintro ⟨ps, hps, rfl⟩
        exact ⟨_, ps, ⟨rfl, hf, rfl⟩, hps, rfl⟩
      · rintro ⟨⟨step, ref, input⟩, ps, ⟨hs, hr, hi⟩, hps, rfl⟩
        cases hs
        cases hi
        cases hf.symm.trans hr
        exact ⟨ps, hps, rfl⟩

end StepDraft

namespace CompositionDraft

variable {d : CompositionDraft} {c : Composition}

theorem finalize_ok_iff :
    d.finalize.2 = .ok c ↔ d.name ≠ "" ∧
      ∃ resources pipeline, d.buildChildren.2 = .ok (resources, pipeline) ∧
        c = d.assemble resources pipeline := by
  unfold finalize
  by_cases hn : d.name = ""
  · simp [hn]
  · simp only [String.isEmpty_iff, hn, if_false, Outcome.map_ok_iff, Prod.exists, ne_eq,
      not_false_eq_true, true_and]
    simp only [eq_comm (a := c)]

/-- The children of a draft are of its mode only: a template for each resource, or a step for each
step, in their order. -/
theorem buildChildren_ok_iff {resources : List ComposedTemplate} {pipeline : List PipelineStep} :
    d.buildChildren.2 = .ok (resources, pipeline) ↔
      (d.finalMode = .resources ∧ d.steps = [] ∧ pipeline = [] ∧
        ∃ registered, PathSet.parseAll d.allPaths = .ok registered ∧
          List.Forall₂ (fun r t => r.build ⟨d.composite, registered⟩ = .ok t) d.resources
            resources) ∨
      (d.finalMode = .pipeline ∧ d.resources = [] ∧ resources = [] ∧
        List.Forall₂ StepDraft.Builds d.steps pipeline) := by
  unfold buildChildren
  cases hm : d.finalMode with
  | resources =>
    by_cases hs : d.steps = []
    · cases hp : PathSet.parseAll d.allPaths with
      | error e => simp [hs]
      | ok registered =>
        simpa [hs, Outcome.map_ok_iff, ResourceDraft.buildAll_ok_iff] using and_comm
    · simp [hs]
  | pipeline =>
    by_cases hr : d.resources = []
    · simpa [hr, Outcome.map_ok_iff, StepDraft.buildAll_ok_iff] using and_comm
    · simp [hr]

/-- The templates of a finalized draft are those of its resources, in their order; a draft that is
finalized as a pipeline has neither. -/
theorem resources_of_finalize (h : d.finalize.2 = .ok c) :
    (d.resources = [] ∧ c.spec.resources = []) ∨
      ∃ registered, PathSet.parseAll d.allPaths = .ok registered ∧
        List.Forall₂ (fun r t => r.build ⟨d.composite, registered⟩ = .ok t) d.resources
          c.spec.resources := by
  obtain ⟨-, resources, pipeline, hb, rfl⟩ := finalize_ok_iff.mp h
  rcases buildChildren_ok_iff.mp hb with ⟨-, -, -, hall⟩ | ⟨-, hr, hn, -⟩
  · exact Or.inr hall
  · exact Or.inl ⟨hr, hn⟩

theorem resources_eq_of_finalize (h : d.finalize.2 = .ok c) :
    c.spec.resources = d.resources.map ResourceDraft.template := by
  rcases resources_of_finalize h with ⟨hd, hc⟩ | ⟨registered, -, hall⟩
  · rw [hd, hc, List.map_nil]
  · rw [← List.forall₂_eq_eq_eq, List.forall₂_map_right_iff]
    exact (hall.imp fun _ _ hbuild => (ResourceDraft.build_ok_iff.mp hbuild).2).flip

theorem inputs_eq_of_finalize (h : d.finalize.2 = .ok c) :
    c.spec.pipeline.map (·.input) = d.steps.map (·.finalInput.2) := by
  obtain ⟨-, resources, pipeline, hb, rfl⟩ := finalize_ok_iff.mp h
  rcases buildChildren_ok_iff.mp hb with ⟨-, hnone, rfl, -⟩ | ⟨-, -, -, hall⟩
  · rw [hnone]
    rfl
  · rw [← List.forall₂_eq_eq_eq, List.forall₂_map_left_iff, List.forall₂_map_right_iff]
    exact (hall.imp fun _ _ hbuilds => hbuilds.input).flip

end CompositionDraft

end CompositionGen
