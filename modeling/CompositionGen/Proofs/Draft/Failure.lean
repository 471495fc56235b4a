import CompositionGen.Proofs.Draft.Finalization
import CompositionGen.Proofs.Draft.Soundness
import CompositionGen.Proofs.FieldPath.Matching
import Mathlib.Order.WellFounded

/-!
# Why drafts are refused

The causes for which a draft is refused, each stated by itself and in the order in which they are
reported. A draft is refused just where there is a cause, and what is reported is the first of them.
A composed resource is judged by itself: its siblings decide neither whether it is refused nor why.
-/

namespace CompositionGen

theorem FieldPath.not_unparsable_of_isOk {raws : List String}
    (h : ∀ raw ∈ raws, (parse raw).isOk = true) :
    ∀ raw ∈ raws, ∀ cause, ¬ Unparsable raw cause := by
  intro raw hraw cause hcause
  have hok := h raw hraw
  rw [show parse raw = .error cause from hcause] at hok
  cases hok

/-- The composition with the resources of another behind its own. -/
def Composition.append (first second : Composition) : Composition :=
  { first with
    spec := { first.spec with resources := first.spec.resources ++ second.spec.resources } }

/-- An error with resources counted behind so many others. -/
def BuildError.behind (count : Nat) : BuildError → BuildError
  | .composedTemplate i name cause => .composedTemplate (count + i) name cause
  | e => e

@[simp] theorem BuildError.behind_zero (e : BuildError) : e.behind 0 = e := by
  cases e <;> simp [behind]

theorem BuildError.behind_behind (m n : Nat) (e : BuildError) :
    (e.behind m).behind n = e.behind (n + m) := by
  cases e <;> simp [behind, Nat.add_assoc]

/-! ## Composed resources -/

/-- A patch that is to be checked and is found invalid. -/
def DraftPatch.Fails (composite base : Side) (e : DraftPatch) (cause : PatchError) : Prop :=
  e.checked = true ∧ e.patch.validate composite base = .error cause

namespace ResourceDraft

/-- Why a composed resource is refused: a registered text of its own is no path, or else, its texts
all being paths, a patch fails, counted among its checked and unchecked patches alike. -/
def Fails (r : ResourceDraft) (composite : Side) : TemplateError → Prop
  | .invalidRegisteredPath raw cause =>
    ∃ i, First FieldPath.Unparsable r.registeredPaths i raw cause
  | .invalidPatch i cause => ∃ own, PathSet.parseAll r.allPaths = .ok own ∧
    ∃ e, First (DraftPatch.Fails composite ⟨r.base, own⟩) r.patches i e cause

theorem buildPatches_error_iff {composite base : Side} {index : Nat} {entries : List DraftPatch}
    {error : TemplateError} :
    buildPatches composite base index entries = .error error ↔
      ∃ i e cause, First (DraftPatch.Fails composite base) entries i e cause ∧
        error = .invalidPatch (index + i) cause := by
  refine First.loop_error_iff (DraftPatch.Fails composite base)
    (fun (_ : Unit) => buildPatches composite base) (fun i _ cause => .invalidPatch i cause)
    (fun _ _ _ => nofun) ?_ ?_ (s := ())
  · rintro - index ⟨patch, _⟩ rest cause ⟨rfl, hv⟩
    rw [buildPatches, hv]
  · rintro - index ⟨patch, checked⟩ rest hpass
    refine ⟨(), fun error => ?_⟩
    cases checked with
    | false => rw [buildPatches, Outcome.map_error_iff]
    | true =>
      cases hv : patch.validate composite base with
      | error cause => exact absurd ⟨rfl, hv⟩ (hpass cause)
      | ok _ => rw [buildPatches, hv, Outcome.map_error_iff]

theorem known_parse : ∀ raw ∈ knownResourceAnnotations.map annotationPath, ∀ cause,
    ¬ FieldPath.Unparsable raw cause :=
  FieldPath.not_unparsable_of_isOk (by decide +kernel)

theorem parseAll_error_iff {r : ResourceDraft} {raw : String} {cause : ParseError} :
    PathSet.parseAll r.allPaths = .error (raw, cause) ↔
      ∃ i, First FieldPath.Unparsable r.registeredPaths i raw cause := by
  simp only [PathSet.parseAll_error_iff, allPaths, First.append_iff known_parse]

theorem build_error_iff {r : ResourceDraft} {composite : Side} {error : TemplateError} :
    r.build composite = .error error ↔ r.Fails composite error := by
  unfold build
  cases hp : PathSet.parseAll r.allPaths with
  | error e =>
    cases error with
    | invalidRegisteredPath raw cause =>
      rw [Fails, ← parseAll_error_iff, hp]
      simp [Prod.ext_iff]
    | invalidPatch i cause => simp [Fails, hp]
  | ok own =>
    -- The texts are read, so that only a patch can be at fault.
    simp only [Outcome.bind_error_iff, buildPatches_error_iff, Nat.zero_add]
    cases error with
    | invalidRegisteredPath raw cause =>
      rw [Fails, ← parseAll_error_iff, hp]
      simp [pure, Except.pure]
    | invalidPatch i cause => simp [Fails, hp, pure, Except.pure]

theorem buildAll_error_iff {composite : Side} {index : Nat} {drafts : List ResourceDraft}
    {error : BuildError} :
    buildAll composite index drafts = .error error ↔
      ∃ i r cause, First (fun r => Fails r composite) drafts i r cause ∧
        error = .composedTemplate (index + i) r.name cause := by
  refine First.loop_error_iff (fun r => Fails r composite) (fun (_ : Unit) => buildAll composite)
    (fun i r cause => .composedTemplate i r.name cause) (fun _ _ _ => nofun) ?_ ?_ (s := ())
  · intro _ index r rest cause hr
    rw [buildAll, build_error_iff.mpr hr]
  · intro _ index r rest hpass
    refine ⟨(), fun error => ?_⟩
    cases hr : r.build composite with
    | error cause => exact absurd (build_error_iff.mp hr) (hpass cause)
    | ok t => rw [buildAll, hr, Outcome.map_error_iff]

theorem buildAll_succ (composite : Side) (index : Nat) (drafts : List ResourceDraft) :
    buildAll composite (index + 1) drafts =
      (buildAll composite index drafts).mapError (·.behind 1) := by
  induction drafts generalizing index with
  | nil => rfl
  | cons r rest ih =>
    rw [buildAll, buildAll]
    cases r.build composite with
    | error cause => simp [Except.mapError, BuildError.behind, Nat.add_comm]
    | ok t =>
      simp only [ih]
      cases buildAll composite index rest <;> rfl

/-- Resources that follow others are built where these are, and counted behind them. -/
theorem buildAll_append {composite : Side} {index : Nat} {front back : List ResourceDraft} :
    buildAll composite index (front ++ back) =
      (buildAll composite index front).bind fun first =>
        ((buildAll composite index back).mapError (·.behind front.length)).map (first ++ ·) := by
  induction front generalizing index with
  | nil =>
    show buildAll composite index back = _
    cases buildAll composite index back with
    | error e => simp [buildAll, Except.bind, Except.mapError, Except.map]
    | ok us => rfl
  | cons r rest ih =>
    rw [List.cons_append, buildAll, buildAll]
    cases r.build composite with
    | error cause => rfl
    | ok t =>
      simp only [ih]
      -- The second part stands one place further than the induction hypothesis has it.
      rw [buildAll_succ composite index back]
      cases buildAll composite (index + 1) rest with
      | error e => rfl
      | ok ts =>
        cases buildAll composite index back with
        | error e => simp [Except.bind, Except.map, Except.mapError, BuildError.behind_behind]
        | ok us => rfl

end ResourceDraft

/-! ## Pipeline steps -/

namespace StepDraft

/-- A step that names no function is refused under its own name. -/
def Fails (s : StepDraft) (step : String) : Prop := s.functionRef = none ∧ step = s.step

theorem buildAll_error_iff {index : Nat} {drafts : List StepDraft} {error : BuildError} :
    (buildAll index drafts).2 = .error error ↔
      ∃ i s step, First Fails drafts i s step ∧ error = .missingFunctionRef (index + i) step := by
  refine First.loop_error_iff Fails (fun (_ : Unit) index drafts => (buildAll index drafts).2)
    (fun i _ step => .missingFunctionRef i step) (fun _ _ _ => nofun) ?_ ?_ (s := ())
  · rintro - index s rest step ⟨hs, rfl⟩
    rw [buildAll, hs]
  · intro _ index s rest hpass
    refine ⟨(), fun error => ?_⟩
    cases hs : s.functionRef with
    | none => exact absurd ⟨hs, rfl⟩ (hpass s.step)
    | some functionRef =>
      rw [buildAll, hs]
      exact Outcome.map_error_iff

end StepDraft

/-! ## Compositions -/

/-- The place of an error in the order in which they are reported. -/
def BuildError.rank : BuildError → Nat
  | .emptyName => 0
  | .pipelineStepsInResourcesMode _ => 1
  | .invalidRegisteredPath .. => 2
  | .composedTemplate .. => 3
  | .resourcesInPipelineMode _ => 4
  | .missingFunctionRef .. => 5

namespace CompositionDraft

variable {d : CompositionDraft} {e : BuildError}

/-- What an error says is so, whatever else is wrong with the draft. A draft that no mode is set on
counts as one of resources. -/
def Cause (d : CompositionDraft) : BuildError → Prop
  | .emptyName => d.name = ""
  | .pipelineStepsInResourcesMode count =>
    d.mode ≠ some .pipeline ∧ d.steps ≠ [] ∧ count = d.steps.length
  | .invalidRegisteredPath raw cause =>
    d.mode ≠ some .pipeline ∧ ∃ i, First FieldPath.Unparsable d.registeredPaths i raw cause
  | .composedTemplate i name cause =>
    d.mode ≠ some .pipeline ∧ ∃ shared, PathSet.parseAll d.allPaths = .ok shared ∧
      ∃ r, First (fun r => ResourceDraft.Fails r ⟨d.composite, shared⟩) d.resources i r cause ∧
        name = r.name
  | .resourcesInPipelineMode count =>
    d.mode = some .pipeline ∧ d.resources ≠ [] ∧ count = d.resources.length
  | .missingFunctionRef i step =>
    d.mode = some .pipeline ∧ ∃ s, First StepDraft.Fails d.steps i s step

theorem known_parse : ∀ raw ∈ knownCompositeLabels.map labelPath, ∀ cause,
    ¬ FieldPath.Unparsable raw cause :=
  FieldPath.not_unparsable_of_isOk (by decide +kernel)

theorem parseAll_error_iff {raw : String} {cause : ParseError} :
    PathSet.parseAll d.allPaths = .error (raw, cause) ↔
      ∃ i, First FieldPath.Unparsable d.registeredPaths i raw cause := by
  simp only [PathSet.parseAll_error_iff, allPaths, First.append_iff known_parse]

theorem finalMode_eq_pipeline_iff : d.finalMode = .pipeline ↔ d.mode = some .pipeline := by
  rcases hm : d.mode with _ | ⟨_ | _⟩ <;> simp [finalMode, hm]

theorem finalMode_eq_resources_iff : d.finalMode = .resources ↔ d.mode ≠ some .pipeline := by
  rcases hm : d.mode with _ | ⟨_ | _⟩ <;> simp [finalMode, hm]

theorem finalize_error_iff :
    d.finalize.2 = .error e ↔
      d.name = "" ∧ e = .emptyName ∨ d.name ≠ "" ∧ d.buildChildren.2 = .error e := by
  unfold finalize
  by_cases hn : d.name = ""
  · simpa [hn] using eq_comm
  · simp [hn, Outcome.map_error_iff]

theorem buildChildren_resources_error_iff (hm : d.mode ≠ some .pipeline) :
    d.buildChildren.2 = .error e ↔
      d.steps ≠ [] ∧ e = .pipelineStepsInResourcesMode d.steps.length ∨
      d.steps = [] ∧
        ((∃ raw cause, PathSet.parseAll d.allPaths = .error (raw, cause) ∧
          e = .invalidRegisteredPath raw cause) ∨
        ∃ shared, PathSet.parseAll d.allPaths = .ok shared ∧
          ResourceDraft.buildAll ⟨d.composite, shared⟩ 0 d.resources = .error e) := by
  rw [buildChildren, finalMode_eq_resources_iff.mpr hm]
  by_cases hs : d.steps = []
  · cases hp : PathSet.parseAll d.allPaths with
    | error failure => simp [hs, Prod.ext_iff, eq_comm (a := e)]
    | ok shared => simp [hs, Outcome.map_error_iff]
  · simp [hs, eq_comm (a := e)]

theorem buildChildren_pipeline_error_iff (hm : d.mode = some .pipeline) :
    d.buildChildren.2 = .error e ↔
      d.resources ≠ [] ∧ e = .resourcesInPipelineMode d.resources.length ∨
      d.resources = [] ∧ (StepDraft.buildAll 0 d.steps).2 = .error e := by
  rw [buildChildren, finalMode_eq_pipeline_iff.mpr hm]
  by_cases hr : d.resources = []
  · simp [hr, Outcome.map_error_iff]
  · simp [hr, eq_comm (a := e)]

/-- What is reported is so, and nothing that comes before it is. -/
theorem cause_of_finalize (h : d.finalize.2 = .error e) :
    d.Cause e ∧ ∀ e', d.Cause e' → e.rank ≤ e'.rank := by
  rcases finalize_error_iff.mp h with ⟨hn, rfl⟩ | ⟨hn, hb⟩
  · exact ⟨hn, fun _ _ => Nat.zero_le _⟩
  -- Each case refutes the causes of a lower rank: the guards before the report rule them out.
  by_cases hm : d.mode = some .pipeline
  · rcases (buildChildren_pipeline_error_iff hm).mp hb with ⟨hr, rfl⟩ | ⟨hr, hb⟩
    · refine ⟨⟨hm, hr, rfl⟩, fun e' he' => ?_⟩
      cases e' <;> simp_all [Cause, BuildError.rank]
    · obtain ⟨i, s, step, hs, rfl⟩ := StepDraft.buildAll_error_iff.mp hb
      refine ⟨⟨hm, s, by simpa using hs⟩, fun e' he' => ?_⟩
      cases e' <;> simp_all [Cause, BuildError.rank]
  · rcases (buildChildren_resources_error_iff hm).mp hb with
      ⟨hs, rfl⟩ | ⟨hs, ⟨raw, cause, hp, rfl⟩ | ⟨shared, hp, hb⟩⟩
    · refine ⟨⟨hm, hs, rfl⟩, fun e' he' => ?_⟩
      cases e' <;> simp_all [Cause, BuildError.rank]
    · refine ⟨⟨hm, parseAll_error_iff.mp hp⟩, fun e' he' => ?_⟩
      cases e' <;> simp_all [Cause, BuildError.rank]
    · obtain ⟨i, r, cause, hr, rfl⟩ := ResourceDraft.buildAll_error_iff.mp hb
      refine ⟨⟨hm, shared, hp, r, by simpa using hr, rfl⟩, fun e' he' => ?_⟩
      cases e' <;> simp_all [Cause, BuildError.rank, ← parseAll_error_iff]

theorem name_ne_of_least (least : ∀ e', d.Cause e' → e.rank ≤ e'.rank) (h : 0 < e.rank) :
    d.name ≠ "" := fun hn => Nat.not_le.mpr h (least .emptyName hn)

theorem steps_eq_nil_of_least (least : ∀ e', d.Cause e' → e.rank ≤ e'.rank) (h : 1 < e.rank)
    (hm : d.mode ≠ some .pipeline) : d.steps = [] := by
  by_contra hs
  have hcause : d.Cause (.pipelineStepsInResourcesMode d.steps.length) := ⟨hm, hs, rfl⟩
  exact Nat.not_le.mpr h (least _ hcause)

theorem resources_eq_nil_of_least (least : ∀ e', d.Cause e' → e.rank ≤ e'.rank) (h : 4 < e.rank)
    (hm : d.mode = some .pipeline) : d.resources = [] := by
  by_contra hr
  have hcause : d.Cause (.resourcesInPipelineMode d.resources.length) := ⟨hm, hr, rfl⟩
  exact Nat.not_le.mpr h (least _ hcause)

/-- A cause that none comes before is reported. -/
theorem finalize_of_cause (h : d.Cause e) (least : ∀ e', d.Cause e' → e.rank ≤ e'.rank) :
    d.finalize.2 = .error e := by
  rw [finalize_error_iff]
  -- That no cause comes before this one is what each earlier check needs to pass.
  cases e with
  | emptyName => exact Or.inl ⟨h, rfl⟩
  | pipelineStepsInResourcesMode count =>
    obtain ⟨hm, hs, rfl⟩ := h
    refine Or.inr ⟨name_ne_of_least least (by simp [BuildError.rank]), ?_⟩
    exact (buildChildren_resources_error_iff hm).mpr (Or.inl ⟨hs, rfl⟩)
  | invalidRegisteredPath raw cause =>
    obtain ⟨hm, hfirst⟩ := h
    have hs := steps_eq_nil_of_least least (by simp [BuildError.rank]) hm
    refine Or.inr ⟨name_ne_of_least least (by simp [BuildError.rank]), ?_⟩
    exact (buildChildren_resources_error_iff hm).mpr
      (Or.inr ⟨hs, Or.inl ⟨raw, cause, parseAll_error_iff.mpr hfirst, rfl⟩⟩)
  | composedTemplate i name cause =>
    obtain ⟨hm, shared, hp, r, hfirst, rfl⟩ := h
    have hs := steps_eq_nil_of_least least (by simp [BuildError.rank]) hm
    refine Or.inr ⟨name_ne_of_least least (by simp [BuildError.rank]), ?_⟩
    refine (buildChildren_resources_error_iff hm).mpr (Or.inr ⟨hs, Or.inr ⟨shared, hp, ?_⟩⟩)
    exact ResourceDraft.buildAll_error_iff.mpr ⟨i, r, cause, hfirst, by rw [Nat.zero_add]⟩
  | resourcesInPipelineMode count =>
    obtain ⟨hm, hr, rfl⟩ := h
    refine Or.inr ⟨name_ne_of_least least (by simp [BuildError.rank]), ?_⟩
    exact (buildChildren_pipeline_error_iff hm).mpr (Or.inl ⟨hr, rfl⟩)
  | missingFunctionRef i step =>
    obtain ⟨hm, s, hfirst⟩ := h
    have hr := resources_eq_nil_of_least least (by simp [BuildError.rank]) hm
    refine Or.inr ⟨name_ne_of_least least (by simp [BuildError.rank]), ?_⟩
    refine (buildChildren_pipeline_error_iff hm).mpr (Or.inr ⟨hr, ?_⟩)
    exact StepDraft.buildAll_error_iff.mpr ⟨i, s, step, hfirst, by rw [Nat.zero_add]⟩

/-! ## Resources by themselves -/

/-- The draft with other resources. -/
def withResources (d : CompositionDraft) (resources : List ResourceDraft) : CompositionDraft :=
  { d with resources }

theorem finalize_template_error_iff {i : Nat} {name : Option String} {cause : TemplateError} :
    d.finalize.2 = .error (.composedTemplate i name cause) ↔
      d.name ≠ "" ∧ d.mode ≠ some .pipeline ∧ d.steps = [] ∧
        ∃ shared, PathSet.parseAll d.allPaths = .ok shared ∧
          ∃ r, First (fun r => ResourceDraft.Fails r ⟨d.composite, shared⟩) d.resources i r cause ∧
            name = r.name := by
  constructor
  · intro h
    obtain ⟨⟨hm, hfails⟩, least⟩ := cause_of_finalize h
    have hn := name_ne_of_least least (by simp [BuildError.rank])
    have hs := steps_eq_nil_of_least least (by simp [BuildError.rank]) hm
    exact ⟨hn, hm, hs, hfails⟩
  · rintro ⟨hn, hm, hs, shared, hp, hfails⟩
    refine finalize_of_cause ⟨hm, shared, hp, hfails⟩ fun e' he' => ?_
    cases e' <;> simp_all [Cause, BuildError.rank, ← parseAll_error_iff]

/-- A draft of a single resource, for a composite with registered paths. -/
def single (composite : ObjectRef) (registeredPaths : List String) (r : ResourceDraft) :
    CompositionDraft :=
  { composite, name := "single", registeredPaths, resources := [r] }

theorem finalize_single_iff {composite : ObjectRef} {paths : List String} {r : ResourceDraft}
    {cause : TemplateError} :
    (single composite paths r).finalize.2 = .error (.composedTemplate 0 r.name cause) ↔
      ∃ shared, PathSet.parseAll (single composite paths r).allPaths = .ok shared ∧
        r.Fails ⟨composite, shared⟩ cause := by
  rw [finalize_template_error_iff]
  constructor
  · rintro ⟨-, -, -, shared, hp, r', hfirst, -⟩
    obtain ⟨-, rfl, hr⟩ := First.singleton_iff.mp hfirst
    exact ⟨shared, hp, hr⟩
  · rintro ⟨shared, hp, hr⟩
    refine ⟨by simp [single], nofun, rfl, shared, hp, r, ?_, rfl⟩
    exact First.singleton_iff.mpr ⟨rfl, rfl, hr⟩

/-- The resource that a draft is refused for is the first that fails by itself: what else is in the
draft, its siblings above all, has no say in whether it fails, nor in why. -/
theorem finalize_template_error_iff_single {i : Nat} {name : Option String}
    {cause : TemplateError} :
    d.finalize.2 = .error (.composedTemplate i name cause) ↔
      d.name ≠ "" ∧ d.mode ≠ some .pipeline ∧ d.steps = [] ∧
        ∃ r, First (fun r cause => (single d.composite d.registeredPaths r).finalize.2 =
          .error (.composedTemplate 0 r.name cause)) d.resources i r cause ∧ name = r.name := by
  rw [finalize_template_error_iff]
  simp only [finalize_single_iff]
  refine and_congr_right fun _ => and_congr_right fun _ => and_congr_right fun _ => ?_
  -- Alone or not, a resource is held against the same registered paths of the composite.
  have hpaths : ∀ r, (single d.composite d.registeredPaths r).allPaths = d.allPaths := fun _ => rfl
  constructor
  · rintro ⟨shared, hp, r, hfirst, rfl⟩
    exact ⟨r, hfirst.congr fun r cause => by simp [hpaths, hp], rfl⟩
  · rintro ⟨r, hfirst, rfl⟩
    obtain ⟨shared, hp, -⟩ := hfirst.fault
    rw [hpaths] at hp
    exact ⟨shared, hp, r, hfirst.congr fun r cause => by simp [hpaths, hp], rfl⟩

/-- Where nothing else is wrong with a draft of resources, building these decides. -/
theorem finalize_eq_of_passing {shared : PathSet} (hn : d.name ≠ "")
    (hm : d.mode ≠ some .pipeline) (hs : d.steps = [])
    (hp : PathSet.parseAll d.allPaths = .ok shared) :
    d.finalize.2 =
      (ResourceDraft.buildAll ⟨d.composite, shared⟩ 0 d.resources).map (d.assemble · []) := by
  unfold finalize buildChildren
  rw [finalMode_eq_resources_iff.mpr hm, hp]
  simp only [String.isEmpty_iff, hn, hs, if_false, List.isEmpty_nil, Bool.not_true,
    Bool.false_eq_true]
  cases ResourceDraft.buildAll ⟨d.composite, shared⟩ 0 d.resources <;> rfl

/-- Whatever its resources are, a draft of resources is refused for a cause that does not lie in
them, or its outcome is that of building them. -/
theorem finalize_withResources (hm : d.mode ≠ some .pipeline) :
    (∃ e, ∀ resources, (d.withResources resources).finalize.2 = .error e) ∨
      ∃ shared, ∀ resources, (d.withResources resources).finalize.2 =
        (ResourceDraft.buildAll ⟨d.composite, shared⟩ 0 resources).map (d.assemble · []) := by
  by_cases hn : d.name = ""
  · exact Or.inl ⟨.emptyName, fun rs => finalize_error_iff.mpr (Or.inl ⟨hn, rfl⟩)⟩
  by_cases hs : d.steps = []
  · cases hp : PathSet.parseAll d.allPaths with
    | error failure =>
      refine Or.inl ⟨.invalidRegisteredPath failure.1 failure.2, fun rs => ?_⟩
      exact finalize_error_iff.mpr (Or.inr ⟨hn,
        (buildChildren_resources_error_iff (d := d.withResources rs) hm).mpr
          (Or.inr ⟨hs, Or.inl ⟨failure.1, failure.2, hp, rfl⟩⟩)⟩)
    | ok shared =>
      refine Or.inr ⟨shared, fun rs => ?_⟩
      exact finalize_eq_of_passing (d := d.withResources rs) hn hm hs hp
  · refine Or.inl ⟨.pipelineStepsInResourcesMode d.steps.length, fun rs => ?_⟩
    exact finalize_error_iff.mpr (Or.inr ⟨hn,
      (buildChildren_resources_error_iff (d := d.withResources rs) hm).mpr (Or.inl ⟨hs, rfl⟩)⟩)

/-- Resources in two parts are judged part by part. -/
theorem finalize_append (hm : d.mode ≠ some .pipeline) (front back : List ResourceDraft) :
    (d.withResources (front ++ back)).finalize.2 =
      (d.withResources front).finalize.2.bind fun first =>
        ((d.withResources back).finalize.2.mapError (·.behind front.length)).map first.append := by
  rcases finalize_withResources hm with ⟨e, he⟩ | ⟨shared, hb⟩
  · rw [he, he]
    rfl
  · rw [hb, hb, hb, ResourceDraft.buildAll_append]
    cases ResourceDraft.buildAll ⟨d.composite, shared⟩ 0 front with
    | error e => rfl
    | ok ts => cases ResourceDraft.buildAll ⟨d.composite, shared⟩ 0 back <;> rfl

/-- A draft is refused just where there is a cause, for the first of its causes. A resource fails
for its own registered texts or its own patches only, by itself as among its siblings, so that
resources in two parts are judged part by part. -/
theorem finalize_first_cause (d : CompositionDraft) :
    ((∃ e, d.finalize.2 = .error e) ↔ ∃ e, d.Cause e) ∧
    (∀ e, d.finalize.2 = .error e ↔ d.Cause e ∧ ∀ e', d.Cause e' → e.rank ≤ e'.rank) ∧
    (∀ (r : ResourceDraft) (composite : Side) (error : TemplateError),
      r.build composite = .error error ↔ r.Fails composite error) ∧
    (∀ i name cause, d.finalize.2 = .error (.composedTemplate i name cause) ↔
      d.name ≠ "" ∧ d.mode ≠ some .pipeline ∧ d.steps = [] ∧
        ∃ r, First (fun r cause => (single d.composite d.registeredPaths r).finalize.2 =
          .error (.composedTemplate 0 r.name cause)) d.resources i r cause ∧ name = r.name) ∧
    (d.mode ≠ some .pipeline → ∀ front back,
      (d.withResources (front ++ back)).finalize.2 =
        (d.withResources front).finalize.2.bind fun first =>
          ((d.withResources back).finalize.2.mapError (·.behind front.length)).map
            first.append) := by
  have hreports : ∀ e, d.finalize.2 = .error e ↔
      d.Cause e ∧ ∀ e', d.Cause e' → e.rank ≤ e'.rank := fun e =>
    ⟨cause_of_finalize, fun h => finalize_of_cause h.1 h.2⟩
  refine ⟨⟨?_, ?_⟩, hreports, fun _ _ _ => ResourceDraft.build_error_iff,
    fun _ _ _ => finalize_template_error_iff_single, finalize_append⟩
  · rintro ⟨e, he⟩
    exact ⟨e, (cause_of_finalize he).1⟩
  · -- Among the causes there is one of the least rank, and this one is reported.
    intro hcause
    obtain ⟨e, he, least⟩ := WellFounded.has_min (measure BuildError.rank).wf {e | d.Cause e} hcause
    exact ⟨e, finalize_of_cause he fun e' he' => Nat.not_lt.mp (least e' he')⟩

/-! A sound resource before one with two faulty patches, of which only the second is checked, and
one whose registered text is no path. -/

def faultyDraft : CompositionDraft where
  composite := sampleComposite
  name := "faulty"
  registeredPaths := ["status.note"]

def faultyResources : List ResourceDraft := [
  { base := sampleBase, name := some "broken",
    patches := [⟨.simple "nowhere" "nothing", false⟩, ⟨.simple "nowhere" "nothing", true⟩] },
  { base := sampleBase, registeredPaths := ["data["] }]

theorem finalize_faultyDraft :
    faultyDraft.mode ≠ some .pipeline ∧
      (faultyDraft.withResources ([{ base := sampleBase }] ++ faultyResources)).finalize.2 =
        .error (.composedTemplate 1 (some "broken") (.invalidPatch 1
          (.fromFieldPath (.unresolved "nowhere" "example.org/v1/XThing")))) := by
  refine ⟨by decide, ?_⟩
  rw [(finalize_first_cause faultyDraft).2.2.2.2 (by decide)]
  decide +kernel

end CompositionDraft

end CompositionGen
