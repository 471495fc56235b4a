import CompositionGen.Proofs.Draft.Faithfulness

/-!
# The order of calls on a draft

Every call is about one part of a draft. Calls on different parts commute, because none looks at
what the others leave: a draft is judged when it is finalized and not before. So only the order of
the calls on the same part counts, on a composition as on the resources and steps that it has.
-/

namespace CompositionGen

/-! ## Parts of drafts -/

/-- What of a resource a call is about. Checked and unchecked patches stand in one list, and so do
all registered texts. -/
inductive ResourceCall.Part where
  | name
  | patches
  | connectionDetails
  | readinessChecks
  | registeredPaths
  deriving DecidableEq

def ResourceCall.part : ResourceCall → Part
  | .withName _ => .name
  | .withPatches _ | .withUnsafePatches _ => .patches
  | .withConnectionDetails _ => .connectionDetails
  | .withReadinessChecks _ => .readinessChecks
  | .registerFieldPaths _ | .registerLabels _ | .registerAnnotations _ => .registeredPaths

/-- What of a step a call is about. -/
inductive StepCall.Part where
  | functionRef
  | input
  | patches
  | merging
  deriving DecidableEq

def StepCall.part : StepCall → Part
  | .withFunctionRef _ => .functionRef
  | .withInput _ => .input
  | .withPatch _ _ | .withPatches _ _ => .patches
  | .mergePatchesIntoInput _ => .merging

/-- What of a composition a call is about. -/
inductive DraftCall.Part where
  | name
  | labels
  | annotations
  | mode
  | secretsNamespace
  | storeConfig
  | registeredPaths
  | resources
  | steps
  deriving DecidableEq

def DraftCall.part : DraftCall → Part
  | .withName _ => .name
  | .withLabels _ => .labels
  | .withAnnotations _ => .annotations
  | .withMode _ => .mode
  | .withWriteConnectionSecretsToNamespace _ => .secretsNamespace
  | .withPublishConnectionDetailsWithStoreConfig _ => .storeConfig
  | .registerCompositeFieldPaths _ | .registerCompositeLabels _
  | .registerCompositeAnnotations _ => .registeredPaths
  | .newResource _ _ => .resources
  | .newPipelineStep _ _ => .steps

/-! ## Sequences of calls that differ in their order only -/

/-- Two sequences of calls on a resource that are about each part the same calls in the same
order. -/
def ResourceCall.SameByPart (calls calls' : List ResourceCall) : Prop :=
  ∀ part, calls.filter (·.part = part) = calls'.filter (·.part = part)

/-- Two sequences of calls on a step that are about each part the same calls in the same order. -/
def StepCall.SameByPart (calls calls' : List StepCall) : Prop :=
  ∀ part, calls.filter (·.part = part) = calls'.filter (·.part = part)

/-- Two calls on a composition that are the same but for the order of the calls that follow on the
resource or the step which they add. -/
inductive DraftCall.Same : DraftCall → DraftCall → Prop where
  | refl (call : DraftCall) : Same call call
  | newResource (base : ObjectRef) {own own' : List ResourceCall}
    (calls : ResourceCall.SameByPart own own') :
    Same (.newResource base own) (.newResource base own')
  | newPipelineStep (step : String) {own own' : List StepCall}
    (calls : StepCall.SameByPart own own') :
    Same (.newPipelineStep step own) (.newPipelineStep step own')

/-- Two sequences of calls on a composition that are about each part the same calls in the same
order. -/
def DraftCall.SameByPart (calls calls' : List DraftCall) : Prop :=
  ∀ part, List.Forall₂ DraftCall.Same (calls.filter (·.part = part))
    (calls'.filter (·.part = part))

/-! ## Calls on different parts -/

theorem ResourceDraft.apply_comm (r : ResourceDraft) {a b : ResourceCall} (h : a.part ≠ b.part) :
    (r.apply a).apply b = (r.apply b).apply a := by
  cases a <;> cases b <;> first | rfl | exact absurd rfl h

theorem StepDraft.apply_comm (s : StepDraft) {a b : StepCall} (h : a.part ≠ b.part) :
    (s.apply a).apply b = (s.apply b).apply a := by
  cases a <;> cases b <;> first | rfl | exact absurd rfl h

theorem CompositionDraft.apply_comm (d : CompositionDraft) {a b : DraftCall}
    (h : a.part ≠ b.part) : (d.apply a).apply b = (d.apply b).apply a := by
  cases a <;> cases b <;> first | rfl | exact absurd rfl h

/-! ## Whole sequences -/

theorem ResourceDraft.applyAll_eq_of_sameByPart {calls calls' : List ResourceCall}
    (h : ResourceCall.SameByPart calls calls') (r : ResourceDraft) :
    r.applyAll calls = r.applyAll calls' :=
  foldl_eq_of_filter_eq ResourceCall.part (fun r _ _ => r.apply_comm) h r

theorem StepDraft.applyAll_eq_of_sameByPart {calls calls' : List StepCall}
    (h : StepCall.SameByPart calls calls') (s : StepDraft) :
    s.applyAll calls = s.applyAll calls' :=
  foldl_eq_of_filter_eq StepCall.part (fun s _ _ => s.apply_comm) h s

theorem CompositionDraft.apply_eq_of_same {a b : DraftCall} (h : a.Same b) (d : CompositionDraft) :
    d.apply a = d.apply b := by
  cases h with
  | refl => rfl
  | newResource base calls =>
    rw [apply, apply, ResourceDraft.applyAll_eq_of_sameByPart calls]
  | newPipelineStep step calls =>
    rw [apply, apply, StepDraft.applyAll_eq_of_sameByPart calls]

theorem CompositionDraft.applyAll_eq_of_sameByPart {calls calls' : List DraftCall}
    (h : DraftCall.SameByPart calls calls') (d : CompositionDraft) :
    d.applyAll calls = d.applyAll calls' :=
  foldl_eq_of_forall₂_filter DraftCall.part DraftCall.Same (fun d _ _ => d.apply_comm)
    (fun d _ _ hc => apply_eq_of_same hc d) h d

namespace DraftCall

theorem Same.part_eq {a b : DraftCall} (h : a.Same b) : a.part = b.part := by
  cases h <;> rfl

namespace SameByPart

variable {a b : DraftCall}

theorem refl (calls : List DraftCall) : SameByPart calls calls :=
  fun _ => List.forall₂_same.mpr fun call _ => .refl call

theorem swap (h : a.part ≠ b.part) (before after : List DraftCall) :
    SameByPart (before ++ a :: b :: after) (before ++ b :: a :: after) := by
  intro part
  rw [filter_swap DraftCall.part h]
  exact refl _ part

theorem replace (h : a.Same b) (before after : List DraftCall) :
    SameByPart (before ++ a :: after) (before ++ b :: after) := by
  intro part
  rw [List.filter_append, List.filter_append]
  refine List.rel_append (refl before part) ?_
  by_cases ha : a.part = part
  · have hb : b.part = part := h.part_eq.symm.trans ha
    rw [List.filter_cons_of_pos (by simpa using ha), List.filter_cons_of_pos (by simpa using hb)]
    exact .cons h (refl after part)
  · have hb : b.part ≠ part := fun hb => ha (h.part_eq.trans hb)
    rw [List.filter_cons_of_neg (by simpa using ha), List.filter_cons_of_neg (by simpa using hb)]
    exact refl after part

end SameByPart

end DraftCall

namespace CompositionDraft

/-- Calls on different parts commute. Two sequences of calls that are about each part of the
composition, and of each resource and step which they add, the same calls in the same order lead to
the same composition or to the same error. So neighbours that are about different parts may change
places, whether they are calls on the composition, on a resource or on a step: a path may be
registered after the patch that needs it, and a mode or a name may be set after all else. -/
theorem finalize_reordered (d : CompositionDraft) :
    (∀ calls calls', DraftCall.SameByPart calls calls' →
      (d.applyAll calls).finalize = (d.applyAll calls').finalize) ∧
    (∀ before a b after, a.part ≠ b.part →
      (d.applyAll (before ++ a :: b :: after)).finalize =
        (d.applyAll (before ++ b :: a :: after)).finalize) ∧
    (∀ before base front x y back after, x.part ≠ y.part →
      (d.applyAll (before ++ .newResource base (front ++ x :: y :: back) :: after)).finalize =
        (d.applyAll (before ++ .newResource base (front ++ y :: x :: back) :: after)).finalize) ∧
    (∀ before step front x y back after, x.part ≠ y.part →
      (d.applyAll (before ++ .newPipelineStep step (front ++ x :: y :: back) :: after)).finalize =
        (d.applyAll
          (before ++ .newPipelineStep step (front ++ y :: x :: back) :: after)).finalize) := by
  have reordered (calls calls' : List DraftCall) (h : DraftCall.SameByPart calls calls') :
      (d.applyAll calls).finalize = (d.applyAll calls').finalize := by
    rw [d.applyAll_eq_of_sameByPart h]
  refine ⟨reordered, ?_, ?_, ?_⟩
  · intro before a b after h
    exact reordered _ _ (.swap h before after)
  · intro before base front x y back after h
    have hown : ResourceCall.SameByPart (front ++ x :: y :: back) (front ++ y :: x :: back) :=
      filter_swap ResourceCall.part h front back
    exact reordered _ _ (.replace (.newResource base hown) before after)
  · intro before step front x y back after h
    have hown : StepCall.SameByPart (front ++ x :: y :: back) (front ++ y :: x :: back) :=
      filter_swap StepCall.part h front back
    exact reordered _ _ (.replace (.newPipelineStep step hown) before after)

/-! The same draft as that of `layeredCalls`: children come first, and paths before patches. -/

def rearrangedCalls : List DraftCall := [
  .newResource sampleBase [
    .registerFieldPaths ["data.size", "data.copy"],
    .withName "first",
    .withName "main",
    .withPatches [.simple "spec.size" "data[size]"],
    .withUnsafePatches [.simple "nowhere" "nothing"],
    .withPatches [{ Patch.simple "spec.size" "data.copy" with type := some (.other "") }]],
  .newResource sampleBase [],
  .withLabels [("tier", "low"), ("team", "storage")],
  .withLabels [("tier", "high")],
  .withName "outline",
  .withName "sample",
  .withMode .pipeline,
  .withMode .resources]

theorem sameByPart_rearrangedCalls : DraftCall.SameByPart layeredCalls rearrangedCalls := by
  intro part
  cases part with
  | resources =>
    refine .cons (.newResource sampleBase ?_) (.cons (.refl _) .nil)
    intro part
    cases part <;> rfl
  | _ => exact List.forall₂_same.mpr fun call _ => .refl call

theorem finalize_rearrangedCalls :
    ((new sampleComposite).applyAll rearrangedCalls).finalize =
      ((new sampleComposite).applyAll layeredCalls).finalize ∧
    ((new sampleComposite).applyAll rearrangedCalls).finalize.2.isOk = true := by
  obtain ⟨reordered, -⟩ := finalize_reordered (new sampleComposite)
  exact ⟨(reordered _ _ sameByPart_rearrangedCalls).symm, by decide +kernel⟩

end CompositionDraft

end CompositionGen
