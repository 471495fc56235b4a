import CompositionGen.Proofs.Draft.Calls
import CompositionGen.Proofs.Draft.Finalization
import CompositionGen.Proofs.Draft.Soundness

/-!
# Unchecked patches

What an unchecked patch says decides nothing. Two drafts that are equal but for what their
unchecked patches say are refused for the same cause, or lead to compositions that are equal but
for these patches, each of which is written as it was given.
-/

namespace CompositionGen

open Outcome (Agree)

/-! ## Drafts that are alike -/

/-- Two patches of which unchecked ones may say different things. -/
inductive DraftPatch.Alike : DraftPatch → DraftPatch → Prop where
  | checked (p : Patch) : Alike ⟨p, true⟩ ⟨p, true⟩
  | unchecked (p q : Patch) : Alike ⟨p, false⟩ ⟨q, false⟩

/-- Two resources that are equal but for what their unchecked patches say. -/
structure ResourceDraft.Alike (r r' : ResourceDraft) : Prop where
  patches : List.Forall₂ DraftPatch.Alike r.patches r'.patches
  rest : r' = { r with patches := r'.patches }

/-- Two drafts that are equal but for what the unchecked patches of their resources say. -/
structure CompositionDraft.Alike (d d' : CompositionDraft) : Prop where
  resources : List.Forall₂ ResourceDraft.Alike d.resources d'.resources
  rest : d' = { d with resources := d'.resources }

/-! ## Compositions that differ at unchecked patches only -/

/-- Two templates that are equal but for the places of unchecked patches, where each has what its
own draft says there. -/
structure ComposedTemplate.DifferUnchecked (r r' : ResourceDraft) (t t' : ComposedTemplate) :
    Prop where
  rest : t' = { t with patches := t'.patches }
  length : t.patches.length = r.patches.length
  length' : t'.patches.length = r'.patches.length
  checked : ∀ (j : Nat) (p : Patch), r.patches[j]? = some ⟨p, true⟩ →
    t.patches[j]? = t'.patches[j]?
  unchecked : ∀ (j : Nat) (p : Patch), r.patches[j]? = some ⟨p, false⟩ → t.patches[j]? = some p
  unchecked' : ∀ (j : Nat) (p : Patch), r'.patches[j]? = some ⟨p, false⟩ →
    t'.patches[j]? = some p

/-- Two compositions that are equal but for the places of unchecked patches in their templates. -/
structure Composition.DifferUnchecked (d d' : CompositionDraft) (c c' : Composition) : Prop where
  rest : c' = { c with spec := { c.spec with resources := c'.spec.resources } }
  length : c.spec.resources.length = d.resources.length
  length' : c'.spec.resources.length = d'.resources.length
  resources : ∀ (i : Nat) (r r' : ResourceDraft) (t t' : ComposedTemplate),
    d.resources[i]? = some r → d'.resources[i]? = some r' →
    c.spec.resources[i]? = some t → c'.spec.resources[i]? = some t' →
    t.DifferUnchecked r r' t'

/-! ## Calls that are alike -/

/-- Two calls that may add different unchecked patches, but as many. -/
inductive ResourceCall.Alike : ResourceCall → ResourceCall → Prop where
  | same (call : ResourceCall) : Alike call call
  | withUnsafePatches {ps qs : List Patch} (length : ps.length = qs.length) :
    Alike (.withUnsafePatches ps) (.withUnsafePatches qs)

/-- Two calls that may make different unchecked patches on a resource. -/
inductive DraftCall.Alike : DraftCall → DraftCall → Prop where
  | same (call : DraftCall) : Alike call call
  | newResource (base : ObjectRef) {own own' : List ResourceCall}
    (calls : List.Forall₂ ResourceCall.Alike own own') :
    Alike (.newResource base own) (.newResource base own')

theorem exists_getElem?_of_forall₂ {α β : Type} {R : α → β → Prop} {as : List α} {bs : List β}
    (h : List.Forall₂ R as bs) {i : Nat} {a : α} (ha : as[i]? = some a) :
    ∃ b, bs[i]? = some b ∧ R a b := by
  obtain ⟨hi, rfl⟩ := List.getElem?_eq_some_iff.mp ha
  have hj : i < bs.length := h.length_eq ▸ hi
  exact ⟨bs[i], List.getElem?_eq_getElem hj, h.get hi hj⟩

theorem DraftPatch.Alike.refl (e : DraftPatch) : e.Alike e := by
  obtain ⟨p, checked⟩ := e
  cases checked with
  | true => exact .checked p
  | false => exact .unchecked p p

theorem DraftPatch.forall₂_unchecked {ps qs : List Patch} (h : ps.length = qs.length) :
    List.Forall₂ DraftPatch.Alike (ps.map (⟨·, false⟩)) (qs.map (⟨·, false⟩)) := by
  rw [List.forall₂_map_left_iff, List.forall₂_map_right_iff, List.forall₂_iff_zip]
  exact ⟨h, fun {p q} _ => .unchecked p q⟩

namespace ResourceDraft

theorem Alike.refl (r : ResourceDraft) : r.Alike r :=
  ⟨List.forall₂_same.mpr fun e _ => .refl e, rfl⟩

variable {r r' : ResourceDraft}

/-- Adding alike patches, and otherwise doing the same. -/
theorem Alike.append {es es' : List DraftPatch} (h : r.Alike r')
    (he : List.Forall₂ DraftPatch.Alike es es') :
    Alike { r with patches := r.patches ++ es } { r' with patches := r'.patches ++ es' } := by
  obtain ⟨hp, hr⟩ := h
  refine ⟨List.rel_append hp he, ?_⟩
  rw [hr]

theorem Alike.apply {call call' : ResourceCall} (h : r.Alike r') (hc : call.Alike call') :
    (r.apply call).Alike (r'.apply call') := by
  cases hc with
  | withUnsafePatches length => exact h.append (DraftPatch.forall₂_unchecked length)
  | same =>
    cases call with
    | withPatches patches => exact h.append (List.forall₂_same.mpr fun e _ => .refl e)
    | withUnsafePatches patches => exact h.append (List.forall₂_same.mpr fun e _ => .refl e)
    | _ =>
      obtain ⟨hp, hr⟩ := h
      refine ⟨hp, ?_⟩
      rw [hr]
      rfl

theorem Alike.applyAll {calls calls' : List ResourceCall}
    (hc : List.Forall₂ ResourceCall.Alike calls calls') (h : r.Alike r') :
    (r.applyAll calls).Alike (r'.applyAll calls') := by
  induction hc generalizing r r' with
  | nil => exact h
  | cons head _ ih => exact ih (h.apply head)

end ResourceDraft

namespace CompositionDraft

variable {d d' : CompositionDraft}

theorem Alike.refl (d : CompositionDraft) : d.Alike d :=
  ⟨List.forall₂_same.mpr fun r _ => .refl r, rfl⟩

theorem Alike.apply {call call' : DraftCall} (h : d.Alike d') (hc : call.Alike call') :
    (d.apply call).Alike (d'.apply call') := by
  obtain ⟨hrs, hr⟩ := h
  cases hc with
  | newResource base calls =>
    have hnew := ResourceDraft.Alike.applyAll calls (.refl { base })
    refine ⟨List.rel_append hrs (.cons hnew .nil), ?_⟩
    rw [hr]
    rfl
  | same =>
    cases call with
    | newResource base calls =>
      refine ⟨List.rel_append hrs (.cons (.refl _) .nil), ?_⟩
      rw [hr]
      rfl
    | _ =>
      refine ⟨hrs, ?_⟩
      rw [hr]
      rfl

/-- Calls that are alike leave drafts that are alike. -/
theorem Alike.applyAll {calls calls' : List DraftCall}
    (hc : List.Forall₂ DraftCall.Alike calls calls') (h : d.Alike d') :
    (d.applyAll calls).Alike (d'.applyAll calls') := by
  induction hc generalizing d d' with
  | nil => exact h
  | cons head _ ih => exact ih (h.apply head)

end CompositionDraft

/-! ## Building alike resources -/

namespace ResourceDraft

variable {r r' : ResourceDraft}

theorem agree_buildPatches {composite base : Side} {index : Nat} {es es' : List DraftPatch}
    (h : List.Forall₂ DraftPatch.Alike es es') :
    Agree (fun ps ps' => ps = es.map DraftPatch.final ∧ ps' = es'.map DraftPatch.final)
      (buildPatches composite base index es) (buildPatches composite base index es') := by
  induction h generalizing index with
  | nil => exact .ok ⟨rfl, rfl⟩
  | cons head _ ih =>
    cases head with
    | checked p =>
      rw [buildPatches, buildPatches]
      -- The same patch is validated on both sides.
      cases p.validate composite base with
      | error cause => exact .error _
      | ok _ =>
        refine ih.map ?_
        rintro _ _ ⟨rfl, rfl⟩
        exact ⟨rfl, rfl⟩
    | unchecked p q =>
      rw [buildPatches, buildPatches]
      refine ih.map ?_
      rintro _ _ ⟨rfl, rfl⟩
      exact ⟨rfl, rfl⟩

theorem agree_build (composite : Side) (h : r.Alike r') :
    Agree (fun t t' => t = r.template ∧ t' = r'.template) (r.build composite)
      (r'.build composite) := by
  obtain ⟨hp, hr⟩ := h
  have hpaths : r'.allPaths = r.allPaths := by
    rw [hr]
    rfl
  have hbase : r'.base = r.base := by
    rw [hr]
  rw [build, build, hpaths, hbase]
  cases PathSet.parseAll r.allPaths with
  | error failure => exact .error _
  | ok registered =>
    refine (agree_buildPatches hp).bind ?_
    rintro _ _ ⟨rfl, rfl⟩
    refine .ok ⟨rfl, ?_⟩
    rw [template, hbase]

theorem agree_buildAll {composite : Side} {index : Nat} {rs rs' : List ResourceDraft}
    (h : List.Forall₂ Alike rs rs') :
    Agree (fun ts ts' => ts = rs.map template ∧ ts' = rs'.map template)
      (buildAll composite index rs) (buildAll composite index rs') := by
  induction h generalizing index with
  | nil => exact .ok ⟨rfl, rfl⟩
  | @cons r r' _ _ head _ ih =>
    have hname : r'.name = r.name := by
      rw [head.rest]
    rw [buildAll, buildAll, hname]
    rcases Agree.cases_iff.mp (agree_build composite head) with
      ⟨cause, hr, hr'⟩ | ⟨_, _, hr, hr', rfl, rfl⟩
    · rw [hr, hr']
      exact .error _
    · rw [hr, hr']
      refine ih.map ?_
      rintro _ _ ⟨rfl, rfl⟩
      exact ⟨rfl, rfl⟩

/-- The templates of alike resources differ at most at unchecked patches. -/
theorem Alike.differUnchecked_template (h : r.Alike r') :
    r.template.DifferUnchecked r r' r'.template := by
  obtain ⟨hp, hr⟩ := h
  refine {
    rest := ?_
    length := List.length_map ..
    length' := List.length_map ..
    checked := ?_
    unchecked := ?_
    unchecked' := ?_ }
  · rw [hr]
    rfl
  · intro j p hj
    obtain ⟨e, he, halike⟩ := exists_getElem?_of_forall₂ hp hj
    cases halike
    simp [ResourceDraft.template, hj, he]
  · intro j p hj
    simp [ResourceDraft.template, hj, DraftPatch.final]
  · intro j p hj
    simp [ResourceDraft.template, hj, DraftPatch.final]

end ResourceDraft

/-! ## Finalizing alike drafts -/

namespace CompositionDraft

variable {d d' : CompositionDraft}

theorem agree_buildChildren (h : d.Alike d') :
    d.buildChildren.1 = d'.buildChildren.1 ∧
    Agree (fun x x' => ∃ pipeline, x = (d.resources.map ResourceDraft.template, pipeline) ∧
        x' = (d'.resources.map ResourceDraft.template, pipeline))
      d.buildChildren.2 d'.buildChildren.2 := by
  obtain ⟨hrs, hr⟩ := h
  obtain ⟨rs, rfl⟩ : ∃ rs, d' = { d with resources := rs } := ⟨_, hr⟩
  have hlength := hrs.length_eq
  unfold buildChildren
  rw [show finalMode { d with resources := rs } = d.finalMode from rfl,
    show allPaths { d with resources := rs } = d.allPaths from rfl]
  -- The mode and the registered paths do not depend on the patches, so both drafts take the same
  -- way.
  cases d.finalMode with
  | resources =>
    by_cases hs : d.steps = []
    · cases PathSet.parseAll d.allPaths with
      | error failure => simpa [hs] using Agree.error _
      | ok registered =>
        simp only [hs, List.isEmpty_nil, Bool.not_true, Bool.false_eq_true, if_false, true_and]
        refine (ResourceDraft.agree_buildAll hrs).map ?_
        rintro _ _ ⟨rfl, rfl⟩
        exact ⟨[], rfl, rfl⟩
    · simpa [hs] using Agree.error _
  | pipeline =>
    by_cases hn : d.resources = []
    · obtain rfl : rs = [] := List.forall₂_nil_left_iff.mp (hn ▸ hrs)
      simp only [hn, List.isEmpty_nil, Bool.not_true, Bool.false_eq_true, if_false, true_and]
      cases (StepDraft.buildAll 0 d.steps).2 with
      | error e => exact .error e
      | ok steps => exact .ok ⟨steps, rfl, rfl⟩
    · have hn' : rs ≠ [] := by
        rintro rfl
        exact hn (List.forall₂_nil_right_iff.mp hrs)
      simpa [hn, hn', hlength] using Agree.error _

theorem agree_finalize (h : d.Alike d') :
    d.finalize.1 = d'.finalize.1 ∧
    Agree (fun c c' => ∃ pipeline,
      c = d.assemble (d.resources.map ResourceDraft.template) pipeline ∧
        c' = d'.assemble (d'.resources.map ResourceDraft.template) pipeline)
      d.finalize.2 d'.finalize.2 := by
  have hname : d'.name = d.name := by
    rw [h.rest]
  obtain ⟨hreport, hchildren⟩ := agree_buildChildren h
  unfold finalize
  rw [hname]
  by_cases hn : d.name = ""
  · simpa [hn] using Agree.error _
  · simp only [String.isEmpty_iff, hn, if_false]
    refine ⟨hreport, hchildren.map ?_⟩
    rintro _ _ ⟨pipeline, rfl, rfl⟩
    exact ⟨pipeline, rfl, rfl⟩

/-- Compositions of alike drafts with the same pipeline differ at most at unchecked patches. -/
theorem Alike.differUnchecked_assemble (h : d.Alike d') (pipeline : List PipelineStep) :
    (d.assemble (d.resources.map ResourceDraft.template) pipeline).DifferUnchecked d d'
      (d'.assemble (d'.resources.map ResourceDraft.template) pipeline) := by
  obtain ⟨hrs, hr⟩ := h
  refine {
    rest := ?_
    length := List.length_map ..
    length' := List.length_map ..
    resources := ?_ }
  · rw [hr]
    rfl
  · intro i r r' t t' hi hi' ht ht'
    have halike : r.Alike r' := forall₂_getElem? hrs hi hi'
    obtain rfl : r.template = t := by
      simpa [CompositionDraft.assemble, hi] using ht
    obtain rfl : r'.template = t' := by
      simpa [CompositionDraft.assemble, hi'] using ht'
    exact halike.differUnchecked_template

/-- What unchecked patches say decides nothing: of two drafts that differ in it alone, either both
are refused for the same cause, or both are finalized, and the compositions differ just there, with
each unchecked patch as it was given. Nor does it show in what is reported. -/
theorem finalize_ignores_unchecked (d d' : CompositionDraft) (h : d.Alike d') :
    d.finalize.1 = d'.finalize.1 ∧
    ((∃ e, d.finalize.2 = .error e ∧ d'.finalize.2 = .error e) ∨
      ∃ c c', d.finalize.2 = .ok c ∧ d'.finalize.2 = .ok c' ∧ c.DifferUnchecked d d' c') := by
  obtain ⟨hreport, hagree⟩ := agree_finalize h
  refine ⟨hreport, ?_⟩
  rcases Agree.cases_iff.mp hagree with herror | ⟨c, c', hc, hc', pipeline, rfl, rfl⟩
  · exact Or.inl herror
  · exact Or.inr ⟨_, _, hc, hc', h.differUnchecked_assemble pipeline⟩

/-! Two builders that say the same but for two unchecked patches: one names paths that do not
parse, the other is of no known type, and neither names what it has to. -/

/-- Calls with two unchecked patches around a checked one. -/
def uncheckedCalls (first second : Patch) : List DraftCall := [
  .withName "sample",
  .newResource sampleBase [
    .withUnsafePatches [first],
    .withPatches [.simple "spec.size" "data.size"],
    .withUnsafePatches [second],
    .registerFieldPaths ["data.size"]]]

theorem alike_uncheckedCalls (first second first' second' : Patch) :
    ((new sampleComposite).applyAll (uncheckedCalls first second)).Alike
      ((new sampleComposite).applyAll (uncheckedCalls first' second')) := by
  refine Alike.applyAll (.cons (.same _) (.cons (.newResource _ ?_) .nil)) (.refl _)
  exact .cons (.withUnsafePatches rfl) (.cons (.same _) (.cons (.withUnsafePatches rfl)
    (.cons (.same _) .nil)))

theorem finalize_uncheckedCalls :
    let calls := uncheckedCalls (.simple "]" "a..b") {}
    let calls' := uncheckedCalls {} { type := some (.other "Sideways") }
    let d := (new sampleComposite).applyAll calls
    let d' := (new sampleComposite).applyAll calls'
    d.Alike d' ∧ ∃ c c', d.finalize.2 = .ok c ∧ d'.finalize.2 = .ok c' ∧
      c.DifferUnchecked d d' c' := by
  intro calls calls' d d'
  have halike : d.Alike d' := alike_uncheckedCalls _ _ _ _
  refine ⟨halike, ?_⟩
  have hok : d.finalize.2.isOk = true := by decide +kernel
  rcases (finalize_ignores_unchecked d d' halike).2 with ⟨e, he, -⟩ | hcompositions
  · rw [he] at hok
    cases hok
  · exact hcompositions

end CompositionDraft

end CompositionGen
