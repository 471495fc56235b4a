import CompositionGen.Proofs.Draft.Failure

/-!
# What registering does

More registered texts never refuse what was accepted before, and change nothing of what is made of
it. And where a patch is refused for a path that an object does not have, registering the text for
this very object takes one back at that place no more: what is refused then, if anything is, stands
further back.
-/

namespace CompositionGen

/-! ## More registered texts -/

/-- Registered texts with others among them that all spell paths. -/
structure RegistersMore (raws raws' : List String) : Prop where
  kept : ∀ raw ∈ raws, raw ∈ raws'
  added : ∀ raw ∈ raws', raw ∈ raws ∨ ∃ path, FieldPath.parse raw = .ok path

namespace RegistersMore

variable {raws raws' more : List String}

theorem refl (raws : List String) : RegistersMore raws raws :=
  ⟨fun _ h => h, fun _ h => .inl h⟩

theorem append (raws : List String) (h : ∀ raw ∈ more, ∃ path, FieldPath.parse raw = .ok path) :
    RegistersMore raws (raws ++ more) := by
  refine ⟨fun raw hraw => List.mem_append_left more hraw, fun raw hraw => ?_⟩
  rcases List.mem_append.mp hraw with hold | hnew
  · exact .inl hold
  · exact .inr (h raw hnew)

/-- Texts that are registered in any case may stand behind. -/
theorem append_right (h : RegistersMore raws raws') (known : List String) :
    RegistersMore (raws ++ known) (raws' ++ known) := by
  constructor
  · intro raw hraw
    rcases List.mem_append.mp hraw with hown | hknown
    · exact List.mem_append_left known (h.kept raw hown)
    · exact List.mem_append_right raws' hknown
  · intro raw hraw
    rcases List.mem_append.mp hraw with hown | hknown
    · exact (h.added raw hown).imp_left (List.mem_append_left known)
    · exact .inl (List.mem_append_right raws hknown)

theorem exists_parseAll {s : PathSet} (h : RegistersMore raws raws')
    (hs : PathSet.parseAll raws = .ok s) : ∃ s', PathSet.parseAll raws' = .ok s' := by
  refine PathSet.exists_parseAll fun raw hraw => ?_
  rcases h.added raw hraw with hold | hnew
  · exact PathSet.exists_parse_of_parseAll hs raw hold
  · exact hnew

theorem valid {s s' : PathSet} {o : ObjectRef} {raw : String} (h : RegistersMore raws raws')
    (hs : PathSet.parseAll raws = .ok s) (hs' : PathSet.parseAll raws' = .ok s')
    (hvalid : Side.Valid ⟨o, s⟩ raw) : Side.Valid ⟨o, s'⟩ raw := by
  obtain ⟨path, hpath, hfound⟩ := (Side.valid_iff_accepts hs).mp hvalid
  refine (Side.valid_iff_accepts hs').mpr ⟨path, hpath, hfound.imp_right ?_⟩
  rintro ⟨r, hr, q, hq⟩
  exact ⟨r, h.kept r hr, q, hq⟩

end RegistersMore

/-- A text that is registered for an object may be used on it. -/
theorem Side.valid_of_registered {o : ObjectRef} {raws : List String} {s : PathSet} {raw : String}
    (hs : PathSet.parseAll raws = .ok s) (hraw : raw ∈ raws) : Side.Valid ⟨o, s⟩ raw := by
  obtain ⟨path, hpath⟩ := PathSet.exists_parse_of_parseAll hs raw hraw
  have hself : path.Matches path = true := FieldPath.matches_iff.mpr rfl
  exact (Side.valid_iff_accepts hs).mpr ⟨path, hpath, .inr ⟨raw, hraw, path, hpath, hself⟩⟩

/-! ## Accepting more -/

/-- A resource with more registered texts of its own. -/
structure ResourceDraft.Widens (r r' : ResourceDraft) : Prop where
  registered : RegistersMore r.registeredPaths r'.registeredPaths
  rest : r' = { r with registeredPaths := r'.registeredPaths }

/-- A draft with more registered texts, for the composite and for any of its resources. -/
structure CompositionDraft.Widens (d d' : CompositionDraft) : Prop where
  registered : RegistersMore d.registeredPaths d'.registeredPaths
  resources : List.Forall₂ ResourceDraft.Widens d.resources d'.resources
  rest : d' = { d with registeredPaths := d'.registeredPaths, resources := d'.resources }

/-- A patch that does not fail does not fail where more is admitted. -/
theorem DraftPatch.not_fails {e : DraftPatch} {composite base composite' base' : Side}
    (hv : AdmitMore composite base composite' base')
    (hpass : ∀ cause, ¬ e.Fails composite base cause) (cause : PatchError) :
    ¬ e.Fails composite' base' cause := by
  rintro ⟨hchecked, hinvalid⟩
  cases hok : e.patch.validate composite base with
  | error cause => exact hpass cause ⟨hchecked, hok⟩
  | ok _ => cases (Patch.validate_widened hv hok).symm.trans hinvalid

theorem admitMore_of_registersMore (composite base : ObjectRef) {shared shared' own own' : PathSet}
    {texts texts' raws raws' : List String} (hc : RegistersMore texts texts')
    (hb : RegistersMore raws raws') (hs : PathSet.parseAll texts = .ok shared)
    (hs' : PathSet.parseAll texts' = .ok shared') (ho : PathSet.parseAll raws = .ok own)
    (ho' : PathSet.parseAll raws' = .ok own') :
    AdmitMore ⟨composite, shared⟩ ⟨base, own⟩ ⟨composite, shared'⟩ ⟨base, own'⟩ := by
  intro place raw h
  cases place with
  | composite => exact hc.valid hs hs' h
  | base => exact hb.valid ho ho' h

namespace ResourceDraft.Widens

variable {r r' : ResourceDraft} {texts texts' : List String} {composite : ObjectRef}
  {shared shared' : PathSet}

theorem patches (h : r.Widens r') : r'.patches = r.patches := by rw [h.rest]

theorem base (h : r.Widens r') : r'.base = r.base := by rw [h.rest]

theorem template_eq (h : r.Widens r') : r'.template = r.template := by
  rw [h.rest]
  rfl

theorem allPaths (h : r.Widens r') : RegistersMore r.allPaths r'.allPaths :=
  h.registered.append_right _

theorem build {t : ComposedTemplate} (h : r.Widens r') (hc : RegistersMore texts texts')
    (hs : PathSet.parseAll texts = .ok shared) (hs' : PathSet.parseAll texts' = .ok shared')
    (hok : r.build ⟨composite, shared⟩ = .ok t) : r'.build ⟨composite, shared'⟩ = .ok t := by
  obtain ⟨⟨own, ho, hall⟩, rfl⟩ := build_ok_iff.mp hok
  obtain ⟨own', ho'⟩ := h.allPaths.exists_parseAll ho
  refine build_ok_iff.mpr ⟨⟨own', ho', ?_⟩, h.template_eq.symm⟩
  rw [h.patches, h.base]
  intro e he hchecked
  have hv := admitMore_of_registersMore composite r.base hc h.allPaths hs hs' ho ho'
  exact Patch.validate_widened hv (hall e he hchecked)

/-- A resource that does not fail does not fail with more registered texts. -/
theorem not_fails (h : r.Widens r') (hc : RegistersMore texts texts')
    (hs : PathSet.parseAll texts = .ok shared) (hs' : PathSet.parseAll texts' = .ok shared')
    (hpass : ∀ e, ¬ r.Fails ⟨composite, shared⟩ e) (e : TemplateError) :
    ¬ r'.Fails ⟨composite, shared'⟩ e := by
  intro hfails
  cases hr : r.build ⟨composite, shared⟩ with
  | error cause => exact hpass cause (build_error_iff.mp hr)
  | ok t =>
    have hr' := h.build hc hs hs' hr
    rw [build_error_iff.mpr hfails] at hr'
    cases hr'

end ResourceDraft.Widens

namespace CompositionDraft

variable {d d' : CompositionDraft}

theorem Widens.name (h : d.Widens d') : d'.name = d.name := by rw [h.rest]

theorem Widens.mode (h : d.Widens d') : d'.mode = d.mode := by rw [h.rest]

theorem Widens.steps (h : d.Widens d') : d'.steps = d.steps := by rw [h.rest]

theorem Widens.composite (h : d.Widens d') : d'.composite = d.composite := by rw [h.rest]

theorem Widens.allPaths (h : d.Widens d') : RegistersMore d.allPaths d'.allPaths :=
  h.registered.append_right _

theorem forall₂_build {ds ds' : List ResourceDraft} {ts : List ComposedTemplate}
    {build build' : ResourceDraft → Except TemplateError ComposedTemplate}
    (h : List.Forall₂ ResourceDraft.Widens ds ds')
    (hb : ∀ r r' t, r.Widens r' → build r = .ok t → build' r' = .ok t)
    (hok : List.Forall₂ (fun r t => build r = .ok t) ds ts) :
    List.Forall₂ (fun r t => build' r = .ok t) ds' ts := by
  induction h generalizing ts with
  | nil =>
    cases hok
    exact .nil
  | cons hr _ ih =>
    cases hok with
    | cons hbuild hrest => exact .cons (hb _ _ _ hr hbuild) (ih hrest)

/-- What was accepted stays accepted, and the composition is the same. -/
theorem Widens.finalize_ok {c : Composition} (h : d.Widens d') (hok : d.finalize.2 = .ok c) :
    d'.finalize.2 = .ok c := by
  obtain ⟨hn, resources, pipeline, hb, rfl⟩ := finalize_ok_iff.mp hok
  have hmode : d'.finalMode = d.finalMode := by rw [finalMode, h.mode, finalMode]
  have hassemble : d'.assemble resources pipeline = d.assemble resources pipeline := by
    rw [h.rest]
    rfl
  refine finalize_ok_iff.mpr ⟨h.name ▸ hn, resources, pipeline, ?_, hassemble.symm⟩
  rw [buildChildren_ok_iff, hmode, h.steps, h.composite]
  rcases buildChildren_ok_iff.mp hb with ⟨hm, hs, hp, shared, hshared, hall⟩ | ⟨hm, hr, hnone, hall⟩
  · obtain ⟨shared', hshared'⟩ := h.allPaths.exists_parseAll hshared
    refine .inl ⟨hm, hs, hp, shared', hshared', forall₂_build h.resources ?_ hall⟩
    intro r r' t hwide hbuild
    exact hwide.build h.allPaths hshared hshared' hbuild
  · have hnone' : d'.resources = [] := by
      have hresources := h.resources
      rw [hr] at hresources
      exact List.forall₂_nil_left_iff.mp hresources
    exact .inr ⟨hm, hnone', hnone, hall⟩

end CompositionDraft

/-! ## The places where a patch is checked -/

/-- A place of a patch where a path is checked, in the order of the checks. -/
inductive PatchEndpoint where
  /-- The field that is read, or the variable of that index. -/
  | source (index : Nat)
  /-- The field that is written. -/
  | destination
  deriving DecidableEq, Repr

/-- Whether a place is checked before another. -/
def PatchEndpoint.Before : PatchEndpoint → PatchEndpoint → Prop
  | .source i, .source j => i < j
  | .source _, .destination => True
  | .destination, _ => False

/-- The object that a patch uses at a place, and the text that names the path on it; the field that
is written is named like the one that is read unless it has a name of its own. -/
def Patch.pathAt? (p : Patch) (endpoint : PatchEndpoint) : Option (PatchEnd × String) :=
  match PatchReading.of p.type, endpoint with
  | .direct source, .source _ => p.fromFieldPath.map (source, ·)
  | .direct source, .destination =>
    p.fromFieldPath.map fun origin => (source.opposite, p.toFieldPath.getD origin)
  | .combine source, .source i =>
    (p.combine.bind (·.inputs[i]?)).map fun v => (source, v.fromFieldPath)
  | .combine source, .destination => p.toFieldPath.map (source.opposite, ·)
  | .unsupported _, _ | .unknown _, _ => none

namespace PatchError

/-- The place that an error is about, if it is about one. -/
def endpoint? : PatchError → Option PatchEndpoint
  | .fromFieldPath _ => some (.source 0)
  | .combineVariable i _ => some (.source i)
  | .toFieldPath _ => some .destination
  | .missingField name => if name = "toFieldPath" then some .destination else none
  | .noVariables | .unsupported _ | .unknown _ => none

end PatchError

/-- The text of a path that is neither registered nor there. -/
def FieldPathError.unresolved? : FieldPathError → Option String
  | .unresolved raw _ => some raw
  | .parse _ _ => none

/-- The text of a path that is neither registered nor there. -/
def PatchError.unresolved? : PatchError → Option String
  | .fromFieldPath cause | .combineVariable _ cause | .toFieldPath cause => cause.unresolved?
  | .missingField _ | .noVariables | .unsupported _ | .unknown _ => none

namespace Side.Refuses

variable {side : Side} {raw text : String} {cause : FieldPathError}

theorem not_valid (h : side.Refuses raw cause) : ¬ side.Valid raw := by
  intro hvalid
  have hok : side.check raw = .ok () := check_ok_iff.mpr hvalid
  rw [check_error_iff.mpr h] at hok
  cases hok

theorem of_unresolved (h : side.Refuses raw cause) (hu : cause.unresolved? = some text) :
    text = raw ∧ ∃ path, FieldPath.parse raw = .ok path := by
  cases h with
  | unparsable hp => cases hu
  | unresolved hp =>
    cases hu
    exact ⟨rfl, _, hp⟩

end Side.Refuses

namespace Patch

variable {p : Patch} {composite base composite' base' : Side} {cause cause' : PatchError}
  {raw : String}

/-- An error about a path that an object does not have names a place of the patch and the text that
stands there. -/
theorem Violation.exists_endpoint (h : p.Violation composite base cause)
    (hu : cause.unresolved? = some raw) :
    (∃ path, FieldPath.parse raw = .ok path) ∧
      ∃ endpoint place, cause.endpoint? = some endpoint ∧
        p.pathAt? endpoint = some (place, raw) := by
  unfold Violation at h
  cases hr : PatchReading.of p.type with
  | direct source =>
    rw [hr] at h
    cases h with
    | noOrigin _ => cases hu
    | badOrigin hf hrefuses =>
      obtain ⟨rfl, hpath⟩ := hrefuses.of_unresolved hu
      exact ⟨hpath, .source 0, source, rfl, by simp [pathAt?, hr, hf]⟩
    | badTarget hf _ hrefuses =>
      obtain ⟨rfl, hpath⟩ := hrefuses.of_unresolved hu
      exact ⟨hpath, .destination, source.opposite, rfl, by simp [pathAt?, hr, hf]⟩
  | combine source =>
    rw [hr] at h
    cases h with
    | noCombine _ => cases hu
    | noInputs _ _ => cases hu
    | badInput hc hi _ hrefuses =>
      obtain ⟨rfl, hpath⟩ := hrefuses.of_unresolved hu
      exact ⟨hpath, .source _, source, rfl, by simp [pathAt?, hr, hc, hi]⟩
    | noTarget _ _ _ _ => cases hu
    | badTarget _ _ _ ht hrefuses =>
      obtain ⟨rfl, hpath⟩ := hrefuses.of_unresolved hu
      exact ⟨hpath, .destination, source.opposite, rfl, by simp [pathAt?, hr, ht]⟩
  | unsupported type =>
    rw [hr] at h
    cases h
    cases hu
  | unknown name =>
    rw [hr] at h
    cases h
    cases hu

section Later

variable {source destination source' destination' : Side} {origin target : String}

theorem DirectViolation.later_source
    (h' : p.DirectViolation source' destination' cause') (hf : p.fromFieldPath = some origin)
    (hvalid : source'.Valid origin) :
    cause'.endpoint? = some .destination ∧ ¬ destination'.Valid (p.toFieldPath.getD origin) := by
  cases h' with
  | noOrigin hnone => cases hf.symm.trans hnone
  | badOrigin hf' hrefuses =>
    cases hf.symm.trans hf'
    exact absurd hvalid hrefuses.not_valid
  | badTarget hf' _ hrefuses =>
    cases hf.symm.trans hf'
    exact ⟨rfl, hrefuses.not_valid⟩

/-- Variables that are admitted are not what a combination is refused for. -/
theorem CombineViolation.later_sources {c : Combine} {count : Nat}
    (h' : p.CombineViolation source' destination' cause') (hc : p.combine = some c)
    (hne : c.inputs ≠ []) (hvalid : ∀ v ∈ c.inputs.take count, source'.Valid v.fromFieldPath) :
    (∃ i, cause'.endpoint? = some (.source i) ∧ count ≤ i ∧ i < c.inputs.length) ∨
      cause'.endpoint? = some .destination ∧
        ∀ text, p.toFieldPath = some text → ¬ destination'.Valid text := by
  cases h' with
  | noCombine hnone => cases hc.symm.trans hnone
  | noInputs hc' hnil =>
    cases hc.symm.trans hc'
    exact absurd hnil hne
  | @badInput _ i v _ hc' hi _ hrefuses =>
    cases hc.symm.trans hc'
    refine .inl ⟨i, rfl, ?_, (List.getElem?_eq_some_iff.mp hi).1⟩
    by_contra hlt
    have hmem : v ∈ c.inputs.take count :=
      List.mem_of_getElem? ((List.getElem?_take_of_lt (Nat.not_le.mp hlt)).trans hi)
    exact hrefuses.not_valid (hvalid v hmem)
  | noTarget _ _ _ hnone =>
    exact .inr ⟨rfl, fun text ht => nomatch ht.symm.trans hnone⟩
  | badTarget _ _ _ ht hrefuses =>
    refine .inr ⟨rfl, fun text ht' => ?_⟩
    cases ht.symm.trans ht'
    exact hrefuses.not_valid

end Later

/-- Where the sides admit more, and the text at the place of an error among it, an error that is
left is about a later place. -/
theorem Violation.later {endpoint : PatchEndpoint} {place : PatchEnd}
    (hv : AdmitMore composite base composite' base')
    (h : p.Violation composite base cause) (he : cause.endpoint? = some endpoint)
    (hp : p.pathAt? endpoint = some (place, raw)) (hraw : (place.side composite' base').Valid raw)
    (h' : p.Violation composite' base' cause') :
    ∃ later, cause'.endpoint? = some later ∧ endpoint.Before later := by
  unfold Violation at h h'
  cases hr : PatchReading.of p.type with
  | direct source =>
    rw [hr] at h h'
    cases h with
    | noOrigin _ => cases he
    | badOrigin hf _ =>
      cases he
      obtain ⟨rfl, rfl⟩ : source = place ∧ _ = raw := by simpa [pathAt?, hr, hf] using hp
      exact ⟨.destination, (h'.later_source hf hraw).1, trivial⟩
    | badTarget hf hvalid _ =>
      cases he
      obtain ⟨rfl, rfl⟩ : source.opposite = place ∧ _ = raw := by simpa [pathAt?, hr, hf] using hp
      -- The target is the last place of a patch, and it was what was missing.
      exact absurd hraw (h'.later_source hf (hv source _ hvalid)).2
  | combine source =>
    rw [hr] at h h'
    cases h with
    | noCombine _ => cases he
    | noInputs _ _ => cases he
    | @badInput c i v _ hc hi hbefore _ =>
      cases he
      obtain ⟨rfl, rfl⟩ : source = place ∧ _ = raw := by simpa [pathAt?, hr, hc, hi] using hp
      have hne := List.ne_nil_of_mem (List.mem_of_getElem? hi)
      -- The variables up to the missing one are valid now, so what is still wrong is behind it.
      have hvalid : ∀ w ∈ c.inputs.take (i + 1),
          (source.side composite' base').Valid w.fromFieldPath := by
        intro w hw
        rw [List.take_add_one, hi, Option.toList_some, List.mem_append, List.mem_singleton] at hw
        rcases hw with hw | rfl
        · exact hv source _ (hbefore w hw)
        · exact hraw
      rcases h'.later_sources hc hne hvalid with ⟨j, hj, hlt, -⟩ | ⟨hdestination, -⟩
      · exact ⟨.source j, hj, hlt⟩
      · exact ⟨.destination, hdestination, trivial⟩
    | noTarget _ _ _ hnone =>
      cases he
      simp [pathAt?, hr, hnone] at hp
    | @badTarget c _ _ hc hne hvalid ht _ =>
      cases he
      obtain ⟨rfl, rfl⟩ : source.opposite = place ∧ _ = raw := by simpa [pathAt?, hr, ht] using hp
      have hvalid' : ∀ w ∈ c.inputs.take c.inputs.length,
          (source.side composite' base').Valid w.fromFieldPath := by
        rw [List.take_length]
        exact fun w hw => hv source _ (hvalid w hw)
      rcases h'.later_sources hc hne hvalid' with ⟨j, -, hge, hlt⟩ | ⟨-, hnot⟩
      · exact absurd hge (Nat.not_le.mpr hlt)
      · exact absurd hraw (hnot _ ht)
  | unsupported type =>
    rw [hr] at h
    cases h
    cases he
  | unknown name =>
    rw [hr] at h
    cases h
    cases he

end Patch

/-! ## Registering what was missing -/

/-- The registered texts that a path on an object is held against. -/
def PatchEnd.texts (composite base : List String) : PatchEnd → List String
  | .composite => composite
  | .base => base

namespace ResourceDraft

variable {r r' : ResourceDraft} {composite : ObjectRef} {shared shared' : PathSet} {k : Nat}
  {cause : PatchError} {raw : String}

theorem Fails.exists_endpoint (h : r.Fails ⟨composite, shared⟩ (.invalidPatch k cause))
    (hu : cause.unresolved? = some raw) :
    (∃ path, FieldPath.parse raw = .ok path) ∧
      ∃ patch endpoint place, r.patches[k]? = some ⟨patch, true⟩ ∧
        cause.endpoint? = some endpoint ∧ patch.pathAt? endpoint = some (place, raw) := by
  obtain ⟨own, -, ⟨patch, checked⟩, hfirst⟩ := h
  obtain ⟨rfl, hinvalid⟩ := hfirst.fault
  obtain ⟨hpath, endpoint, place, he, hp⟩ :=
    (Patch.validate_error_iff.mp hinvalid).exists_endpoint hu
  exact ⟨hpath, patch, endpoint, place, hfirst.get, he, hp⟩

/-- A failure of a resource that is behind a place of one of its patches. -/
def FailsLater (k : Nat) (endpoint : PatchEndpoint) (cause : TemplateError) : Prop :=
  ∃ l error, cause = .invalidPatch l error ∧
    (k < l ∨ k = l ∧ ∃ later, error.endpoint? = some later ∧ endpoint.Before later)

/-- With the missing text registered, a resource may still fail, but for a later place of the patch
or for a later patch. -/
theorem Widens.failsLater {texts texts' : List String} {patch : Patch} {endpoint : PatchEndpoint}
    {place : PatchEnd} {cause' : TemplateError} (h : r.Widens r') (hc : RegistersMore texts texts')
    (hs : PathSet.parseAll texts = .ok shared) (hs' : PathSet.parseAll texts' = .ok shared')
    (hfails : r.Fails ⟨composite, shared⟩ (.invalidPatch k cause))
    (hpatch : r.patches[k]? = some ⟨patch, true⟩) (he : cause.endpoint? = some endpoint)
    (hp : patch.pathAt? endpoint = some (place, raw))
    (hraw : raw ∈ place.texts texts' r'.allPaths)
    (hfails' : r'.Fails ⟨composite, shared'⟩ cause') : FailsLater k endpoint cause' := by
  obtain ⟨own, ho, e, hfirst⟩ := hfails
  cases hpatch.symm.trans hfirst.get
  obtain ⟨own', ho'⟩ := h.allPaths.exists_parseAll ho
  have hv := admitMore_of_registersMore composite r.base hc h.allPaths hs hs' ho ho'
  have hadmitted : (place.side ⟨composite, shared'⟩ ⟨r.base, own'⟩).Valid raw := by
    cases place with
    | composite => exact Side.valid_of_registered hs' hraw
    | base => exact Side.valid_of_registered ho' hraw
  cases cause' with
  | invalidRegisteredPath text error =>
    rw [Fails, ← parseAll_error_iff, ho'] at hfails'
    cases hfails'
  | invalidPatch l error =>
    obtain ⟨_, hown, e', hfirst'⟩ := hfails'
    cases ho'.symm.trans hown
    rw [h.patches, h.base] at hfirst'
    refine ⟨l, error, rfl, ?_⟩
    -- A patch that was valid still is, so the first one that fails now is no earlier one.
    have hle : k ≤ l := by
      refine hfirst.le_of_passing hfirst' fun n x y hx hy hpass => ?_
      cases hx.symm.trans hy
      exact DraftPatch.not_fails hv hpass
    rcases Nat.lt_or_eq_of_le hle with hlt | rfl
    · exact .inl hlt
    · cases hfirst.get.symm.trans hfirst'.get
      have hviolation := Patch.validate_error_iff.mp hfirst.fault.2
      have hviolation' := Patch.validate_error_iff.mp hfirst'.fault.2
      exact .inr ⟨rfl, hviolation.later hv he hp hadmitted hviolation'⟩

end ResourceDraft

namespace CompositionDraft

/-- The draft with more texts registered, for the composite or for the resource at a position. -/
def registerAt (d : CompositionDraft) (i : Nat) (raws : List String) : PatchEnd → CompositionDraft
  | .composite => d.apply (.registerCompositeFieldPaths raws)
  | .base => { d with resources := d.resources.modify i (·.apply (.registerFieldPaths raws)) }

variable {d : CompositionDraft} {i : Nat} {raws : List String}

theorem widens_registerAt (i : Nat) (h : ∀ raw ∈ raws, ∃ path, FieldPath.parse raw = .ok path)
    (place : PatchEnd) : d.Widens (d.registerAt i raws place) := by
  have hsame : ∀ r : ResourceDraft, r.Widens r := fun r => ⟨.refl _, rfl⟩
  have hmore : ∀ r : ResourceDraft, r.Widens (r.apply (.registerFieldPaths raws)) :=
    fun r => ⟨.append _ h, rfl⟩
  cases place with
  | composite => exact ⟨.append _ h, List.forall₂_same.mpr fun r _ => hsame r, rfl⟩
  | base => exact ⟨.refl _, forall₂_modify hsame hmore _ i, rfl⟩

theorem mem_registerAt {r r' : ResourceDraft} {raw : String} (place : PatchEnd)
    (hr : d.resources[i]? = some r) (hr' : (d.registerAt i raws place).resources[i]? = some r')
    (h : raw ∈ raws) :
    raw ∈ place.texts (d.registerAt i raws place).allPaths r'.allPaths := by
  cases place with
  | composite => exact List.mem_append_left _ (List.mem_append_right _ h)
  | base =>
    rw [registerAt, List.getElem?_modify_eq, hr] at hr'
    cases hr'
    exact List.mem_append_left _ (List.mem_append_right _ h)

/-- Registering only widens what is accepted, and it helps: a draft that is accepted is accepted
with any more registered texts, and the composition is the same. Where a draft is refused because a
path is not on the object that a patch uses it on, the draft in which this text is registered for
this object is accepted, or it is refused for a later place of the patch, a later patch or a later
resource. -/
theorem finalize_registered (d : CompositionDraft) :
    (∀ d' c, d.Widens d' → d.finalize.2 = .ok c → d'.finalize.2 = .ok c) ∧
    ∀ i name k cause raw,
      d.finalize.2 = .error (.composedTemplate i name (.invalidPatch k cause)) →
      cause.unresolved? = some raw →
      ∃ r patch endpoint place, d.resources[i]? = some r ∧ r.patches[k]? = some ⟨patch, true⟩ ∧
        cause.endpoint? = some endpoint ∧ patch.pathAt? endpoint = some (place, raw) ∧
        ((∃ c, (d.registerAt i [raw] place).finalize.2 = .ok c) ∨
          ∃ j name' cause', (d.registerAt i [raw] place).finalize.2 =
              .error (.composedTemplate j name' cause') ∧
            (i < j ∨ i = j ∧ ResourceDraft.FailsLater k endpoint cause')) := by
  refine ⟨fun d' c h hok => h.finalize_ok hok, fun i name k cause raw h hu => ?_⟩
  obtain ⟨hn, hm, hs, shared, hshared, r, hfirst, rfl⟩ := finalize_template_error_iff.mp h
  obtain ⟨⟨path, hpath⟩, patch, endpoint, place, hpatch, he, hp⟩ := hfirst.fault.exists_endpoint hu
  refine ⟨r, patch, endpoint, place, hfirst.get, hpatch, he, hp, ?_⟩
  have hparse : ∀ text ∈ [raw], ∃ path, FieldPath.parse text = .ok path := by simp [hpath]
  have hwide := widens_registerAt (d := d) i hparse place
  obtain ⟨shared', hshared'⟩ := hwide.allPaths.exists_parseAll hshared
  have hfinal := finalize_eq_of_passing (hwide.name ▸ hn) (hwide.mode ▸ hm)
    (hwide.steps.trans hs) hshared'
  rw [hwide.composite] at hfinal
  cases hb : ResourceDraft.buildAll ⟨d.composite, shared'⟩ 0
      (d.registerAt i [raw] place).resources with
  | ok templates =>
    rw [hb] at hfinal
    exact .inl ⟨_, hfinal⟩
  | error e =>
    -- Whatever stands before the place has passed before, and passes with more texts registered.
    obtain ⟨j, r', cause', hfirst', rfl⟩ := ResourceDraft.buildAll_error_iff.mp hb
    rw [hb, Nat.zero_add] at hfinal
    refine .inr ⟨j, r'.name, cause', hfinal, ?_⟩
    have hle : i ≤ j := hfirst.le_of_passing hfirst' fun n x y hx hy =>
      (forall₂_getElem? hwide.resources hx hy).not_fails hwide.allPaths hshared hshared'
    rcases Nat.lt_or_eq_of_le hle with hlt | rfl
    · exact .inl hlt
    · have hraw := mem_registerAt place hfirst.get hfirst'.get (List.mem_singleton_self raw)
      have hwider := forall₂_getElem? hwide.resources hfirst.get hfirst'.get
      exact .inr ⟨rfl, hwider.failsLater hwide.allPaths hshared hshared' hfirst.fault hpatch he hp
        hraw hfirst'.fault⟩

/-! The second resource has a patch whose two paths are both missing, behind one that is not
checked. -/

def unregisteredDraft : CompositionDraft where
  composite := sampleComposite
  name := "sample"
  resources := [
    { base := sampleBase },
    { base := sampleBase,
      patches := [
        ⟨.simple "nowhere" "nothing", false⟩,
        ⟨.simple "status.note" "data[note]", true⟩] }]

def registeredDraft : CompositionDraft :=
  (unregisteredDraft.registerAt 1 ["status[note]"] .composite).registerAt 1 ["data.note"] .base

theorem finalize_unregisteredDraft :
    (∃ c, registeredDraft.finalize.2 = .ok c ∧
      (registeredDraft.registerAt 0 ["data.note", "data.note"] .base).finalize.2 = .ok c) ∧
    ∃ r patch endpoint place, unregisteredDraft.resources[1]? = some r ∧
      r.patches[1]? = some ⟨patch, true⟩ ∧ patch.pathAt? endpoint = some (place, "status.note") ∧
      ((∃ c, (unregisteredDraft.registerAt 1 ["status.note"] place).finalize.2 = .ok c) ∨
        ∃ j name cause, (unregisteredDraft.registerAt 1 ["status.note"] place).finalize.2 =
            .error (.composedTemplate j name cause) ∧
          (1 < j ∨ 1 = j ∧ ResourceDraft.FailsLater 1 endpoint cause)) := by
  have hrefused : unregisteredDraft.finalize.2 = .error (.composedTemplate 1 none (.invalidPatch 1
      (.fromFieldPath (.unresolved "status.note" "example.org/v1/XThing")))) := by
    decide +kernel
  obtain ⟨c, haccepted⟩ : ∃ c, registeredDraft.finalize.2 = .ok c :=
    Outcome.exists_ok_of_isOk (by decide +kernel)
  obtain ⟨path, hpath⟩ : ∃ path, FieldPath.parse "data.note" = .ok path :=
    Outcome.exists_ok_of_isOk (by decide +kernel)
  have hwide : registeredDraft.Widens
      (registeredDraft.registerAt 0 ["data.note", "data.note"] .base) :=
    widens_registerAt 0 (by simp [hpath]) .base
  constructor
  · exact ⟨c, haccepted, (finalize_registered registeredDraft).1 _ c hwide haccepted⟩
  · obtain ⟨r, patch, endpoint, place, hr, hpatch, -, hp, hnext⟩ :=
      (finalize_registered unregisteredDraft).2 1 none 1 _ "status.note" hrefused rfl
    exact ⟨r, patch, endpoint, place, hr, hpatch, hp, hnext⟩

example : (unregisteredDraft.registerAt 1 ["status.note"] .composite).finalize.2 =
    .error (.composedTemplate 1 none (.invalidPatch 1
      (.toFieldPath (.unresolved "data[note]" "v1/ConfigMap")))) := by
  decide +kernel

end CompositionDraft

end CompositionGen
