import CompositionGen.Proofs.Composition.ReadBack

/-!
# Writing what was read

Whatever form a document is given in, what is read from it is written in one form, and that form
is read as the same value: reading never gives a `null` where absence is meant, never keeps a
known type as unknown, and never gives a number that is too large to be read.
-/

namespace CompositionGen

/-- Writing what was read is a normal form: it is read as the same value, it is written as itself
again, and nothing that was read is lost in it. -/
structure NormalForm {α : Type} (read : Json → Option α) (write : α → Json) : Prop where
  reads_back : ∀ value x, read value = some x → read (write x) = some x
  idempotent : ∀ value written, (read value).map write = some written →
    (read written).map write = some written
  faithful : ∀ value other x y, read value = some x → read other = some y → write x = write y →
    x = y

namespace NormalForm

variable {α : Type} {read : Json → Option α} {write : α → Json}

/-- It suffices that what is read is read back. -/
theorem of_reads_back (h : ∀ value x, read value = some x → read (write x) = some x) :
    NormalForm read write where
  reads_back := h
  idempotent value written hwritten := by
    obtain ⟨x, hx, rfl⟩ := Option.map_eq_some_iff.mp hwritten
    rw [h value x hx, Option.map_some]
  faithful value other x y hx hy hwrite := by
    have hback : read (write x) = some y := hwrite ▸ h other y hy
    exact Option.some.inj ((h value x hx).symm.trans hback)

/-- A record that is read back whatever it holds. -/
theorem of_total (h : ∀ x, read (write x) = some x) : NormalForm read write :=
  of_reads_back fun _ x _ => h x

end NormalForm

namespace Json

variable {α : Type} {read : Json → Option α} {name : String} {members : List (String × Json)}

/-! ## Where a field was read from -/

theorem exists_of_required? {x : α} (h : required? read name members = some x) :
    ∃ value, read value = some x :=
  let ⟨value, _, hread⟩ := Option.bind_eq_some_iff.mp h
  ⟨value, hread⟩

/-- An optional field that is there was read from something other than `null`. -/
theorem exists_of_optional? {x : α} (h : optional? read name members = some (some x)) :
    ∃ value, value ≠ .null ∧ read value = some x := by
  unfold optional? at h
  split at h
  · cases h
  · cases h
  · rename_i value hnull _
    obtain ⟨y, hread, hy⟩ := Option.map_eq_some_iff.mp h
    cases hy
    exact ⟨value, hnull, hread⟩

theorem optional?_some_ne_null {value : Option Json}
    (h : optional? some name members = some value) : value ≠ some .null := by
  rintro rfl
  obtain ⟨given, hnull, hread⟩ := exists_of_optional? h
  exact hnull (Option.some.inj hread)

/-- Each item of a list that is read was read from an item. -/
theorem exists_of_mem_mapM {values : List Json} {items : List α}
    (h : values.mapM read = some items) {x : α} (hx : x ∈ items) : ∃ item, read item = some x := by
  induction values generalizing items with
  | nil =>
    cases h
    cases hx
  | cons value rest ih =>
    simp only [List.mapM_cons, bind, Option.bind_eq_some_iff, pure, Option.some.injEq] at h
    obtain ⟨first, hfirst, others, hothers, rfl⟩ := h
    obtain rfl | hx := List.mem_cons.mp hx
    · exact ⟨value, hfirst⟩
    · exact ih hothers hx

/-- Each item of a list with a default was read from a value. -/
theorem exists_of_mem_withDefault? {items : List α}
    (h : withDefault? [] (list? read) name members = some items) {x : α} (hx : x ∈ items) :
    ∃ item, read item = some x := by
  unfold withDefault? at h
  split at h
  · cases h
    cases hx
  · rename_i value hvalue
    cases value with
    | array values => exact exists_of_mem_mapM h hx
    | _ => cases h

theorem isInt64_of_int64? {value : Json} {n : Int} (h : int64? value = some n) :
    Shape.isInt64 n := by
  have hbounds := (Option.filter_eq_some_iff.mp h).2
  simp only [decide_eq_true_eq] at hbounds
  simp only [Shape.isInt64, Bool.and_eq_true, decide_eq_true_eq]
  omega

end Json

open Json (exists_of_required? exists_of_optional? exists_of_mem_withDefault?
  optional?_some_ne_null)

/-! ## What reading gives -/

theorem PatchType.readable_ofName (name : String) : (ofName name).Readable := by
  by_cases h : name ∈ known.map PatchType.name
  · obtain ⟨t, ht, rfl⟩ := List.mem_map.mp h
    rw [ofName_name_of_mem ht]
    exact asRead_eq_iff.mp (ofName_name_of_mem ht)
  · rw [Patch.ofName_eq_other h]
    rintro other ⟨rfl⟩
    exact h

theorem PatchType.readable_of_ofJson? {value : Json} {t : PatchType}
    (h : ofJson? value = some t) : t.Readable := by
  obtain ⟨name, -, rfl⟩ := Option.map_eq_some_iff.mp h
  exact readable_ofName name

theorem Combine.string_ne_null_of_ofJson? {value : Json} {c : Combine}
    (h : ofJson? value = some c) : c.string ≠ some .null := by
  simp only [ofJson?, bind, Option.bind_eq_some_iff, Option.some.injEq] at h
  obtain ⟨members, -, inputs, -, strategy, -, string, hstring, rfl⟩ := h
  exact optional?_some_ne_null hstring

theorem Patch.readable_of_ofJson? {value : Json} {p : Patch} (h : ofJson? value = some p) :
    p.Readable := by
  simp only [ofJson?, bind, Option.bind_eq_some_iff, Option.some.injEq] at h
  obtain ⟨members, -, type, htype, source, -, target, -, combine, hcombine, transforms, -,
    policy, -, set, -, rfl⟩ := h
  constructor
  · rintro t rfl
    obtain ⟨given, -, hread⟩ := exists_of_optional? htype
    exact PatchType.readable_of_ofJson? hread
  · rintro c rfl
    obtain ⟨given, -, hread⟩ := exists_of_optional? hcombine
    exact Combine.string_ne_null_of_ofJson? hread

theorem ReadinessCheck.sized_of_ofJson? {value : Json} {c : ReadinessCheck}
    (h : ofJson? value = some c) : c.Sized := by
  simp only [ofJson?, bind, Option.bind_eq_some_iff, Option.some.injEq] at h
  obtain ⟨members, -, type, -, path, -, string, -, integer, hinteger, condition, -, rfl⟩ := h
  rintro n rfl
  obtain ⟨given, -, hread⟩ := exists_of_optional? hinteger
  exact Json.isInt64_of_int64? hread

/-- A template that was read can be read back. -/
theorem ComposedTemplate.of_ofJson? {value : Json} {t : ComposedTemplate}
    (h : ofJson? value = some t) : (∀ p ∈ t.patches, p.Readable) ∧ t.Sized := by
  simp only [ofJson?, bind, Option.bind_eq_some_iff, Option.some.injEq] at h
  obtain ⟨members, -, name, -, base, -, patches, hpatches, details, -, checks, hchecks, rfl⟩ := h
  constructor
  · intro p hp
    obtain ⟨item, hitem⟩ := exists_of_mem_withDefault? hpatches hp
    exact Patch.readable_of_ofJson? hitem
  · intro c hc
    obtain ⟨item, hitem⟩ := exists_of_mem_withDefault? hchecks hc
    exact ReadinessCheck.sized_of_ofJson? hitem

theorem PipelineStep.input_ne_null_of_ofJson? {value : Json} {s : PipelineStep}
    (h : ofJson? value = some s) : s.input ≠ some .null := by
  simp only [ofJson?, bind, Option.bind_eq_some_iff, Option.some.injEq] at h
  obtain ⟨members, -, step, -, function, -, input, hinput, rfl⟩ := h
  exact optional?_some_ne_null hinput

/-- A specification that is read as it was written. -/
structure CompositionSpec.Readable (s : CompositionSpec) : Prop where
  patches : ∀ t ∈ s.resources, ∀ p ∈ t.patches, p.Readable
  sized : ∀ t ∈ s.resources, t.Sized
  inputs : ∀ step ∈ s.pipeline, step.input ≠ some .null

theorem CompositionSpec.Readable.asRead_eq {s : CompositionSpec} (h : s.Readable) :
    s.asRead = s := by
  have hresources : s.resources.map ComposedTemplate.asRead = s.resources :=
    map_eq_self_iff.mpr fun t ht => ComposedTemplate.asRead_eq_iff.mpr (h.patches t ht)
  have hpipeline : s.pipeline.map PipelineStep.asRead = s.pipeline :=
    map_eq_self_iff.mpr fun p hp => PipelineStep.asRead_eq_iff.mpr (h.inputs p hp)
  rw [asRead, hresources, hpipeline]

theorem CompositionSpec.readable_of_ofJson? {value : Json} {s : CompositionSpec}
    (h : ofJson? value = some s) : s.Readable := by
  simp only [ofJson?, bind, Option.bind_eq_some_iff, Option.some.injEq] at h
  obtain ⟨members, -, ref, -, mode, -, resources, hresources, pipeline, hpipeline, secrets, -,
    config, -, rfl⟩ := h
  have hread : ∀ t ∈ resources, (∀ p ∈ t.patches, p.Readable) ∧ t.Sized := by
    intro t ht
    obtain ⟨item, hitem⟩ := exists_of_mem_withDefault? hresources ht
    exact ComposedTemplate.of_ofJson? hitem
  refine ⟨fun t ht => (hread t ht).1, fun t ht => (hread t ht).2, fun step hstep => ?_⟩
  obtain ⟨item, hitem⟩ := exists_of_mem_withDefault? hpipeline hstep
  exact PipelineStep.input_ne_null_of_ofJson? hitem

theorem Composition.readable_of_ofJson? {value : Json} {c : Composition}
    (h : ofJson? value = some c) : c.spec.Readable := by
  simp only [ofJson?, bind, Option.bind_eq_some_iff, Option.some.injEq] at h
  obtain ⟨members, -, version, -, kind, -, metadata, -, spec, hspec, rfl⟩ := h
  obtain ⟨given, hread⟩ := exists_of_required? hspec
  exact CompositionSpec.readable_of_ofJson? hread

/-! ## The normal forms -/

theorem Combine.normalForm : NormalForm ofJson? toJson := .of_reads_back fun _ c h => by
  rw [ofJson?_toJson, asRead, filter_isNull_eq_iff.mpr (string_ne_null_of_ofJson? h)]

theorem Patch.normalForm : NormalForm ofJson? toJson := .of_reads_back fun _ p h => by
  rw [ofJson?_toJson, asRead_eq_iff.mpr (readable_of_ofJson? h)]

theorem ReadinessCheck.normalForm : NormalForm ofJson? toJson :=
  .of_reads_back fun _ _ h => ofJson?_toJson (sized_of_ofJson? h)

theorem PipelineStep.normalForm : NormalForm ofJson? toJson := .of_reads_back fun _ s h => by
  rw [ofJson?_toJson, asRead_eq_iff.mpr (input_ne_null_of_ofJson? h)]

theorem ComposedTemplate.normalForm : NormalForm ofJson? toJson :=
  .of_reads_back fun _ t h => by
    obtain ⟨readable, sized⟩ := of_ofJson? h
    rw [ofJson?_toJson sized, asRead_eq_iff.mpr readable]

theorem CompositionSpec.normalForm : NormalForm ofJson? toJson := .of_reads_back fun _ s h => by
  have readable := readable_of_ofJson? h
  rw [ofJson?_toJson readable.sized, readable.asRead_eq]

theorem Composition.normalForm : NormalForm ofJson? toJson := .of_reads_back fun _ c h => by
  have readable := readable_of_ofJson? h
  rw [ofJson?_toJson readable.sized, asRead, readable.asRead_eq]

/-- Whatever is read as a part of a composition is written in its normal form: for every part,
reading undoes writing what was read, writing what was written gives the same again, and two
parts that were read are written alike only if they are the same. -/
theorem normalForms :
    NormalForm Patch.ofJson? Patch.toJson ∧
    NormalForm Combine.ofJson? Combine.toJson ∧
    NormalForm PatchPolicy.ofJson? PatchPolicy.toJson ∧
    NormalForm ConnectionDetail.ofJson? ConnectionDetail.toJson ∧
    NormalForm ReadinessCheck.ofJson? ReadinessCheck.toJson ∧
    NormalForm PipelineStep.ofJson? PipelineStep.toJson ∧
    NormalForm ComposedTemplate.ofJson? ComposedTemplate.toJson ∧
    NormalForm CompositionSpec.ofJson? CompositionSpec.toJson ∧
    NormalForm Composition.ofJson? Composition.toJson :=
  ⟨Patch.normalForm, Combine.normalForm, .of_total PatchPolicy.ofJson?_toJson,
    .of_total ConnectionDetail.ofJson?_toJson, ReadinessCheck.normalForm,
    PipelineStep.normalForm, ComposedTemplate.normalForm, CompositionSpec.normalForm,
    Composition.normalForm⟩

/-- A step that is given as a list, with a name that is not known and no input, is written as an
object without either. -/
example :
    (PipelineStep.ofJson? (.array [.string "run",
      .object [("name", .string "auto-ready"), ("version", .string "v1")], .null])).map
        PipelineStep.toJson =
      some (.object [("step", .string "run"),
        ("functionRef", .object [("name", .string "auto-ready")])]) := by
  decide +kernel

end CompositionGen
