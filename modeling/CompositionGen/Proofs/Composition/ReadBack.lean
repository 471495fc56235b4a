import CompositionGen.Composition.Record
import CompositionGen.Object.Shape
import CompositionGen.Proofs.Json.Fields
import CompositionGen.Proofs.Patch.Validity

/-!
# Reading compositions back

A composition that is written to a value and read from it again is the same one but for what has
the written form of something else: a `null` that is given as the input of a step or in a
combination is read as absent, and a type that is kept as unknown under a known name is read as the
known type.
-/

namespace CompositionGen

open Json (required? optional? list? record? required?_written optional?_written optional?_string
  optional?_any withDefault?_written withDefault?_any mapM_map_of_reads stringMap?_ofStringMap)

theorem map_eq_self_iff {α : Type} {f : α → α} {items : List α} :
    items.map f = items ↔ ∀ a ∈ items, f a = a := by
  constructor
  · intro h
    exact List.map_inj_left.mp (h.trans (List.map_id items).symm)
  · intro h
    rw [List.map_congr_left h, List.map_id']

theorem filter_isNull_eq_iff {value : Option Json} :
    value.filter (!·.isNull) = value ↔ value ≠ some .null := by
  rcases value with _ | (_ | _ | _ | _ | _ | _) <;> simp [Option.filter, Json.isNull]

/-! ## Patches -/

namespace PatchType

/-- The type that a written type is read as. -/
def asRead (t : PatchType) : PatchType := ofName t.name

theorem ofJson?_toJson (t : PatchType) : ofJson? t.toJson = some t.asRead := rfl

/-- A type that is not kept as unknown under a known name. -/
def Readable (t : PatchType) : Prop :=
  ∀ name, t = .other name → name ∉ known.map PatchType.name

theorem ofName_name_of_mem {t : PatchType} (h : t ∈ known) : ofName t.name = t := by
  revert t
  decide

theorem asRead_eq_iff {t : PatchType} : t.asRead = t ↔ t.Readable := by
  cases t with
  | other name =>
    constructor
    · rintro h _ ⟨rfl⟩ hknown
      obtain ⟨t, ht, rfl⟩ := List.mem_map.mp hknown
      -- The name of a known type is read as this type.
      have hother : t = .other t.name := (ofName_name_of_mem ht).symm.trans h
      rw [hother] at ht
      simp [known] at ht
    · intro h
      exact Patch.ofName_eq_other (h name rfl)
  | _ => exact iff_of_true (ofName_name_of_mem (by decide)) nofun

end PatchType

theorem CombineVariable.ofJson?_toJson (v : CombineVariable) : ofJson? v.toJson = some v := by
  simp only [ofJson?, toJson, record?, bind, Option.bind_some]
  rw [required?_written "fromFieldPath" (.string v.fromFieldPath) rfl]
  rfl

namespace Combine

/-- The combination that a written one is read as. -/
def asRead (c : Combine) : Combine := { c with string := c.string.filter (!·.isNull) }

theorem ofJson?_toJson (c : Combine) : ofJson? c.toJson = some c.asRead := by
  have hinputs : list? CombineVariable.ofJson? (.array (c.inputs.map CombineVariable.toJson)) =
      some (c.inputs.map id) := mapM_map_of_reads fun v _ => v.ofJson?_toJson
  rw [List.map_id] at hinputs
  simp only [ofJson?, toJson, record?, bind, Option.bind_some]
  rw [required?_written "variables" (.array (c.inputs.map CombineVariable.toJson)) rfl,
    required?_written "strategy" c.strategy.toJson rfl,
    optional?_any "string" c.string (by simp [lookup?]), hinputs]
  rfl

end Combine

theorem PatchPolicy.ofJson?_toJson (p : PatchPolicy) : ofJson? p.toJson = some p := by
  simp only [ofJson?, toJson, record?, bind, Option.bind_some]
  rw [optional?_string "fromFieldPath" p.fromFieldPath (by simp),
    optional?_string "toFieldPath" p.toFieldPath (by simp)]
  rfl

namespace Patch

/-- The patch that a written one is read as. -/
def asRead (p : Patch) : Patch :=
  { p with type := p.type.map PatchType.asRead, combine := p.combine.map Combine.asRead }

/-- A patch that is read as it was written. -/
structure Readable (p : Patch) : Prop where
  type : ∀ t, p.type = some t → t.Readable
  combine : ∀ c, p.combine = some c → c.string ≠ some .null

theorem asRead_eq_iff {p : Patch} : p.asRead = p ↔ p.Readable := by
  obtain ⟨type, source, target, combine, transforms, policy, set⟩ := p
  have htype : type.map PatchType.asRead = type ↔ ∀ t, type = some t → t.Readable := by
    cases type with
    | none => simp
    | some t => simp [PatchType.asRead_eq_iff]
  have hcombine : combine.map Combine.asRead = combine ↔
      ∀ c, combine = some c → c.string ≠ some .null := by
    rcases combine with _ | ⟨inputs, strategy, string⟩
    · simp
    · simp [Combine.asRead, filter_isNull_eq_iff]
  simp only [asRead, mk.injEq, htype, hcombine, true_and, and_true]
  exact ⟨fun h => ⟨h.1, h.2⟩, fun h => ⟨h.type, h.combine⟩⟩

theorem ofJson?_toJson (p : Patch) : ofJson? p.toJson = some p.asRead := by
  simp only [ofJson?, toJson, record?, bind, Option.bind_some]
  rw [optional?_written PatchType.toJson "type" p.type (by simp) nofun fun t _ =>
      t.ofJson?_toJson,
    optional?_string "fromFieldPath" p.fromFieldPath (by simp),
    optional?_string "toFieldPath" p.toFieldPath (by simp),
    optional?_written Combine.toJson "combine" p.combine (by simp) nofun fun c _ =>
      c.ofJson?_toJson,
    withDefault?_any "transforms" p.transforms (by simp),
    optional?_written PatchPolicy.toJson "policy" p.policy (by simp) nofun fun q _ =>
      q.ofJson?_toJson,
    optional?_string "patchSetName" p.patchSetName (by simp)]
  simp [asRead]

end Patch

/-! ## Connection details and readiness checks -/

theorem ConnectionDetailType.ofName?_name (t : ConnectionDetailType) :
    ofName? t.name = some t := by
  cases t <;> decide

theorem ConnectionDetail.ofJson?_toJson (d : ConnectionDetail) : ofJson? d.toJson = some d := by
  simp only [ofJson?, toJson, record?, bind, Option.bind_some]
  rw [optional?_string "name" d.name (by simp),
    optional?_written (fun t => .string t.name) "type" d.type (by simp) nofun fun t _ =>
      ConnectionDetailType.ofName?_name t,
    optional?_string "fromConnectionSecretKey" d.fromConnectionSecretKey (by simp),
    optional?_string "fromFieldPath" d.fromFieldPath (by simp),
    optional?_string "value" d.value (by simp)]
  simp

theorem ReadinessCheckType.ofName?_name (t : ReadinessCheckType) : ofName? t.name = some t := by
  cases t <;> decide

theorem ConditionMatch.ofJson?_toJson (c : ConditionMatch) : ofJson? c.toJson = some c := by
  simp only [ofJson?, toJson, record?, bind, Option.bind_some]
  rw [required?_written "type" (.string c.type) rfl,
    required?_written "status" (.string c.status) rfl]
  rfl

namespace ReadinessCheck

/-- A check whose number, if it has one, is a signed integer of 64 bits. -/
def Sized (c : ReadinessCheck) : Prop := ∀ n, c.matchInteger = some n → Shape.isInt64 n

theorem int64?_of_isInt64 {n : Int} (h : Shape.isInt64 n) :
    Json.int64? (.number (.int n)) = some n := by
  simp only [Shape.isInt64, Bool.and_eq_true, decide_eq_true_eq] at h
  simp only [Json.int64?, Json.intIn?, Json.int?, Option.filter]
  rw [if_pos]
  simp only [decide_eq_true_eq]
  omega

theorem ofJson?_toJson {c : ReadinessCheck} (sized : c.Sized) : ofJson? c.toJson = some c := by
  simp only [ofJson?, toJson, record?, bind, Option.bind_some]
  rw [required?_written "type" (.string c.type.name) rfl,
    optional?_string "fieldPath" c.fieldPath (by simp [lookup?]),
    optional?_string "matchString" c.matchString (by simp [lookup?]),
    optional?_written (fun n => .number (.int n)) "matchInteger" c.matchInteger (by simp [lookup?])
      (fun _ => Json.noConfusion) fun n hn => int64?_of_isInt64 (sized n hn),
    optional?_written ConditionMatch.toJson "matchCondition" c.matchCondition (by simp [lookup?])
      (fun _ => Json.noConfusion) fun m _ => m.ofJson?_toJson]
  simp [Json.choice?, ReadinessCheckType.ofName?_name]

end ReadinessCheck

/-! ## Templates and steps -/

theorem nameReference?_nameReference (name : String) :
    nameReference? (nameReference name) = some name := rfl

namespace ComposedTemplate

/-- The template that a written one is read as. -/
def asRead (t : ComposedTemplate) : ComposedTemplate :=
  { t with patches := t.patches.map Patch.asRead }

/-- A template all of whose checks have numbers of 64 bits. -/
def Sized (t : ComposedTemplate) : Prop := ∀ c ∈ t.readinessChecks, c.Sized

theorem asRead_eq_iff {t : ComposedTemplate} : t.asRead = t ↔ ∀ p ∈ t.patches, p.Readable := by
  obtain ⟨name, base, patches, details, checks⟩ := t
  simp only [asRead, mk.injEq, map_eq_self_iff, Patch.asRead_eq_iff, true_and, and_true]

theorem ofJson?_toJson {t : ComposedTemplate} (sized : t.Sized) :
    ofJson? t.toJson = some t.asRead := by
  simp only [ofJson?, toJson, record?, bind, Option.bind_some]
  rw [optional?_string "name" t.name (by simp [lookup?]),
    required?_written "base" t.base (by simp [lookup?]),
    withDefault?_written Patch.toJson "patches" t.patches (by simp [lookup?]) fun p _ =>
      p.ofJson?_toJson,
    withDefault?_written ConnectionDetail.toJson "connectionDetails" t.connectionDetails
      (by simp [lookup?]) fun d _ => d.ofJson?_toJson,
    withDefault?_written ReadinessCheck.toJson "readinessChecks" t.readinessChecks
      (by simp [lookup?]) fun c hc => ReadinessCheck.ofJson?_toJson (sized c hc)]
  simp [asRead]

end ComposedTemplate

namespace PipelineStep

/-- The step that a written one is read as. -/
def asRead (s : PipelineStep) : PipelineStep := { s with input := s.input.filter (!·.isNull) }

theorem asRead_eq_iff {s : PipelineStep} : s.asRead = s ↔ s.input ≠ some .null := by
  obtain ⟨step, functionRef, input⟩ := s
  simp only [asRead, mk.injEq, filter_isNull_eq_iff, true_and]

theorem ofJson?_toJson (s : PipelineStep) : ofJson? s.toJson = some s.asRead := by
  simp only [ofJson?, toJson, record?, bind, Option.bind_some]
  rw [required?_written "step" (.string s.step) rfl,
    required?_written "functionRef" (nameReference s.functionRef) rfl,
    optional?_any "input" s.input (by simp [lookup?]), nameReference?_nameReference]
  rfl

end PipelineStep

/-! ## Compositions -/

theorem CompositionMode.ofJson?_toJson (m : CompositionMode) : ofJson? m.toJson = some m := by
  cases m <;> rfl

theorem TypeReference.ofJson?_toJson (r : TypeReference) : ofJson? r.toJson = some r := rfl

theorem Metadata.ofJson?_toJson (m : Metadata) : ofJson? m.toJson = some m := by
  simp only [ofJson?, toJson, Json.object?, bind, Option.bind_some]
  rw [optional?_written Json.ofStringMap "annotations" m.annotations (by simp) nofun fun map _ =>
      stringMap?_ofStringMap map,
    optional?_written Json.ofStringMap "labels" m.labels (by simp) nofun fun map _ =>
      stringMap?_ofStringMap map,
    optional?_string "name" m.name (by simp)]
  simp

namespace CompositionSpec

/-- What a written specification is read as. -/
def asRead (s : CompositionSpec) : CompositionSpec :=
  { s with
    resources := s.resources.map ComposedTemplate.asRead
    pipeline := s.pipeline.map PipelineStep.asRead }

theorem ofJson?_toJson {s : CompositionSpec} (sized : ∀ t ∈ s.resources, t.Sized) :
    ofJson? s.toJson = some s.asRead := by
  simp only [ofJson?, toJson, record?, bind, Option.bind_some]
  rw [required?_written "compositeTypeRef" s.compositeTypeRef.toJson rfl,
    required?_written "mode" s.mode.toJson rfl,
    withDefault?_written ComposedTemplate.toJson "resources" s.resources (by simp [lookup?])
      fun t ht => ComposedTemplate.ofJson?_toJson (sized t ht),
    withDefault?_written PipelineStep.toJson "pipeline" s.pipeline (by simp [lookup?]) fun p _ =>
      p.ofJson?_toJson,
    optional?_string "writeConnectionSecretsToNamespace" s.writeConnectionSecretsToNamespace
      (by simp [lookup?]),
    optional?_written nameReference "publishConnectionDetailsWithStoreConfigRef"
      s.publishConnectionDetailsWithStoreConfig (by simp [lookup?])
      (fun _ => Json.noConfusion) fun n _ => nameReference?_nameReference n,
    TypeReference.ofJson?_toJson, CompositionMode.ofJson?_toJson]
  simp [asRead]

end CompositionSpec

namespace Composition

/-- The composition that a written one is read as. -/
def asRead (c : Composition) : Composition := { c with spec := c.spec.asRead }

/-- A composition that is read as it was written. -/
structure Readable (c : Composition) : Prop where
  patches : ∀ t ∈ c.spec.resources, ∀ p ∈ t.patches, p.Readable
  inputs : ∀ s ∈ c.spec.pipeline, s.input ≠ some .null

theorem asRead_eq_iff {c : Composition} : c.asRead = c ↔ c.Readable := by
  obtain ⟨apiVersion, kind, metadata, ref, mode, resources, pipeline, secrets, config⟩ := c
  simp only [asRead, CompositionSpec.asRead, mk.injEq, CompositionSpec.mk.injEq, map_eq_self_iff,
    ComposedTemplate.asRead_eq_iff, PipelineStep.asRead_eq_iff, true_and, and_true]
  exact ⟨fun h => ⟨h.1, h.2⟩, fun h => ⟨h.patches, h.inputs⟩⟩

theorem ofJson?_toJson {c : Composition} (sized : ∀ t ∈ c.spec.resources, t.Sized) :
    ofJson? c.toJson = some c.asRead := by
  simp only [ofJson?, toJson, record?, bind, Option.bind_some]
  rw [required?_written "apiVersion" (.string c.apiVersion) rfl,
    required?_written "kind" (.string c.kind) rfl,
    required?_written "metadata" c.metadata.toJson rfl,
    required?_written "spec" c.spec.toJson rfl, Metadata.ofJson?_toJson,
    CompositionSpec.ofJson?_toJson sized]
  rfl

end Composition

end CompositionGen
