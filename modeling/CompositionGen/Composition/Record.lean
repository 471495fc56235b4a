import CompositionGen.Composition
import CompositionGen.Patch.Record

/-!
# Compositions in JSON

Reading and writing of compositions and their parts. Members are written in declaration order.
-/

namespace CompositionGen

open Json (record? required? optional? withDefault? list? optionalMember listMember)

/-! ## Connection details -/

def ConnectionDetailType.name : ConnectionDetailType → String
  | .fromConnectionSecretKey => "FromConnectionSecretKey"
  | .fromFieldPath => "FromFieldPath"
  | .fromValue => "FromValue"

def ConnectionDetailType.ofName? (name : String) : Option ConnectionDetailType :=
  [fromConnectionSecretKey, fromFieldPath, fromValue].find? (·.name == name)

def ConnectionDetail.ofJson? (value : Json) : Option ConnectionDetail := do
  let members ← record?
    ["name", "type", "fromConnectionSecretKey", "fromFieldPath", "value"] value
  some {
    name := ← optional? Json.string? "name" members
    type := ← optional? (Json.choice? ConnectionDetailType.ofName?) "type" members
    fromConnectionSecretKey := ← optional? Json.string? "fromConnectionSecretKey" members
    fromFieldPath := ← optional? Json.string? "fromFieldPath" members
    value := ← optional? Json.string? "value" members }

def ConnectionDetail.toJson (d : ConnectionDetail) : Json :=
  .object (optionalMember .string "name" d.name
    ++ optionalMember (fun t => .string t.name) "type" d.type
    ++ optionalMember .string "fromConnectionSecretKey" d.fromConnectionSecretKey
    ++ optionalMember .string "fromFieldPath" d.fromFieldPath
    ++ optionalMember .string "value" d.value)

/-! ## Readiness checks -/

def ReadinessCheckType.name : ReadinessCheckType → String
  | .nonEmpty => "NonEmpty"
  | .matchString => "MatchString"
  | .matchInteger => "MatchInteger"
  | .matchTrue => "MatchTrue"
  | .matchFalse => "MatchFalse"
  | .matchCondition => "MatchCondition"
  | .none => "None"

def ReadinessCheckType.ofName? (name : String) : Option ReadinessCheckType :=
  [nonEmpty, matchString, matchInteger, matchTrue, matchFalse, matchCondition, none].find?
    (·.name == name)

def ConditionMatch.ofJson? (value : Json) : Option ConditionMatch := do
  let members ← record? ["type", "status"] value
  some ⟨← required? Json.string? "type" members, ← required? Json.string? "status" members⟩

def ConditionMatch.toJson (c : ConditionMatch) : Json :=
  .object [("type", .string c.type), ("status", .string c.status)]

def ReadinessCheck.ofJson? (value : Json) : Option ReadinessCheck := do
  let members ← record?
    ["type", "fieldPath", "matchString", "matchInteger", "matchCondition"] value
  some {
    type := ← required? (Json.choice? ReadinessCheckType.ofName?) "type" members
    fieldPath := ← optional? Json.string? "fieldPath" members
    matchString := ← optional? Json.string? "matchString" members
    matchInteger := ← optional? Json.int64? "matchInteger" members
    matchCondition := ← optional? ConditionMatch.ofJson? "matchCondition" members }

def ReadinessCheck.toJson (c : ReadinessCheck) : Json :=
  .object ([("type", .string c.type.name)]
    ++ optionalMember .string "fieldPath" c.fieldPath
    ++ optionalMember .string "matchString" c.matchString
    ++ optionalMember (fun n => .number (.int n)) "matchInteger" c.matchInteger
    ++ optionalMember ConditionMatch.toJson "matchCondition" c.matchCondition)

/-! ## Templates and steps -/

/-- Reads a reference that is a name alone. -/
def nameReference? (value : Json) : Option String := do
  required? Json.string? "name" (← record? ["name"] value)

def nameReference (name : String) : Json := .object [("name", .string name)]

def ComposedTemplate.ofJson? (value : Json) : Option ComposedTemplate := do
  let members ← record?
    ["name", "base", "patches", "connectionDetails", "readinessChecks"] value
  some {
    name := ← optional? Json.string? "name" members
    base := ← required? some "base" members
    patches := ← withDefault? [] (list? Patch.ofJson?) "patches" members
    connectionDetails :=
      ← withDefault? [] (list? ConnectionDetail.ofJson?) "connectionDetails" members
    readinessChecks := ← withDefault? [] (list? ReadinessCheck.ofJson?) "readinessChecks" members }

def ComposedTemplate.toJson (t : ComposedTemplate) : Json :=
  .object (optionalMember .string "name" t.name
    ++ [("base", t.base)]
    ++ listMember Patch.toJson "patches" t.patches
    ++ listMember ConnectionDetail.toJson "connectionDetails" t.connectionDetails
    ++ listMember ReadinessCheck.toJson "readinessChecks" t.readinessChecks)

def PipelineStep.ofJson? (value : Json) : Option PipelineStep := do
  let members ← record? ["step", "functionRef", "input"] value
  some {
    step := ← required? Json.string? "step" members
    functionRef := ← required? nameReference? "functionRef" members
    input := ← optional? some "input" members }

def PipelineStep.toJson (s : PipelineStep) : Json :=
  .object ([("step", .string s.step), ("functionRef", nameReference s.functionRef)]
    ++ optionalMember id "input" s.input)

/-! ## Compositions -/

def CompositionMode.ofName? : String → Option CompositionMode
  | "Resources" => some .resources
  | "Pipeline" => some .pipeline
  | _ => none

def CompositionMode.ofJson? : Json → Option CompositionMode := Json.choice? ofName?

def CompositionMode.toJson (m : CompositionMode) : Json := .string m.name

def TypeReference.ofJson? (value : Json) : Option TypeReference := do
  let members ← record? ["apiVersion", "kind"] value
  some ⟨← required? Json.string? "apiVersion" members, ← required? Json.string? "kind" members⟩

def TypeReference.toJson (r : TypeReference) : Json :=
  .object [("apiVersion", .string r.apiVersion), ("kind", .string r.kind)]

def CompositionSpec.ofJson? (value : Json) : Option CompositionSpec := do
  let members ← record?
    ["compositeTypeRef", "mode", "resources", "pipeline", "writeConnectionSecretsToNamespace",
      "publishConnectionDetailsWithStoreConfigRef"] value
  some {
    compositeTypeRef := ← required? TypeReference.ofJson? "compositeTypeRef" members
    mode := ← required? CompositionMode.ofJson? "mode" members
    resources := ← withDefault? [] (list? ComposedTemplate.ofJson?) "resources" members
    pipeline := ← withDefault? [] (list? PipelineStep.ofJson?) "pipeline" members
    writeConnectionSecretsToNamespace :=
      ← optional? Json.string? "writeConnectionSecretsToNamespace" members
    publishConnectionDetailsWithStoreConfig :=
      ← optional? nameReference? "publishConnectionDetailsWithStoreConfigRef" members }

def CompositionSpec.toJson (s : CompositionSpec) : Json :=
  .object ([("compositeTypeRef", s.compositeTypeRef.toJson), ("mode", s.mode.toJson)]
    ++ listMember ComposedTemplate.toJson "resources" s.resources
    ++ listMember PipelineStep.toJson "pipeline" s.pipeline
    ++ optionalMember .string "writeConnectionSecretsToNamespace"
      s.writeConnectionSecretsToNamespace
    ++ optionalMember nameReference "publishConnectionDetailsWithStoreConfigRef"
      s.publishConnectionDetailsWithStoreConfig)

/-- Reads metadata, which is given as an object only. -/
def Metadata.ofJson? (value : Json) : Option Metadata := do
  let members ← value.object?
  some {
    annotations := ← optional? Json.stringMap? "annotations" members
    labels := ← optional? Json.stringMap? "labels" members
    name := ← optional? Json.string? "name" members }

def Metadata.toJson (m : Metadata) : Json :=
  .object (optionalMember Json.ofStringMap "annotations" m.annotations
    ++ optionalMember Json.ofStringMap "labels" m.labels
    ++ optionalMember .string "name" m.name)

def Composition.ofJson? (value : Json) : Option Composition := do
  let members ← record? ["apiVersion", "kind", "metadata", "spec"] value
  some {
    apiVersion := ← required? Json.string? "apiVersion" members
    kind := ← required? Json.string? "kind" members
    metadata := ← required? Metadata.ofJson? "metadata" members
    spec := ← required? CompositionSpec.ofJson? "spec" members }

def Composition.toJson (c : Composition) : Json :=
  .object [("apiVersion", .string c.apiVersion), ("kind", .string c.kind),
    ("metadata", c.metadata.toJson), ("spec", c.spec.toJson)]

end CompositionGen
