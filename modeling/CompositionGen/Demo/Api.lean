import CompositionGen.Object.Kubernetes

/-!
# The example composite API

`XExample` is the composite type of the demo builders: a parameter and an optional reference to
a provider configuration. `XExampleSpec` is its specification used on its own.
-/

namespace CompositionGen.Demo

open Schema (leaf sharedNode objectNode allNode anyNode)

structure Parameters where
  exampleField : String
  deriving DecidableEq, Repr

structure XExampleSpec where
  parameters : Parameters
  providerConfigRef : Option String
  deriving DecidableEq, Repr

def xExampleKind : ObjectKind := ⟨"example.crossbuilder.io", "v1alpha1", "XExample"⟩

/-- Reads the parameters; the field is empty where it is not given. -/
def Parameters.ofJson? (value : Json) : Option Parameters := do
  let members ← value.record? ["exampleField"]
  some ⟨← Json.withDefault? "" Json.string? "exampleField" members⟩

def providerName? (value : Json) : Option String := do
  Json.required? Json.string? "name" (← value.record? ["name"])

namespace XExampleSpec

/-- The specification of an example of which nothing is known. -/
def default : XExampleSpec := ⟨⟨""⟩, none⟩

def ofJson? (value : Json) : Option XExampleSpec := do
  let members ← value.record? ["parameters", "providerConfigRef"]
  some ⟨← Json.withDefault? ⟨""⟩ Parameters.ofJson? "parameters" members,
    ← Json.optional? providerName? "providerConfigRef" members⟩

def toJson (spec : XExampleSpec) : Json :=
  .object ([("parameters", .object [("exampleField", .string spec.parameters.exampleField)])]
    ++ Json.optionalMember (fun name => .object [("name", .string name)]) "providerConfigRef"
      spec.providerConfigRef)

end XExampleSpec

/-! ## Schemas -/

def specProperties : List (String × Json) := [
  ("parameters", allNode [sharedNode "XExampleParameters"]),
  ("providerConfigRef", anyNode [sharedNode "ProviderConfigReference", leaf])]

def definitions : List (String × Json) := [
  ("ProviderConfigReference", objectNode [("name", leaf)]),
  ("XExampleParameters", objectNode [("exampleField", leaf)]),
  ("XExampleSpec", objectNode specProperties)] ++ Kubernetes.definitions

def xExampleSchema : Schema := Schema.document definitions [
  ("metadata", Kubernetes.metaNode "ObjectMeta"), ("spec", sharedNode "XExampleSpec")]

def xExampleSpecSchema : Schema := Schema.document definitions specProperties

/-! ## Objects -/

def xExampleValue (metadata : Json) (spec : XExampleSpec) : Json :=
  .object [("apiVersion", .string xExampleKind.apiVersion), ("kind", .string xExampleKind.kind),
    ("metadata", metadata), ("spec", spec.toJson)]

def xExample : ObjectRef :=
  ⟨xExampleKind, xExampleValue (.object []) XExampleSpec.default, xExampleSchema⟩

/-- Reads an example: a type tag is not looked at. -/
def xExample? (value : Json) : Option ObjectRef := do
  let members ← value.record? ["metadata", "spec"]
  let metadata ← Json.required? Kubernetes.objectMeta.read? "metadata" members
  let spec ← Json.required? XExampleSpec.ofJson? "spec" members
  some ⟨xExampleKind, .normalize (xExampleValue metadata spec), xExampleSchema⟩

/-- Reads a specification used on its own, under a kind of its own. -/
def xExampleSpec? (kind : ObjectKind) (value : Json) : Option ObjectRef := do
  some ⟨kind, (← XExampleSpec.ofJson? value).toJson, xExampleSpecSchema⟩

end CompositionGen.Demo
