import CompositionGen.Builder
import CompositionGen.Demo.Api

/-!
# The example builder

One cluster role whose rules are filled from the parameters of the composite, and which carries
the labels of the claim.
-/

namespace CompositionGen.Demo

def patchedRule (member : String) : Json :=
  .normalize (.object [("verbs", .array [.string "GET"]), ("apiGroups", .array [.string "v1"]),
    (member, .array [.string ""])])

def clusterRole : ObjectRef where
  kind := Kubernetes.clusterRoleKind
  value := .object [("apiVersion", .string Kubernetes.clusterRoleKind.apiVersion),
    ("kind", .string Kubernetes.clusterRoleKind.kind), ("metadata", .object []),
    ("rules", .array [patchedRule "resources", patchedRule "resourceNames"])]
  schema := Kubernetes.clusterRoleSchema

/-- The labels of a claim, namespace first. -/
def claimLabels : List String := ["crossplane.io/claim-namespace", "crossplane.io/claim-name"]

def exampleCalls : List DraftCall := [
  .withName "example",
  .newResource clusterRole [
    .registerLabels claimLabels,
    .withName "cluster-role",
    .withPatches ([
      Patch.simple "spec.parameters.exampleField" "rules[0].resources[0]",
      Patch.simple "spec.providerConfigRef.name" "rules[1].resourceNames[0]"]
      ++ claimLabels.map fun key => Patch.simple (labelPath key) (labelPath key))]]

def exampleBuilder : Builder where
  composite := xExample
  build _ := ({}, .done exampleCalls)

end CompositionGen.Demo
