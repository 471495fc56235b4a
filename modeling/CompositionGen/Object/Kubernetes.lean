import CompositionGen.Object
import CompositionGen.Object.Shape
import CompositionGen.Schema.Node

/-!
# Kubernetes types

The built-in types that compositions use as bases: cluster roles and config maps. Each has a
shape, which says how a value of the type is read, and a schema, which says which paths exist.
-/

namespace CompositionGen.Kubernetes

open Shape (optional defaulted)
open Schema (leaf sharedNode objectNode listNode allNode)

/-! ## Shapes -/

def texts : Shape := .list .text

def textMap : Shape := .map .text

def ownerReference : Shape := .record [
  defaulted "apiVersion" (.string "") .text, optional "blockOwnerDeletion" .flag,
  optional "controller" .flag, defaulted "kind" (.string "") .text,
  defaulted "name" (.string "") .text, defaulted "uid" (.string "") .text]

def managedFieldsEntry : Shape := .record [
  optional "apiVersion" .text, optional "fieldsType" .text, optional "fieldsV1" .any,
  optional "manager" .text, optional "operation" .text, optional "subresource" .text,
  optional "time" .instant]

def objectMeta : Shape := .record [
  optional "annotations" textMap, optional "creationTimestamp" .instant,
  optional "deletionGracePeriodSeconds" .integer, optional "deletionTimestamp" .instant,
  optional "finalizers" texts, optional "generateName" .text, optional "generation" .integer,
  optional "labels" textMap, optional "managedFields" (.list managedFieldsEntry),
  optional "name" .text, optional "namespace" .text,
  optional "ownerReferences" (.list ownerReference), optional "resourceVersion" .text,
  optional "selfLink" .text, optional "uid" .text]

def labelSelectorRequirement : Shape := .record [
  defaulted "key" (.string "") .text, defaulted "operator" (.string "") .text,
  optional "values" texts]

def labelSelector : Shape := .record [
  optional "matchExpressions" (.list labelSelectorRequirement), optional "matchLabels" textMap]

def policyRule : Shape := .record [
  optional "apiGroups" texts, optional "nonResourceURLs" texts, optional "resourceNames" texts,
  optional "resources" texts, defaulted "verbs" (.array []) texts]

def clusterRole : Shape := .record [
  optional "aggregationRule"
    (.record [optional "clusterRoleSelectors" (.list labelSelector)]),
  defaulted "metadata" (.object []) objectMeta, optional "rules" (.list policyRule)]

def configMap : Shape := .record [
  optional "binaryData" (.map .bytes), optional "data" textMap, optional "immutable" .flag,
  defaulted "metadata" (.object []) objectMeta]

/-! ## Schemas -/

def metaName (name : String) : String := "io.k8s.apimachinery.pkg.apis.meta.v1." ++ name

def rbacName (name : String) : String := "io.k8s.api.rbac.v1." ++ name

def metaNode (name : String) : Json := allNode [sharedNode (metaName name)]

def leaves (names : List String) : List (String × Json) := names.map (·, leaf)

def leafList : Json := listNode leaf

def definitions : List (String × Json) := [
  (rbacName "AggregationRule",
    objectNode [("clusterRoleSelectors", listNode (sharedNode (metaName "LabelSelector")))]),
  (rbacName "PolicyRule",
    objectNode [("apiGroups", leafList), ("nonResourceURLs", leafList),
      ("resourceNames", leafList), ("resources", leafList), ("verbs", leafList)]),
  (metaName "FieldsV1", leaf),
  (metaName "LabelSelector",
    objectNode [
      ("matchExpressions", listNode (sharedNode (metaName "LabelSelectorRequirement"))),
      ("matchLabels", leaf)]),
  (metaName "LabelSelectorRequirement",
    objectNode [("key", leaf), ("operator", leaf), ("values", leafList)]),
  (metaName "ManagedFieldsEntry",
    objectNode (leaves ["apiVersion", "fieldsType"] ++ [("fieldsV1", metaNode "FieldsV1")]
      ++ leaves ["manager", "operation", "subresource"] ++ [("time", metaNode "Time")])),
  (metaName "ObjectMeta",
    objectNode ([("annotations", leaf), ("creationTimestamp", metaNode "Time"),
      ("deletionGracePeriodSeconds", leaf), ("deletionTimestamp", metaNode "Time"),
      ("finalizers", leafList)] ++ leaves ["generateName", "generation", "labels"]
      ++ [("managedFields", listNode (sharedNode (metaName "ManagedFieldsEntry")))]
      ++ leaves ["name", "namespace"]
      ++ [("ownerReferences", listNode (sharedNode (metaName "OwnerReference")))]
      ++ leaves ["resourceVersion", "selfLink", "uid"])),
  (metaName "OwnerReference",
    objectNode (leaves ["apiVersion", "blockOwnerDeletion", "controller", "kind", "name", "uid"])),
  (metaName "Time", leaf)]

def clusterRoleSchema : Schema := Schema.document definitions [
  ("aggregationRule", allNode [sharedNode (rbacName "AggregationRule")]), ("apiVersion", leaf),
  ("kind", leaf), ("metadata", metaNode "ObjectMeta"),
  ("rules", listNode (sharedNode (rbacName "PolicyRule")))]

def configMapSchema : Schema := Schema.document definitions [
  ("apiVersion", leaf), ("binaryData", leaf), ("data", leaf), ("immutable", leaf),
  ("kind", leaf), ("metadata", metaNode "ObjectMeta")]

/-! ## Objects -/

def clusterRoleKind : ObjectKind := ⟨"rbac.authorization.k8s.io", "v1", "ClusterRole"⟩

def configMapKind : ObjectKind := ⟨"", "v1", "ConfigMap"⟩

/-- A type tag, where given, has to be the one of the type. -/
def tagAgrees (name expected : String) (value : Json) : Bool :=
  match value.member? name with
  | none => true
  | some given => given = .string expected

/-- Reads an object of a built-in type: its type tag may be left out and is written always. -/
def read? (kind : ObjectKind) (shape : Shape) (schema : Schema) (value : Json) :
    Option ObjectRef := do
  if !(tagAgrees "apiVersion" kind.apiVersion value && tagAgrees "kind" kind.kind value) then none
  let members ← (← shape.read? value).object?
  some ⟨kind, .normalize (.object
    ([("apiVersion", .string kind.apiVersion), ("kind", .string kind.kind)] ++ members)), schema⟩

def clusterRole? (value : Json) : Option ObjectRef :=
  read? clusterRoleKind clusterRole clusterRoleSchema value

def configMap? (value : Json) : Option ObjectRef :=
  read? configMapKind configMap configMapSchema value

end CompositionGen.Kubernetes
