import CompositionGen.Object.Kind
import CompositionGen.Patch

/-!
# Compositions

The document that is written for each builder: which composite type it is for, and either the
resources it composes or the steps of its pipeline. Metadata maps are sorted by name.
-/

namespace CompositionGen

inductive ConnectionDetailType where
  | fromConnectionSecretKey
  | fromFieldPath
  | fromValue
  deriving DecidableEq, Inhabited, Repr

/-- One entry of a resource's connection secret. -/
structure ConnectionDetail where
  name : Option String
  type : Option ConnectionDetailType
  fromConnectionSecretKey : Option String
  fromFieldPath : Option String
  value : Option String
  deriving DecidableEq, Inhabited, Repr

inductive ReadinessCheckType where
  | nonEmpty
  | matchString
  | matchInteger
  | matchTrue
  | matchFalse
  | matchCondition
  | none
  deriving DecidableEq, Inhabited, Repr

structure ConditionMatch where
  type : String
  status : String
  deriving DecidableEq, Inhabited, Repr

structure ReadinessCheck where
  type : ReadinessCheckType
  fieldPath : Option String
  matchString : Option String
  matchInteger : Option Int
  matchCondition : Option ConditionMatch
  deriving DecidableEq, Inhabited, Repr

structure ComposedTemplate where
  name : Option String
  base : Json
  patches : List Patch
  connectionDetails : List ConnectionDetail
  readinessChecks : List ReadinessCheck
  deriving DecidableEq, Inhabited, Repr

structure PipelineStep where
  step : String
  functionRef : String
  input : Option Json
  deriving DecidableEq, Inhabited, Repr

/-- Whether a composition lists resources or calls a pipeline of functions. -/
inductive CompositionMode where
  | resources
  | pipeline
  deriving DecidableEq, Inhabited, Repr

structure TypeReference where
  apiVersion : String
  kind : String
  deriving DecidableEq, Inhabited, Repr

structure CompositionSpec where
  compositeTypeRef : TypeReference
  mode : CompositionMode
  resources : List ComposedTemplate
  pipeline : List PipelineStep
  writeConnectionSecretsToNamespace : Option String
  /-- The name of the store configuration that connection details are published with. -/
  publishConnectionDetailsWithStoreConfig : Option String
  deriving DecidableEq, Inhabited, Repr

structure Metadata where
  annotations : Option (List (String × String))
  labels : Option (List (String × String))
  name : Option String
  deriving DecidableEq, Inhabited, Repr

structure Composition where
  apiVersion : String
  kind : String
  metadata : Metadata
  spec : CompositionSpec
  deriving DecidableEq, Inhabited, Repr

namespace Composition

def currentApiVersion : String := "apiextensions.crossplane.io/v1"

def currentKind : String := "Composition"

/-- The name of a composition; an absent one is empty. -/
def name (c : Composition) : String := c.metadata.name.getD ""

end Composition

def CompositionMode.name : CompositionMode → String
  | .resources => "Resources"
  | .pipeline => "Pipeline"

def ObjectKind.typeReference (k : ObjectKind) : TypeReference := ⟨k.apiVersion, k.kind⟩

/-! ## Well-known labels and annotations -/

def knownCompositeLabels : List String :=
  ["crossplane.io/claim-name", "crossplane.io/claim-namespace"]

def knownResourceAnnotations : List String := [
  "crossplane.io/external-name", "crossplane.io/external-create-pending",
  "crossplane.io/external-create-succeeded", "crossplane.io/external-create-failed"]

def labelPath (key : String) : String := "metadata.labels[" ++ key ++ "]"

def annotationPath (key : String) : String := "metadata.annotations[" ++ key ++ "]"

end CompositionGen
