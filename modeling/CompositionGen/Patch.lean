import CompositionGen.Json

/-!
# Patches

A patch copies a field between the composite and a composed resource, or combines several
fields into one. Its type says which way; a type that is not known is kept as it was given.
-/

namespace CompositionGen

inductive PatchType where
  | fromCompositeFieldPath
  | toCompositeFieldPath
  | combineFromComposite
  | combineToComposite
  | patchSet
  | fromEnvironmentFieldPath
  | toEnvironmentFieldPath
  | combineFromEnvironment
  | combineToEnvironment
  | other (name : String)
  deriving DecidableEq, Inhabited, Repr

namespace PatchType

def known : List PatchType := [
  .fromCompositeFieldPath, .toCompositeFieldPath, .combineFromComposite, .combineToComposite,
  .patchSet, .fromEnvironmentFieldPath, .toEnvironmentFieldPath, .combineFromEnvironment,
  .combineToEnvironment]

def name : PatchType → String
  | .fromCompositeFieldPath => "FromCompositeFieldPath"
  | .toCompositeFieldPath => "ToCompositeFieldPath"
  | .combineFromComposite => "CombineFromComposite"
  | .combineToComposite => "CombineToComposite"
  | .patchSet => "PatchSet"
  | .fromEnvironmentFieldPath => "FromEnvironmentFieldPath"
  | .toEnvironmentFieldPath => "ToEnvironmentFieldPath"
  | .combineFromEnvironment => "CombineFromEnvironment"
  | .combineToEnvironment => "CombineToEnvironment"
  | .other name => name

/-- The type of a written form; what is not known is kept verbatim. -/
def ofName (name : String) : PatchType :=
  (known.find? (·.name == name)).getD (.other name)

end PatchType

inductive CombineStrategy where
  | string
  deriving DecidableEq, Inhabited, Repr

structure CombineVariable where
  fromFieldPath : String
  deriving DecidableEq, Inhabited, Repr

structure Combine where
  inputs : List CombineVariable
  strategy : CombineStrategy
  string : Option Json
  deriving DecidableEq, Inhabited, Repr

/-- What happens when a field is absent or already set. -/
structure PatchPolicy where
  fromFieldPath : Option String := none
  toFieldPath : Option String := none
  deriving DecidableEq, Inhabited, Repr

/-- A patch; every part may be absent. -/
structure Patch where
  type : Option PatchType := none
  fromFieldPath : Option String := none
  toFieldPath : Option String := none
  combine : Option Combine := none
  transforms : List Json := []
  policy : Option PatchPolicy := none
  patchSetName : Option String := none
  deriving DecidableEq, Inhabited, Repr

def Combine.stringFormat (fromFieldPaths : List String) (format : String) : Combine where
  inputs := fromFieldPaths.map CombineVariable.mk
  strategy := .string
  string := some (.object [("fmt", .string format)])

namespace Patch

/-- A patch without a type, which counts as one from the composite. -/
def simple (source destination : String) : Patch where
  fromFieldPath := some source
  toFieldPath := some destination

def fromComposite (source destination : String) : Patch :=
  { simple source destination with type := some .fromCompositeFieldPath }

/-- A patch to a field of the composite, which is named first. -/
def toComposite (destination source : String) : Patch :=
  { simple source destination with type := some .toCompositeFieldPath }

def combineFromComposite (combine : Combine) (destination : String) : Patch where
  type := some .combineFromComposite
  toFieldPath := some destination
  combine := some combine

def combineToComposite (combine : Combine) (destination : String) : Patch :=
  { combineFromComposite combine destination with type := some .combineToComposite }

def mergeObjects (p : Patch) : Patch :=
  { p with policy := some { toFieldPath := some "MergeObjects" } }

def withTransform (p : Patch) (transform : Json) : Patch :=
  { p with transforms := p.transforms ++ [transform] }

end Patch

end CompositionGen
