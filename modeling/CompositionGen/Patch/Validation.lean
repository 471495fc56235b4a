import CompositionGen.Object
import CompositionGen.FieldPath.PathSet
import CompositionGen.Patch
import CompositionGen.Text.Quoted

/-!
# Validation of patches

A patch has two ends: the side it reads from and the side it writes to, one being the composite
and the other the base of a composed resource. A path is valid on a side when it is registered
there or exists on that side's object. `validate` reports the first end that is not valid.
-/

namespace CompositionGen

inductive FieldPathError where
  | parse (path : String) (cause : ParseError)
  | unresolved (path : String) (kind : String)
  deriving DecidableEq, Repr

inductive PatchError where
  | missingField (name : String)
  | noVariables
  | combineVariable (index : Nat) (cause : FieldPathError)
  | fromFieldPath (cause : FieldPathError)
  | toFieldPath (cause : FieldPathError)
  | unsupported (type : PatchType)
  | unknown (type : String)
  deriving DecidableEq, Repr

def FieldPathError.messages : FieldPathError → List String
  | .parse path cause => ["cannot parse field path " ++ Text.quoted path, cause.message]
  | .unresolved path kind =>
    ["field path " ++ Text.quoted path ++ " is neither in the schema of " ++ kind
      ++ " nor registered"]

def PatchError.messages : PatchError → List String
  | .missingField name => [s!"missing field {name}"]
  | .noVariables => ["no variables given"]
  | .combineVariable index cause =>
    s!"fromFieldPath of variable at index {index} is invalid" :: cause.messages
  | .fromFieldPath cause => "fromFieldPath is invalid" :: cause.messages
  | .toFieldPath cause => "toFieldPath is invalid" :: cause.messages
  | .unsupported type => ["patch types not supported: " ++ type.name]
  | .unknown type => ["unknown patch type " ++ type]

/-- One end of a patch: an object and the paths registered on it. -/
structure Side where
  object : ObjectRef
  registered : PathSet

namespace Side

/-- Whether a path is registered on the side or exists on its object. -/
def admits (side : Side) (path : FieldPath) : Bool :=
  side.registered.contains path || side.object.resolves path

/-- A path as it is written: it has to parse and to be admitted. -/
def check (side : Side) (raw : String) : Except FieldPathError Unit :=
  match FieldPath.parse raw with
  | .error cause => .error (.parse raw cause)
  | .ok path =>
    if side.admits path then .ok () else .error (.unresolved raw side.object.kind.label)

/-- Checks the fields that enter a combination, from variable `index` on. -/
def checkVariables (side : Side) (index : Nat) : List CombineVariable → Except PatchError Unit
  | [] => .ok ()
  | v :: rest =>
    match side.check v.fromFieldPath with
    | .error cause => .error (.combineVariable index cause)
    | .ok () => checkVariables side (index + 1) rest

end Side

namespace Patch

/-- A patch of one field: the destination is the source's path unless it is given. -/
def validateDirect (p : Patch) (source destination : Side) : Except PatchError Unit := do
  let origin ← p.fromFieldPath.elim (.error (.missingField "fromFieldPath")) .ok
  let target := p.toFieldPath.getD origin
  (source.check origin).mapError .fromFieldPath
  (destination.check target).mapError .toFieldPath

def validateCombine (p : Patch) (source destination : Side) : Except PatchError Unit := do
  let combine ← p.combine.elim (.error (.missingField "combine")) .ok
  if combine.inputs.isEmpty then .error .noVariables
  source.checkVariables 0 combine.inputs
  let target ← p.toFieldPath.elim (.error (.missingField "toFieldPath")) .ok
  (destination.check target).mapError .toFieldPath

/-- The type that decides how a patch is checked: an absent or empty type counts as one from the
composite. -/
def effectiveType (p : Patch) : PatchType :=
  match p.type with
  | none | some (.other "") => .fromCompositeFieldPath
  | some type => type

/-- Checks both ends of a patch between a composite and the base of a resource. -/
def validate (p : Patch) (composite base : Side) : Except PatchError Unit :=
  match p.effectiveType with
  | .fromCompositeFieldPath => p.validateDirect composite base
  | .toCompositeFieldPath => p.validateDirect base composite
  | .combineFromComposite => p.validateCombine composite base
  | .combineToComposite => p.validateCombine base composite
  | .other name => .error (.unknown name)
  | unsupported => .error (.unsupported unsupported)

end Patch

end CompositionGen
