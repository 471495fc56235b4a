import CompositionGen.Json

/-!
# Kinds of objects

The group, version and kind that name a type of object. The core group has the empty name and is
left out wherever a kind is written.
-/

namespace CompositionGen

structure ObjectKind where
  group : String
  version : String
  kind : String
  deriving DecidableEq, Inhabited, Repr

namespace ObjectKind

/-- The `apiVersion` of objects of this kind: `group/version`, or the bare version. -/
def apiVersion (k : ObjectKind) : String :=
  if k.group.isEmpty then k.version else k.group ++ "/" ++ k.version

/-- The kind as reports name it: `group/version/Kind`, or `version/Kind`. -/
def label (k : ObjectKind) : String := k.apiVersion ++ "/" ++ k.kind

end ObjectKind

end CompositionGen
