import CompositionGen.Object.Kind
import CompositionGen.Schema.Infer
import CompositionGen.Json.Describe

/-!
# Objects with a kind and a schema

An object is used in three ways: its schema decides which paths a patch may name, and its value
is written out, either with the type of its kind stamped on it or with the type filled in only
where the value has none.
-/

namespace CompositionGen

/-- An object, its kind, and the schema that says which paths exist on it. -/
structure ObjectRef where
  kind : ObjectKind
  value : Json
  /-- A JSON schema document. A builder may also attach a resolver of its own that decides by other
  rules which paths exist; such resolvers are left out. -/
  schema : Schema
  deriving DecidableEq, Inhabited, Repr

namespace ObjectRef

/-- An object without a declared type: its schema is read off its value. -/
def ofValue (kind : ObjectKind) (value : Json) : ObjectRef :=
  ⟨kind, value, Schema.infer value⟩

def resolves (o : ObjectRef) (path : FieldPath) : Bool := o.schema.resolves path

/-- The value with `apiVersion` and `kind` of its kind; a value without members is unchanged. -/
def stamped (o : ObjectRef) : Json :=
  match o.value with
  | .object members =>
    .object (Json.setMember "kind" (.string o.kind.kind)
      (Json.setMember "apiVersion" (.string o.kind.apiVersion) members))
  | other => other

/-- The members with a name given a value only if it is absent. -/
def fillMember (name : String) (value : Json) (members : List (String × Json)) :
    List (String × Json) :=
  if (lookup? name members).isSome then members else Json.setMember name value members

/-- The value with `apiVersion` and `kind` filled in where they are absent. An object without a
kind is left alone. -/
def withTypeMeta (o : ObjectRef) : Json :=
  if o.kind.kind.isEmpty then o.value
  else match o.value with
    | .object members =>
      .object (fillMember "kind" (.string o.kind.kind)
        (fillMember "apiVersion" (.string o.kind.apiVersion) members))
    | other => other

end ObjectRef

def ObjectRef.describe (o : ObjectRef) : String :=
  "ObjectKindReference \x7b gvk: " ++ Text.quoted o.kind.label ++ ", object: "
    ++ o.value.describe ++ " \x7d"

end CompositionGen
