import CompositionGen.Schema

/-!
# Inferred schemas

The schema of an object that has no declared type is read off the object itself: every member
becomes a property, and a list takes the shape of its first item.
-/

namespace CompositionGen.Schema

mutual

/-- The schema of a value's own shape. -/
def inferNode : Json → Json
  | .object members =>
    .object [("type", .string "object"), ("properties", .object (inferMembers members))]
  | .array [] => .object [("type", .string "array")]
  | .array (first :: _) => .object [("type", .string "array"), ("items", inferNode first)]
  | .string _ => .object [("type", .string "string")]
  | .number (.float _) => .object [("type", .string "number")]
  | .number (.int _) => .object [("type", .string "integer")]
  | .bool _ => .object [("type", .string "boolean")]
  | .null => .object []

def inferMembers : List (String × Json) → List (String × Json)
  | [] => []
  | (name, value) :: rest => (name, inferNode value) :: inferMembers rest

end

def infer (value : Json) : Schema := ⟨inferNode value⟩

end CompositionGen.Schema
