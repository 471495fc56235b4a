import CompositionGen.Schema

/-!
# Building schema documents

Names for the few forms of schema nodes that decide which paths exist.
-/

namespace CompositionGen.Schema

/-- A node without structure: paths end there. -/
def leaf : Json := .object []

def sharedNode (name : String) : Json := .object [("$ref", .string ("#/definitions/" ++ name))]

def objectNode (properties : List (String × Json)) : Json :=
  .object [("properties", .object properties)]

def listNode (item : Json) : Json := .object [("items", item)]

/-- A node that has what each of the nodes has. -/
def allNode (nodes : List Json) : Json := .object [("allOf", .array nodes)]

/-- A node that has what one of the nodes has. -/
def anyNode (nodes : List Json) : Json := .object [("anyOf", .array nodes)]

def document (definitions properties : List (String × Json)) : Schema :=
  ⟨.object [("definitions", .object definitions), ("properties", .object properties)]⟩

end CompositionGen.Schema
