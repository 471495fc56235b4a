import CompositionGen.FieldPath
import CompositionGen.Json.Pointer

/-!
# Object schemas

A JSON schema decides which field paths exist on an object. Resolving a path walks the schema
from its root: a reference leads to its target and hides its siblings, the alternatives of a
combinator are tried in turn, and otherwise the first step of the path leads into `properties`
or `items`. A walk takes at most `maxSteps` steps, which also ends cycles of references.
-/

namespace CompositionGen

structure Schema where
  root : Json
  deriving DecidableEq, Inhabited, Repr

namespace Schema

def maxSteps : Nat := 65

/-- The target of a node's `$ref`, if it has one that is a string. -/
def refOf? (members : List (String × Json)) : Option String :=
  (lookup? "$ref" members).bind Json.string?

def combinators : List String := ["allOf", "anyOf", "oneOf"]

/-- The alternatives of a node, those of `allOf` first. -/
def alternatives (members : List (String × Json)) : List Json :=
  combinators.flatMap fun name => ((lookup? name members).bind Json.array?).getD []

/-- The schema of the member or item that a path step leads to. -/
def child? (members : List (String × Json)) : Segment → Option Json
  | .field name | .key name => (lookup? "properties" members).bind (Json.member? name)
  | .index n =>
    match lookup? "items" members with
    | some (.array items) => items[n]?
    | items => items

/-- Whether the path exists below a node, within a number of steps. -/
def walk (root : Json) : (steps : Nat) → Json → List Segment → Bool
  | _, _, [] => true
  | 0, _, _ :: _ => false
  | steps + 1, .object members, segment :: rest =>
    match refOf? members with
    | some reference =>
      match Json.reference? reference root with
      | some target => walk root steps target (segment :: rest)
      | none => false
    | none =>
      (alternatives members).any (fun node => walk root steps node (segment :: rest)) ||
        match child? members segment with
        | some node => walk root steps node rest
        | none => false
  | _ + 1, _, _ :: _ => false

def resolves (schema : Schema) (path : FieldPath) : Bool :=
  walk schema.root maxSteps schema.root path.segments

end Schema

end CompositionGen
