import CompositionGen.FieldPath
import CompositionGen.Json.Record

/-!
# Field paths as records

The stored form of a path: the list of its steps, each under the name of its kind. It is read
back without any check, so a stored path need not be well formed.
-/

namespace CompositionGen

def Segment.toJson : Segment → Json
  | .field name => .object [("Field", .string name)]
  | .key name => .object [("Key", .string name)]
  | .index n => .object [("Index", .nat n)]

/-- Reads a step: an object whose only member is one of the kinds. -/
def Segment.ofJson? : Json → Option Segment
  | .object [("Field", value)] => value.string?.map .field
  | .object [("Key", value)] => value.string?.map .key
  | .object [("Index", value)] =>
    (value.intIn? 0 (Int.ofNat Decimal.wordBound - 1)).map fun n => .index n.toNat
  | _ => none

namespace FieldPath

def toJson (p : FieldPath) : Json :=
  .object [("segments", .array (p.segments.map Segment.toJson))]

/-- Reads a stored path, well formed or not. -/
def ofJson? (value : Json) : Option FieldPath := do
  let members ← value.record? ["segments"]
  let segments ← Json.required? (Json.list? Segment.ofJson?) "segments" members
  some ⟨segments⟩

end FieldPath

end CompositionGen
