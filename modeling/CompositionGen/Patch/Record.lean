import CompositionGen.Patch
import CompositionGen.Json.Record

/-!
# Patches in JSON

Reading and writing of patches and their parts. Members are written in declaration order.
-/

namespace CompositionGen

open Json (record? required? optional? withDefault? list? optionalMember listMember)

def PatchType.ofJson? (value : Json) : Option PatchType := value.string?.map ofName

def PatchType.toJson (t : PatchType) : Json := .string t.name

def CombineStrategy.ofName? : String → Option CombineStrategy
  | "string" => some .string
  | _ => none

def CombineStrategy.ofJson? : Json → Option CombineStrategy := Json.choice? ofName?

def CombineStrategy.toJson : CombineStrategy → Json
  | .string => .string "string"

def CombineVariable.ofJson? (value : Json) : Option CombineVariable := do
  let members ← record? ["fromFieldPath"] value
  some ⟨← required? Json.string? "fromFieldPath" members⟩

def CombineVariable.toJson (v : CombineVariable) : Json :=
  .object [("fromFieldPath", .string v.fromFieldPath)]

def Combine.ofJson? (value : Json) : Option Combine := do
  let members ← record? ["variables", "strategy", "string"] value
  some {
    inputs := ← required? (list? CombineVariable.ofJson?) "variables" members
    strategy := ← required? CombineStrategy.ofJson? "strategy" members
    string := ← optional? some "string" members }

def Combine.toJson (c : Combine) : Json :=
  .object ([("variables", .array (c.inputs.map CombineVariable.toJson)),
    ("strategy", c.strategy.toJson)] ++ optionalMember id "string" c.string)

def PatchPolicy.ofJson? (value : Json) : Option PatchPolicy := do
  let members ← record? ["fromFieldPath", "toFieldPath"] value
  some {
    fromFieldPath := ← optional? Json.string? "fromFieldPath" members
    toFieldPath := ← optional? Json.string? "toFieldPath" members }

def PatchPolicy.toJson (p : PatchPolicy) : Json :=
  .object (optionalMember .string "fromFieldPath" p.fromFieldPath
    ++ optionalMember .string "toFieldPath" p.toFieldPath)

/-- The fields of a patch in declaration order. -/
def Patch.fields : List String :=
  ["type", "fromFieldPath", "toFieldPath", "combine", "transforms", "policy", "patchSetName"]

def Patch.ofJson? (value : Json) : Option Patch := do
  let members ← record? Patch.fields value
  some {
    type := ← optional? PatchType.ofJson? "type" members
    fromFieldPath := ← optional? Json.string? "fromFieldPath" members
    toFieldPath := ← optional? Json.string? "toFieldPath" members
    combine := ← optional? Combine.ofJson? "combine" members
    transforms := ← withDefault? [] Json.array? "transforms" members
    policy := ← optional? PatchPolicy.ofJson? "policy" members
    patchSetName := ← optional? Json.string? "patchSetName" members }

def Patch.toJson (p : Patch) : Json :=
  .object (optionalMember PatchType.toJson "type" p.type
    ++ optionalMember .string "fromFieldPath" p.fromFieldPath
    ++ optionalMember .string "toFieldPath" p.toFieldPath
    ++ optionalMember Combine.toJson "combine" p.combine
    ++ listMember id "transforms" p.transforms
    ++ optionalMember PatchPolicy.toJson "policy" p.policy
    ++ optionalMember .string "patchSetName" p.patchSetName)

end CompositionGen
