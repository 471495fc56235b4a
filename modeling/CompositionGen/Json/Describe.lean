import CompositionGen.Json.Printer
import CompositionGen.Text.Quoted

/-!
# Describing JSON values

The diagnostic form of a value: every value stands behind the name of its sort, and strings are
quoted as in reports.
-/

namespace CompositionGen

namespace Json

mutual

/-- A value with the name of its sort in front of it. -/
def describe : Json → String
  | .null => "Null"
  | .bool true => "Bool(true)"
  | .bool false => "Bool(false)"
  | .number n => "Number(" ++ renderNumber n ++ ")"
  | .string s => "String(" ++ Text.quoted s ++ ")"
  | .array items => "Array [" ++ ", ".intercalate (describeItems items) ++ "]"
  | .object members => "Object \x7b" ++ ", ".intercalate (describeMembers members) ++ "\x7d"

def describeItems : List Json → List String
  | [] => []
  | x :: rest => describe x :: describeItems rest

def describeMembers : List (String × Json) → List String
  | [] => []
  | (name, x) :: rest => (Text.quoted name ++ ": " ++ describe x) :: describeMembers rest

end

end Json

end CompositionGen
