import CompositionGen.Instant
import CompositionGen.Json.Record
import CompositionGen.Text.Base64

/-!
# Shapes of typed objects

A shape describes the values of a declared type. Reading a value by its shape keeps the declared
members, drops unknown ones, leaves out `null`s, fills in defaults, brings instants into their
one written form, and refuses a value of the wrong sort.
-/

namespace CompositionGen

inductive Shape where
  | text
  | integer
  | flag
  /-- A moment in time, with any offset. -/
  | instant
  /-- Bytes as text; `null` stands for none. -/
  | bytes
  | any
  | list (item : Shape)
  /-- An object with arbitrary names. -/
  | map (value : Shape)
  /-- An object with declared members. Each has the value that stands for its absence, if it is
  written also when it is not given. -/
  | record (members : List (String × Option Json × Shape))

namespace Shape

def isInt64 (n : Int) : Bool := -Int.ofNat Decimal.signBound ≤ n && n < Int.ofNat Decimal.signBound

mutual

def read? : Shape → Json → Option Json
  | .text, .string s => some (.string s)
  | .integer, .number (.int n) => if isInt64 n then some (.number (.int n)) else none
  | .flag, .bool b => some (.bool b)
  | .instant, .string s => (Instant.parse? s).map fun i => .string i.text
  | .bytes, .string s => (Base64.decode? s.toList).map fun b =>
      .string (String.ofList (Base64.encode b))
  | .bytes, .null => some (.string "")
  | .any, value => some value
  | .list item, .array items => (items.mapM (read? item)).map .array
  | .map shape, .object members =>
    (members.mapM fun (m : String × Json) => (read? shape m.2).map (m.1, ·)).map .object
  | .record declared, .object members => (readMembers? declared members).map .object
  | _, _ => none

def readMembers? : List (String × Option Json × Shape) → List (String × Json) →
    Option (List (String × Json))
  | [], _ => some []
  | (name, default, shape) :: rest, members => do
    let tail ← readMembers? rest members
    match lookup? name members with
    | none | some .null => some (default.toList.map (name, ·) ++ tail)
    | some value => some ((name, ← read? shape value) :: tail)

end

/-- A member that is left out when it is not given. -/
def optional (name : String) (shape : Shape) : String × Option Json × Shape := (name, none, shape)

/-- A member that is written also when it is not given. -/
def defaulted (name : String) (default : Json) (shape : Shape) : String × Option Json × Shape :=
  (name, some default, shape)

end Shape

end CompositionGen
