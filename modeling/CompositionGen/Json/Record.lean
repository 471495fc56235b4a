import CompositionGen.Json

/-!
# Records in JSON

A record is given as an object, whose unknown members are ignored, or as the list of its fields
in declaration order, which may stop early. Both become the list of the given members, from which
fields are read by name: required, optional (absent or `null` is none) or a list (absent is
empty). Writing leaves out absent options and empty lists.
-/

namespace CompositionGen.Json

/-- The given members of a record with these fields. -/
def record? (names : List String) : Json → Option (List (String × Json))
  | .object members => some members
  | .array items => if items.length ≤ names.length then some (names.zip items) else none
  | _ => none

/-- A field that has to be given. -/
def required? {α : Type} (read : Json → Option α) (name : String)
    (members : List (String × Json)) : Option α :=
  (lookup? name members).bind read

/-- A field that may be absent or `null`. -/
def optional? {α : Type} (read : Json → Option α) (name : String)
    (members : List (String × Json)) : Option (Option α) :=
  match lookup? name members with
  | none | some .null => some none
  | some value => (read value).map some

/-- A field with a default that stands for absence, but not for `null`. -/
def withDefault? {α : Type} (default : α) (read : Json → Option α) (name : String)
    (members : List (String × Json)) : Option α :=
  match lookup? name members with
  | none => some default
  | some value => read value

def list? {α : Type} (read : Json → Option α) : Json → Option (List α)
  | .array items => items.mapM read
  | _ => none

def intIn? (low high : Int) (value : Json) : Option Int :=
  value.int?.filter fun n => low ≤ n ∧ n ≤ high

def int64? (value : Json) : Option Int :=
  value.intIn? (-Int.ofNat Decimal.signBound) (Int.ofNat Decimal.signBound - 1)

/-- One of finitely many names: the name as a string, or as the only member of an object, with
the value `null`. -/
def choice? {α : Type} (read : String → Option α) : Json → Option α
  | .string name => read name
  | .object [(name, .null)] => read name
  | _ => none

def stringMap? (value : Json) : Option (List (String × String)) := do
  (← value.object?).mapM fun (name, v) => do some (name, ← v.string?)

def optionalMember {α : Type} (write : α → Json) (name : String) :
    Option α → List (String × Json)
  | none => []
  | some value => [(name, write value)]

/-- A list member, unless it is empty. -/
def listMember {α : Type} (write : α → Json) (name : String) : List α → List (String × Json)
  | [] => []
  | items => [(name, .array (items.map write))]

def ofStringMap (map : List (String × String)) : Json :=
  .object (map.map fun (name, text) => (name, .string text))

end CompositionGen.Json
