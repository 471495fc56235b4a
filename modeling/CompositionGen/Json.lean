import CompositionGen.Dictionary
import CompositionGen.Text.Binary64

/-!
# JSON values

Numbers are integers of at most 64 bits or 64-bit floats, and the two are told apart. An object
is its list of members; the member of a name is the first of that name, and `normalize` puts the
members of every object in the byte order of their names.
-/

namespace CompositionGen

inductive Number where
  | int (n : Int)
  | float (f : Binary64)
  deriving DecidableEq, Inhabited, Repr

inductive Json where
  | null
  | bool (b : Bool)
  | number (n : Number)
  | string (s : String)
  | array (items : List Json)
  | object (members : List (String × Json))
  deriving Inhabited, Repr

namespace Json

mutual

def decEq : (a b : Json) → Decidable (a = b)
  | .null, .null => isTrue rfl
  | .bool a, .bool b =>
    if h : a = b then isTrue (h ▸ rfl) else isFalse (fun e => h (by injection e))
  | .number a, .number b =>
    if h : a = b then isTrue (h ▸ rfl) else isFalse (fun e => h (by injection e))
  | .string a, .string b =>
    if h : a = b then isTrue (h ▸ rfl) else isFalse (fun e => h (by injection e))
  | .array a, .array b =>
    match decEqItems a b with
    | isTrue h => isTrue (h ▸ rfl)
    | isFalse h => isFalse (fun e => h (by injection e))
  | .object a, .object b =>
    match decEqMembers a b with
    | isTrue h => isTrue (h ▸ rfl)
    | isFalse h => isFalse (fun e => h (by injection e))
  | .null, .bool _ | .null, .number _ | .null, .string _ | .null, .array _ | .null, .object _
  | .bool _, .null | .bool _, .number _ | .bool _, .string _ | .bool _, .array _
  | .bool _, .object _ | .number _, .null | .number _, .bool _ | .number _, .string _
  | .number _, .array _ | .number _, .object _ | .string _, .null | .string _, .bool _
  | .string _, .number _ | .string _, .array _ | .string _, .object _ | .array _, .null
  | .array _, .bool _ | .array _, .number _ | .array _, .string _ | .array _, .object _
  | .object _, .null | .object _, .bool _ | .object _, .number _ | .object _, .string _
  | .object _, .array _ => isFalse (fun e => by injection e)

def decEqItems : (a b : List Json) → Decidable (a = b)
  | [], [] => isTrue rfl
  | [], _ :: _ | _ :: _, [] => isFalse (fun e => by injection e)
  | x :: xs, y :: ys =>
    match decEq x y, decEqItems xs ys with
    | isTrue h, isTrue t => isTrue (h ▸ t ▸ rfl)
    | isFalse h, _ => isFalse (fun e => h (by injection e))
    | _, isFalse t => isFalse (fun e => t (by injection e))

def decEqMembers : (a b : List (String × Json)) → Decidable (a = b)
  | [], [] => isTrue rfl
  | [], _ :: _ | _ :: _, [] => isFalse (fun e => by injection e)
  | (j, x) :: xs, (k, y) :: ys =>
    if n : j = k then
      match decEq x y, decEqMembers xs ys with
      | isTrue h, isTrue t => isTrue (n ▸ h ▸ t ▸ rfl)
      | isFalse h, _ => isFalse (fun e => h (by injection e with e; injection e))
      | _, isFalse t => isFalse (fun e => t (by injection e))
    else isFalse (fun e => n (by injection e with e; injection e))

end

instance : DecidableEq Json := decEq

/-- The member of an object under a name; nothing else has members. -/
def member? (name : String) : Json → Option Json
  | .object members => lookup? name members
  | _ => none

def string? : Json → Option String
  | .string s => some s
  | _ => none

def array? : Json → Option (List Json)
  | .array items => some items
  | _ => none

def object? : Json → Option (List (String × Json))
  | .object members => some members
  | _ => none

def int? : Json → Option Int
  | .number (.int n) => some n
  | _ => none

def bool? : Json → Option Bool
  | .bool b => some b
  | _ => none

def isNull : Json → Bool
  | .null => true
  | _ => false

def nat (n : Nat) : Json := .number (.int n)

/-! ## Members in order -/

/-- Whether a member may stand before another: by the bytes of their names. -/
def nameLE {α : Type} (a b : String × α) : Bool := decide (a.1 ≤ b.1)

/-- Members in the byte order of their names; equal names keep their order. -/
def sortMembers {α : Type} (members : List (String × α)) : List (String × α) :=
  members.mergeSort nameLE

mutual

/-- The value with the members of every object sorted by name. -/
def normalize : Json → Json
  | .array items => .array (normalizeItems items)
  | .object members => .object (sortMembers (normalizeMembers members))
  | other => other

def normalizeItems : List Json → List Json
  | [] => []
  | x :: rest => normalize x :: normalizeItems rest

def normalizeMembers : List (String × Json) → List (String × Json)
  | [] => []
  | (name, x) :: rest => (name, normalize x) :: normalizeMembers rest

end

/-- The members with another value for the first of a name. -/
def replaceMember (name : String) (value : Json) : List (String × Json) → List (String × Json)
  | [] => []
  | (key, old) :: rest =>
    if key = name then (key, value) :: rest else (key, old) :: replaceMember name value rest

/-- The members with the value of a name set: in place if there is one, otherwise at the place
that the name has in byte order. -/
def setMember (name : String) (value : Json) (members : List (String × Json)) :
    List (String × Json) :=
  if (lookup? name members).isSome then replaceMember name value members
  else Dictionary.alterEntries name (fun _ => value) members

end Json

end CompositionGen
