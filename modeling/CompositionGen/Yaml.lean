import CompositionGen.Yaml.Scalar
import CompositionGen.FieldPath.Parser

/-!
# Writing YAML

A value as a YAML document in block style. A list stands at the column of its key, and a
container inside a list begins on the line of its dash. Members are written in the order in which
the value holds them. A key that is long or breaks a line is written in the explicit form.
-/

namespace CompositionGen.Yaml

def spaces (indent : Nat) : List Char := List.replicate indent ' '

/-- Whether a key has to be written after a question mark. -/
def isExplicit (key : List Char) : Bool :=
  key.any isBreak || 128 < FieldPath.byteLength key

/-- A number, where only a negative exponent has a sign. -/
def number (n : Number) : List Char := (Json.numberText {} n).toList

mutual

/-- What follows the dash of an item, or the colon of an explicit key, of a container at the
column `indent`. -/
def item (indent : Nat) : Json → List Char
  | .object (m :: ms) => ' ' :: (members (indent + 2) (m :: ms)).drop (indent + 2)
  | .array (x :: xs) => ' ' :: (items (indent + 2) (x :: xs)).drop (indent + 2)
  | .object [] => " \x7b\x7d\n".toList
  | .array [] => " []\n".toList
  | .null => " null\n".toList
  | .bool true => " true\n".toList
  | .bool false => " false\n".toList
  | .number n => ' ' :: (number n ++ ['\n'])
  | .string s => ' ' :: scalarLine (indent + 2) s.toList

def memberValue (indent : Nat) : Json → List Char
  | .object (m :: ms) => '\n' :: members (indent + 2) (m :: ms)
  | .array (x :: xs) => '\n' :: items indent (x :: xs)
  | .object [] => " \x7b\x7d\n".toList
  | .array [] => " []\n".toList
  | .null => " null\n".toList
  | .bool true => " true\n".toList
  | .bool false => " false\n".toList
  | .number n => ' ' :: (number n ++ ['\n'])
  | .string s => ' ' :: scalarLine (indent + 2) s.toList

def items (indent : Nat) : List Json → List Char
  | [] => []
  | x :: rest => spaces indent ++ '-' :: (item indent x ++ items indent rest)

/-- The lines of the members of an object at the column `indent`. -/
def members (indent : Nat) : List (String × Json) → List Char
  | [] => []
  | (name, x) :: rest =>
    (if isExplicit name.toList then
      spaces indent ++ ['?', ' '] ++ scalarLine (indent + 2) name.toList
        ++ (spaces indent ++ ':' :: item indent x)
    else spaces indent ++ scalar (indent + 2) name.toList ++ ':' :: memberValue indent x)
      ++ members indent rest

end

def document : Json → String
  | .object ms => String.ofList (if ms.isEmpty then "\x7b\x7d\n".toList else members 0 ms)
  | .array xs => String.ofList (if xs.isEmpty then "[]\n".toList else items 0 xs)
  | other => String.ofList ((item 0 other).drop 1)

end CompositionGen.Yaml
