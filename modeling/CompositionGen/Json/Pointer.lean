import CompositionGen.Json
import CompositionGen.Text.Decimal
import CompositionGen.Text.Split

/-!
# JSON pointers

A pointer names a node of a document by the keys and indexes that lead to it, each after a `/`.
In a key `~1` stands for `/` and `~0` for `~`. The same step is a key in an object and an index
in a list, where only plain digits without a leading zero count.
-/

namespace CompositionGen.Json

/-- Reads a step of a pointer: `~1` is undone before `~0`. -/
def unescapeStep (step : List Char) : List Char :=
  Text.replace ['~', '0'] ['~'] (Text.replace ['~', '1'] ['/'] step)

def escapeStep (key : List Char) : List Char :=
  key.flatMap fun c =>
    if c = '~' then ['~', '0'] else if c = '/' then ['~', '1'] else [c]

/-- A list index: digits without a leading zero. -/
def stepIndex? (step : List Char) : Option Nat :=
  if Decimal.isNumeral step && (step.length = 1 || step.head? ≠ some '0') then
    some (Decimal.value step)
  else none

/-- The child that an unescaped step leads to. -/
def child? (step : List Char) : Json → Option Json
  | .object members => lookup? (String.ofList step) members
  | .array items => do items[← stepIndex? step]?
  | _ => none

def follow? : List (List Char) → Json → Option Json
  | [], node => some node
  | step :: rest, node => (child? step node).bind (follow? rest)

/-- The node that a pointer names; the empty pointer names the whole document. -/
def pointer? (pointer : List Char) (root : Json) : Option Json :=
  match pointer with
  | [] => some root
  | '/' :: steps => follow? ((Text.split '/' steps).map unescapeStep) root
  | _ => none

/-- The node that a reference names: a pointer after `#`. -/
def reference? (reference : String) (root : Json) : Option Json :=
  match reference.toList with
  | '#' :: pointer => pointer? pointer root
  | _ => none

end CompositionGen.Json
