import CompositionGen.Text.Decimal

/-!
# Field paths

A field path addresses a member of an object: `spec.tags[env]`, `rules[0].verbs`. A dotted name
and a bracketed name address the same member, so paths are compared up to that spelling by
`Matches`. `text` writes a path down; `WellFormed` says which segment lists a text can spell.
-/

namespace CompositionGen

inductive Segment where
  | field (name : String)
  /-- A bracketed name, such as the key of a label. -/
  | key (name : String)
  | index (n : Nat)
  deriving DecidableEq, Inhabited, Repr

structure FieldPath where
  segments : List Segment
  deriving DecidableEq, Inhabited, Repr

namespace Segment

/-- The name of a member; an index has none. -/
def name? : Segment → Option String
  | .field name | .key name => some name
  | .index _ => none

/-- Whether two steps address the same member: names of either spelling, or equal indexes. -/
def Matches : Segment → Segment → Bool
  | .index m, .index n => m == n
  | .index _, _ | _, .index _ => false
  | s, t => s.name? == t.name?

/-- A character that may stand in a dotted name. -/
def isNameChar (c : Char) : Bool := c ≠ '.' && c ≠ '[' && c ≠ ']'

/-- A step that a text can spell: a name holds nothing that would end it, a bracketed name is
not a number, and an index fits 64 bits. -/
def WellFormed : Segment → Prop
  | .field name => name.toList ≠ [] ∧ ∀ c ∈ name.toList, isNameChar c
  | .key name => name.toList ≠ [] ∧ ']' ∉ name.toList ∧ ¬ name.toList.all Decimal.isDigit
  | .index n => n < Decimal.wordBound

/-- What stands between the brackets of a bracketed step. -/
def bracketed : Segment → List Char
  | .field name | .key name => name.toList
  | .index n => Decimal.digitsOf n

end Segment

namespace FieldPath

def size (p : FieldPath) : Nat := p.segments.length

/-- Whether the paths take matching steps, as many of them. -/
def matchSegments : List Segment → List Segment → Bool
  | [], [] => true
  | s :: ss, t :: ts => s.Matches t && matchSegments ss ts
  | _, _ => false

/-- Whether two paths address the same member. -/
def Matches (p q : FieldPath) : Bool := matchSegments p.segments q.segments

def tailText : List Segment → List Char
  | [] => []
  | .field name :: rest => '.' :: (name.toList ++ tailText rest)
  | s :: rest => '[' :: (s.bracketed ++ ']' :: tailText rest)

/-- The text of a list of steps; the first name has no dot before it. -/
def listText : List Segment → List Char
  | .field name :: rest => name.toList ++ tailText rest
  | segments => tailText segments

def text (p : FieldPath) : String := String.ofList (listText p.segments)

/-- A path that some text spells. -/
def WellFormed (p : FieldPath) : Prop :=
  p.segments ≠ [] ∧ ∀ s ∈ p.segments, s.WellFormed

end FieldPath

end CompositionGen
