import CompositionGen.FieldPath.Parser

/-!
# Sets of field paths

Paths registered as safe. A path that matches an earlier one is not added again, so the members
are pairwise different up to spelling; a path belongs to the set when it matches a member.
-/

namespace CompositionGen

/-- Registered paths, no two of which match. -/
structure PathSet where
  paths : List FieldPath
  deriving DecidableEq, Repr

namespace PathSet

def empty : PathSet := ⟨[]⟩

def contains (s : PathSet) (p : FieldPath) : Bool := s.paths.any (·.Matches p)

def size (s : PathSet) : Nat := s.paths.length

/-- Adds a path unless it matches a member. -/
def insert (s : PathSet) (p : FieldPath) : PathSet :=
  if s.contains p then s else ⟨s.paths ++ [p]⟩

/-- Adds the paths that the texts spell, or gives the first text that spells none. -/
def insertAll : PathSet → List String → Except (String × ParseError) PathSet
  | s, [] => .ok s
  | s, raw :: rest =>
    match FieldPath.parse raw with
    | .ok p => insertAll (s.insert p) rest
    | .error e => .error (raw, e)

/-- The set of the paths that the texts spell, or the first text that spells none. -/
def parseAll (raws : List String) : Except (String × ParseError) PathSet :=
  empty.insertAll raws

end PathSet

end CompositionGen
