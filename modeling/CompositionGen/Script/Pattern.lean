import CompositionGen.Text.Decimal

/-!
# Patterns

A pattern is a text in which a star stands for any text, a question mark for any character, and
brackets for one of several characters. Quoted characters stand for themselves.
-/

namespace CompositionGen.Script

/-- A character of an expanded word, which has a meaning in patterns only if it is not quoted. -/
structure Glyph where
  char : Char
  quoted : Bool
  deriving DecidableEq, Inhabited, Repr

inductive PatternPart where
  | exactly (c : Char)
  | anyCharacter
  | anyText
  /-- A character in one of the ranges, or in none of them. -/
  | oneOf (negated : Bool) (ranges : List (Char × Char))
  deriving DecidableEq, Inhabited, Repr

namespace PatternPart

def isAt (c : Char) : List Glyph → Bool
  | g :: _ => g.char = c && !g.quoted
  | [] => false

/-- The ranges up to the closing bracket, and the glyphs after it; the first glyph cannot
close. -/
def ranges? : (isFirst : Bool) → List Glyph → Option (List (Char × Char) × List Glyph)
  | _, [] => none
  | isFirst, g :: rest =>
    if !isFirst && g.char = ']' && !g.quoted then some ([], rest)
    else match rest with
      | dash :: high :: after =>
        if dash.char = '-' && !dash.quoted && !(high.char = ']' && !high.quoted) then
          (ranges? false after).map fun (later, after) => ((g.char, high.char) :: later, after)
        else (ranges? false (dash :: high :: after)).map fun (later, after) =>
          ((g.char, g.char) :: later, after)
      | rest => (ranges? false rest).map fun (later, after) => ((g.char, g.char) :: later, after)

def brackets? (glyphs : List Glyph) : Option (PatternPart × List Glyph) :=
  let negated := isAt '!' glyphs || isAt '^' glyphs
  (ranges? true (if negated then glyphs.tail else glyphs)).map fun (ranges, after) =>
    (.oneOf negated ranges, after)

/-- The parts of a pattern; `limit` bounds their number. -/
def parse : (limit : Nat) → List Glyph → List PatternPart
  | 0, _ => []
  | _ + 1, [] => []
  | limit + 1, g :: rest =>
    if g.quoted then .exactly g.char :: parse limit rest
    else if g.char = '*' then .anyText :: parse limit rest
    else if g.char = '?' then .anyCharacter :: parse limit rest
    else if g.char = '[' then
      match brackets? rest with
      | some (part, rest) => part :: parse limit rest
      | none => .exactly g.char :: parse limit rest
    else .exactly g.char :: parse limit rest

def admits : PatternPart → Char → Bool
  | exactly c, d => c = d
  | anyCharacter, _ => true
  | anyText, _ => true
  | oneOf negated ranges, d => (ranges.any fun (low, high) => low ≤ d && d ≤ high) != negated

def matchesAll : List PatternPart → List Char → Bool
  | [], cs => cs.isEmpty
  | .anyText :: parts, [] => matchesAll parts []
  | .anyText :: parts, c :: cs => matchesAll parts (c :: cs) || matchesAll (.anyText :: parts) cs
  | part :: parts, c :: cs => part.admits c && matchesAll parts cs
  | _ :: _, [] => false
termination_by parts cs => parts.length + cs.length

end PatternPart

def patternOf (glyphs : List Glyph) : List PatternPart :=
  PatternPart.parse (glyphs.length + 1) glyphs

/-- Whether glyphs have a meaning as a pattern other than themselves. -/
def hasPattern (glyphs : List Glyph) : Bool := (patternOf glyphs).any fun
  | .exactly _ => false
  | _ => true

/-- A text without what a pattern matches at one of its ends: the longest or the shortest. -/
def cutMatch (atEnd longest : Bool) (parts : List PatternPart) (cs : List Char) : List Char :=
  let lengths := List.range (cs.length + 1)
  let tried := if longest then lengths.reverse else lengths
  let cut? := tried.find? fun n =>
    PatternPart.matchesAll parts (if atEnd then cs.drop (cs.length - n) else cs.take n)
  match cut? with
  | none => cs
  | some n => if atEnd then cs.take (cs.length - n) else cs.drop n

end CompositionGen.Script
