import CompositionGen.Files
import CompositionGen.Script.Expansion

/-!
# Names that match patterns

A field with a meaning as a pattern becomes the sorted names of the files that it matches, or stays
as it is where there are none. A pattern matches within one directory, and a dot at the start of a
name has to be spelled out.
-/

namespace CompositionGen.Script

def cutAtSlashes : List Glyph → List (List Glyph)
  | [] => [[]]
  | g :: rest =>
    if g.char = '/' then [] :: cutAtSlashes rest
    else match cutAtSlashes rest with
      | [] => [[g]]
      | part :: parts => (g :: part) :: parts

def namesIn (files : FileSystem) (directory : ByteString) : List ByteString :=
  let p : Path := ⟨if directory.isEmpty then "." else directory⟩
  if files.hasDirectory p then "." :: ".." :: (files.entriesAt p).map (·.1) else []

/-- Whether a name is one that a part of a pattern stands for. -/
def admitsName (glyphs : List Glyph) (name : String) : Bool :=
  PatternPart.matchesAll (patternOf glyphs) name.toList
    && (name.toList.head? != some '.' || (glyphs.head?.map (·.char)) == some '.')

/-- The names that begin with one of some names and go on as the parts of a pattern say. -/
def continueNames (files : FileSystem) (begun : List String) : List (List Glyph) → List String
  | [] => begun
  | part :: rest =>
    let after := if rest.isEmpty then "" else "/"
    let longer :=
      if hasPattern part then begun.flatMap fun directory =>
        ((namesIn files directory).filter (admitsName part)).map (directory ++ · ++ after)
      else begun.map (· ++ String.ofList (part.map (·.char)) ++ after)
    continueNames files longer rest

def matchingNames (files : FileSystem) (field : List Glyph) : List String :=
  let literal := String.ofList (field.map (·.char))
  if !(cutAtSlashes field).any hasPattern then [literal]
  else
    let found := (continueNames files [""] (cutAtSlashes field)).filter fun name =>
      (files.entryStat ⟨name⟩).toOption.isSome
    if found.isEmpty then [literal] else found.mergeSort fun a b => decide (a ≤ b)

end CompositionGen.Script
