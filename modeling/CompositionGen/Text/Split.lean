/-!
# Cutting and replacing text

Texts as lists of characters: cutting at every occurrence of a separator, joining the parts
again, and replacing every occurrence of a word from left to right.
-/

namespace CompositionGen.Text

/-- The parts between the occurrences of a separator; there is always one part. -/
def split (separator : Char) : List Char → List (List Char)
  | [] => [[]]
  | c :: rest =>
    if c = separator then [] :: split separator rest
    else match split separator rest with
      | [] => [[c]]
      | part :: parts => (c :: part) :: parts

def join (separator : List Char) : List (List Char) → List Char
  | [] => []
  | [part] => part
  | part :: parts => part ++ separator ++ join separator parts

/-- The text with every occurrence of `word` replaced, from left to right; `skip` characters are
the rest of an occurrence just replaced. -/
def replaceFrom (word replacement : List Char) : (skip : Nat) → List Char → List Char
  | _, [] => []
  | skip + 1, _ :: rest => replaceFrom word replacement skip rest
  | 0, c :: rest =>
    if word.isPrefixOf (c :: rest) then
      replacement ++ replaceFrom word replacement (word.length - 1) rest
    else c :: replaceFrom word replacement 0 rest

/-- The text with every occurrence of a word replaced, from left to right. -/
def replace (word replacement text : List Char) : List Char :=
  replaceFrom word replacement 0 text

def joinTexts (separator : String) (parts : List String) : String :=
  String.ofList (join separator.toList (parts.map String.toList))

end CompositionGen.Text
