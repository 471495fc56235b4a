import CompositionGen.Text.Decimal

/-!
# Names in messages

How the utilities write names of files in messages. A name that a shell would read as one word
stands as it is where that is allowed; any other is put between marks so that a shell would read it
back, and bytes that are not printable are written by their numbers.
-/

namespace CompositionGen.Utility

def isPrintable (c : Char) : Bool := ' ' ≤ c && c ≤ '~'

def controlLetter? (c : Char) : Option Char :=
  match c.toNat with
  | 7 => some 'a'
  | 8 => some 'b'
  | 9 => some 't'
  | 10 => some 'n'
  | 11 => some 'v'
  | 12 => some 'f'
  | 13 => some 'r'
  | _ => none

/-- What stands after a backslash for a byte that is not printable. -/
def controlText (c : Char) : List Char :=
  match controlLetter? c with
  | some letter => [letter]
  | none => [c.toNat / 64, c.toNat / 8 % 8, c.toNat % 8].map Nat.digitChar

/-- A character that has a meaning for a shell wherever it stands. -/
def isShellSpecial (c : Char) : Bool :=
  c.toNat = 39 || c.toNat = 34 || c.toNat = 96 || " !$&()*;<=>[^|\\?".toList.contains c

def needsMarks (name : List Char) : Bool :=
  name.isEmpty || name.any (fun c => isShellSpecial c || !isPrintable c)
    || name.head?.any (fun c => c = '#' || c = '~')
    || name = ['\x7b'] || name = ['\x7d']

/-- Whether a name can stand between quotation marks; it may begin with a sign that has a meaning
only there. -/
def suitsQuotation (name : List Char) : Bool :=
  let inner := match name with
    | '#' :: rest | '~' :: rest => rest
    | cs => cs
  inner.all fun c => c.isAlphanum || c.toNat = 39 || " %+,-./:@]_".toList.contains c

/-- The characters between marks; `coded` says whether the marks of coded bytes are open. -/
def markedChars (coded : Bool) : List Char → List Char
  | [] => []
  | c :: rest =>
    if !isPrintable c then
      (if coded then [] else "'$'".toList) ++ '\\' :: controlText c ++ markedChars true rest
    else if c.toNat = 39 then "'\\''".toList ++ markedChars false rest
    else (if coded then "''".toList else []) ++ c :: markedChars false rest

/-- A name between marks. -/
def markedName (name : String) : String :=
  let cs := name.toList
  if cs.any (·.toNat = 39) && suitsQuotation cs then "\"" ++ name ++ "\""
  else "'" ++ String.ofList (markedChars false cs) ++ "'"

def shownName (name : String) : String := if needsMarks name.toList then markedName name else name

def quotedValue (value : String) : String :=
  let inner := value.toList.flatMap fun c =>
    if !isPrintable c then '\\' :: controlText c
    else if c = '\\' || c.toNat = 39 then ['\\', c]
    else [c]
  "'" ++ String.ofList inner ++ "'"

end CompositionGen.Utility
