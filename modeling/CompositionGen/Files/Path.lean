import CompositionGen.Text.ByteString
import CompositionGen.Text.Split

/-!
# File paths

A path is kept as it was written and read in two ways. Its components are what it names: repeated
slashes and inner dots do not count, so that `a//b` and `a/./b` have the components of `a/b`.
Its steps are what the system does to follow it, where a trailing slash or dot asks for a directory.
Paths and names are byte strings; they are texts only where they are shown.
-/

namespace CompositionGen

structure Path where
  text : ByteString
  deriving DecidableEq, Inhabited, Repr

namespace Path

def ofText (text : String) : Path := ⟨.ofText text⟩

def display (p : Path) : String := p.text.display

inductive Component where
  | root
  | current
  | parent
  | name (text : ByteString)
  deriving DecidableEq, Inhabited, Repr

namespace Component

def text : Component → ByteString
  | root => "/"
  | current => "."
  | parent => ".."
  | name text => text

def rank : Component → Nat
  | root => 0
  | current => 1
  | parent => 2
  | name _ => 3

/-- Components are ordered by kind, names by their bytes. -/
def lt : Component → Component → Bool
  | name a, name b => decide (a < b)
  | a, b => a.rank < b.rank

end Component

def pieces (p : Path) : List ByteString := (Text.split '/' p.text.toList).map String.ofList

def isAbsolute (p : Path) : Bool := ['/'].isPrefixOf p.text.toList

/-- A piece that is no component of its own. -/
def isBlankPiece (piece : ByteString) : Bool := piece == "" || piece == "."

/-- The component of a piece that is not the first. -/
def innerComponent? (piece : ByteString) : Option Component :=
  if isBlankPiece piece then none
  else if piece = ".." then some .parent
  else some (.name piece)

/-- The component of the first piece: a path that begins with a slash has the root there, and a
dot counts. -/
def firstComponent? (absolute : Bool) (piece : ByteString) : Option Component :=
  if absolute then some .root
  else if piece = "." then some .current
  else innerComponent? piece

def components (p : Path) : List Component :=
  match p.pieces with
  | [] => []
  | first :: rest =>
    (firstComponent? p.isAbsolute first).toList ++ rest.filterMap innerComponent?

/-- Whether two paths have the same components. -/
def same (p q : Path) : Bool := p.components == q.components

/-- Whether a path comes before another, component by component. -/
def precedes (p q : Path) : Bool := p.components.lex q.components Component.lt

/-- A path continued by another; an absolute one replaces it. -/
def join (p q : Path) : Path :=
  if q.isAbsolute then q
  else if p.text.isEmpty || p.text.toList.getLast? = some '/' then ⟨p.text ++ q.text⟩
  else ⟨p.text ++ "/" ++ q.text⟩

def joinAll (p : Path) (names : List ByteString) : Path :=
  names.foldl (fun p name => p.join ⟨name⟩) p

/-- The components of a path after those of a base, if it begins with them. -/
def below? (base p : Path) : Option (List Component) :=
  if base.components.isPrefixOf p.components then
    some (p.components.drop base.components.length)
  else none

/-- The path without its last component; the root and the empty path have none. -/
def parent? (p : Path) : Option Path :=
  match p.pieces with
  | [] => none
  | first :: rest =>
    match rest.reverse.dropWhile isBlankPiece with
    | [] => if first.isEmpty then none else some ⟨""⟩
    | _ :: earlier =>
      let kept := (earlier.dropWhile isBlankPiece).reverse
      if kept.isEmpty && first.isEmpty then some ⟨"/"⟩
      else some ⟨Text.joinTexts "/" (first :: kept)⟩

/-- A path and the paths above it, nearest first; `limit` bounds their number. -/
def ancestorsUpTo (limit : Nat) (p : Path) : List Path :=
  match limit with
  | 0 => [p]
  | limit + 1 => p :: (p.parent?.elim [] (ancestorsUpTo limit))

/-- A path and the paths above it, nearest first: each has a component less. -/
def ancestors (p : Path) : List Path := p.ancestorsUpTo p.components.length

/-- The last component, if it is a name. -/
def fileName? (p : Path) : Option ByteString :=
  match p.components.getLast? with
  | some (.name text) => some text
  | _ => none

/-- The part of a file name after its last dot; a dot that begins the name does not count. -/
def extensionOf? (name : List Char) : Option ByteString :=
  let tail := name.reverse.takeWhile (· ≠ '.')
  if tail.length + 1 < name.length then some (String.ofList tail.reverse) else none

/-- The part of the file name after its last dot. -/
def extension? (p : Path) : Option ByteString := p.fileName?.bind (extensionOf? ·.toList)

/-! ## Steps -/

/-- What is done to follow a path. -/
inductive Step where
  /-- Stay, which asks for a directory. -/
  | stay
  | up
  | down (name : ByteString)
  deriving DecidableEq, Inhabited, Repr

def stepOf (piece : ByteString) : Step :=
  if isBlankPiece piece then .stay else if piece = ".." then .up else .down piece

/-- The steps of a path, from the root or from the directory it is relative to. -/
def steps (p : Path) : List Step := p.pieces.map stepOf

/-- The steps to the entry that a path names: trailing slashes are left out. -/
def entrySteps (p : Path) : List Step :=
  ((p.pieces.reverse.dropWhile (· == "")).reverse).map stepOf

/-- Whether a path asks for a directory by a slash after a name. -/
def asksDirectory (p : Path) : Bool :=
  p.pieces.getLast? = some "" && match p.entrySteps.getLast? with
    | some (.down _) => true
    | _ => false

end Path

end CompositionGen
