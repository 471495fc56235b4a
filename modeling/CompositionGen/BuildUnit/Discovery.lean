import CompositionGen.BuildUnit
import CompositionGen.Files.Walk

/-!
# Finding build units

The build units below a root are the directories that hold a marker file. Hidden directories and
excluded ones are left out with all that they hold; the root itself is always searched. Units come
in the order of their paths.
-/

namespace CompositionGen.BuildUnit

structure DiscoveryError where
  root : Path
  cause : WalkError
  deriving DecidableEq, Inhabited, Repr

def DiscoveryError.messages (e : DiscoveryError) : List String :=
  ("cannot walk " ++ e.root.display) :: e.cause.messages

/-- A name that begins with a dot is hidden, if it is a text. -/
def isHidden (name : ByteString) : Bool :=
  name.text?.any fun text => ['.'].isPrefixOf text.toList

/-- Whether a directory is excluded: its path from the root begins with an exclusion. -/
def isExcluded (exclude : List Path) (location : Location) : Bool :=
  exclude.any fun p => p.components.isPrefixOf (location.map .name)

/-- Whether the search enters a directory, given by its location from the root. -/
def admits (exclude : List Path) (location : Location) : Bool :=
  !(location.getLast?.any isHidden) && !isExcluded exclude location

/-- The directories that are searched, by their locations from the root. -/
def searched (exclude : List Path) (start : WalkRoot) : List Location :=
  (if start.node.isDirectory && !start.isLink then [[]] else [])
    ++ start.node.directoriesBelow (admits exclude) []

/-- Whether a unit may stand before another: by the components of their paths. -/
def mayPrecede (a b : BuildUnit) : Bool := !(b.sourcePath.precedes a.sourcePath)

/-- The build units below a root, each directory before those that it holds. -/
def found (fs : FileSystem) (root : Path) (marker : String) (exclude : List Path) :
    Except DiscoveryError (List BuildUnit) :=
  match fs.walkRoot root with
  | .error cause => .error ⟨root, cause⟩
  | .ok start =>
    match fs.openAll root (searched exclude start) with
    | .error cause => .error ⟨root, cause⟩
    | .ok () =>
      let marked := (searched exclude start).filter fun location =>
        fs.hasFile ((root.joinAll location).join (.ofText marker))
      .ok (marked.map fun location => of fs root (root.joinAll location))

def discover (fs : FileSystem) (root : Path) (marker : String) (exclude : List Path) :
    Except DiscoveryError (List BuildUnit) :=
  (found fs root marker exclude).map fun units => units.mergeSort mayPrecede

end CompositionGen.BuildUnit
