import CompositionGen.Files

/-!
# Build units

A build unit is a directory that is compiled on its own. Its artifact is named after the way from
the search root to it, with the components joined by underscores; the search root itself is named
after the directory it stands for. The name is a text also where the way is none.
-/

namespace CompositionGen

/-- A directory that is compiled into one artifact. -/
structure BuildUnit where
  sourcePath : Path
  artifactName : String
  deriving DecidableEq, Inhabited, Repr

namespace BuildUnit

/-- The name of the directory that a path stands for; `root` where there is none. -/
def directoryName (fs : FileSystem) (p : Path) : String :=
  ((fs.locate p).toOption.bind List.getLast?).elim "root" ByteString.display

/-- The artifact name of components below a search root. -/
def nameOf (components : List Path.Component) : String :=
  Text.joinTexts "_" (components.map fun component => component.text.display)

/-- The unit of a source path. A path that is not below the search root counts as a whole. -/
def of (fs : FileSystem) (root sourcePath : Path) : BuildUnit where
  sourcePath
  artifactName :=
    match (root.below? sourcePath).getD sourcePath.components with
    | [] => directoryName fs root
    | components => nameOf components

def artifactFile (unit : BuildUnit) : String := unit.artifactName ++ ".so"

end BuildUnit

end CompositionGen
