import CompositionGen.Files

/-!
# Walking a directory

Where a walk over a path begins. A link that is the path itself is followed, and the walk goes
over the directory behind it, but the link is still told apart from a directory; links below are
not entered. A walk opens each directory by its path, and the first one that cannot be opened ends
it.
-/

namespace CompositionGen

structure WalkError where
  path : Path
  cause : FileError
  deriving DecidableEq, Inhabited, Repr

def WalkError.messages (e : WalkError) : List String :=
  ["IO error for operation on " ++ e.path.display ++ ": " ++ e.cause.message, e.cause.message]

structure WalkRoot where
  location : Location
  node : FileNode
  isLink : Bool
  deriving Inhabited, Repr

/-- Where a walk over a path begins. -/
def FileSystem.walkRoot (fs : FileSystem) (p : Path) : Except WalkError WalkRoot :=
  match fs.resolveEntry p, fs.resolve p with
  | .ok (.occupied _ (.link _)), .ok (.occupied location node) => .ok ⟨location, node, true⟩
  | .ok (.occupied _ (.link _)), .ok (.vacant _ _) => .error ⟨p, .notFound⟩
  | .ok (.occupied _ (.link _)), .error cause => .error ⟨p, cause⟩
  | .ok (.occupied location node), _ => .ok ⟨location, node, false⟩
  | .ok (.vacant _ _), _ => .error ⟨p, .notFound⟩
  | .error cause, _ => .error ⟨p, cause⟩

def FileSystem.openAll (fs : FileSystem) (p : Path) : List Location → Except WalkError Unit
  | [] => .ok ()
  | location :: rest =>
    match fs.stat (p.joinAll location) with
    | .error cause => .error ⟨p.joinAll location, cause⟩
    | .ok _ => fs.openAll p rest

end CompositionGen
