import CompositionGen.Files.Walk
import CompositionGen.Text.Blank

/-!
# Template files

A template is the text of one file, or of all files below a directory in the order of a walk. A
path that ends in a slash, or in a slash and a star, names a directory. The texts are put on
lines of their own, and white space around the whole is dropped.
-/

namespace CompositionGen.Template

inductive LoadError where
  | walk (cause : WalkError)
  | read (cause : FileError)
  deriving DecidableEq, Inhabited, Repr

def LoadError.messages : LoadError → List String
  | walk cause => cause.messages
  | read cause => [cause.message]

def LoadError.kind : LoadError → FileError
  | walk e => e.cause
  | read cause => cause

/-- The pattern without one star at its end. -/
def withoutStar (pattern : String) : String :=
  match pattern.toList.reverse with
  | '*' :: rest => String.ofList rest.reverse
  | _ => pattern

/-- The paths of the files that a path names: of the regular files that a walk meets, in its order,
if the path ends in a slash. -/
def filesAt (fs : FileSystem) (p : Path) : Except LoadError (List Path) :=
  if p.text.toList.getLast? = some '/' then
    match fs.walkRoot p with
    | .error cause => .error (.walk cause)
    | .ok start =>
      let met := (if start.isLink then [] else [([], start.node)]) ++ start.node.descendants
      let places (is : FileNode → Bool) := (met.filter fun (_, node) => is node).map (·.1)
      match fs.openAll p (places FileNode.isDirectory) with
      | .error cause => .error (.walk cause)
      | .ok () => .ok ((places FileNode.isFile).map p.joinAll)
  else .ok [p]

/-- The texts put on lines of their own, without white space around them. -/
def assemble (texts : List String) : String := Text.trim (Text.joinTexts "\n" texts)

def load (fs : FileSystem) (pattern : String) : Except LoadError String := do
  let files ← filesAt fs (.ofText (withoutStar pattern))
  let texts ← (files.mapM fs.readText).mapError .read
  pure (assemble texts)

end CompositionGen.Template
