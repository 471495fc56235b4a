import CompositionGen.Dictionary
import CompositionGen.Files.Content
import CompositionGen.Files.Error
import CompositionGen.Files.Path

/-!
# File trees

A directory holds its entries in the byte order of their names, a file has a content, a device
holds nothing, and a symbolic link holds the path that it stands for. A location is the list of
names that leads from the root to a node without following links.
-/

namespace CompositionGen

/-- A device; there is nothing to be read from it. -/
inductive Device where
  /-- It takes everything that is written to it. -/
  | null
  /-- It has no room for what is written to it. -/
  | full
  deriving DecidableEq, Inhabited, Repr

def Device.take (d : Device) (content : Content) : Except FileError Unit :=
  if d = .full && !content.isEmpty then .error .noSpace else .ok ()

inductive FileNode where
  | file (content : Content) (executable : Bool)
  | device (kind : Device)
  | link (target : Path)
  | directory (entries : List (ByteString × FileNode))
  deriving Inhabited, Repr

abbrev Entries := List (ByteString × FileNode)

/-- The names that lead from the root to a node. -/
abbrev Location := List ByteString

namespace FileNode

def isDirectory : FileNode → Bool
  | directory _ => true
  | _ => false

def isFile : FileNode → Bool
  | file _ _ => true
  | _ => false

/-- The entries of a directory; nothing else has entries. -/
def entries : FileNode → Entries
  | directory entries => entries
  | _ => []

def at? (node : FileNode) : Location → Option FileNode
  | [] => some node
  | name :: rest => (lookup? name node.entries).bind fun child => child.at? rest

/-- The tree with the node at a location replaced or added; the directory that holds it has to be
there. -/
def put : FileNode → Location → FileNode → FileNode
  | _, [], new => new
  | directory entries, [name], new =>
    directory (Dictionary.alterEntries name (fun _ => new) entries)
  | directory entries, name :: rest, new =>
    match lookup? name entries with
    | some child =>
      directory (Dictionary.alterEntries name (fun _ => child.put rest new) entries)
    | none => directory entries
  | other, _ :: _, _ => other

def remove : FileNode → Location → FileNode
  | node, [] => node
  | directory entries, [name] => directory (entries.filter (·.1 ≠ name))
  | directory entries, name :: rest =>
    match lookup? name entries with
    | some child => directory (Dictionary.alterEntries name (fun _ => child.remove rest) entries)
    | none => directory entries
  | other, _ :: _ => other

/-! ## Listing -/

mutual

/-- Every node below a node with its location: each directory before what it holds, and its
entries in order. -/
def descendants : FileNode → List (Location × FileNode)
  | directory entries => descendantsOf entries
  | _ => []

/-- Every node of the entries of a directory with its location. -/
def descendantsOf : Entries → List (Location × FileNode)
  | [] => []
  | (name, node) :: rest =>
    ([name], node) :: ((descendants node).map fun (location, n) => (name :: location, n))
      ++ descendantsOf rest

end

mutual

/-- The locations of the directories below a node, where a directory refused by `admits` is left
out with all that it holds; `here` is the location of the node. -/
def directoriesBelow (admits : Location → Bool) (here : Location) : FileNode → List Location
  | directory entries => directoriesOf admits here entries
  | _ => []

/-- The locations of the admitted directories among the entries of the directory `here`. -/
def directoriesOf (admits : Location → Bool) (here : Location) : Entries → List Location
  | [] => []
  | (name, node) :: rest =>
    let location := here ++ [name]
    (if node.isDirectory && admits location then
        location :: directoriesBelow admits location node
      else [])
      ++ directoriesOf admits here rest

end

end FileNode

end CompositionGen
