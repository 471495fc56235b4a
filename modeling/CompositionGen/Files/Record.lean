import CompositionGen.Files
import CompositionGen.Json.Record

/-!
# File trees as JSON

A regular file is its text, a directory is an object with its entries below `entries`, a symbolic
link has its target below `link`, a device has its kind below `device`, and an executable file has
its text below `program`. A file that
is no text is the list of its cells below `cells`, where a byte is a number and a library is an
object that tells what it exports.
-/

namespace CompositionGen

namespace Cell

/-- Reads what a library exports; an object without members stands for nothing. -/
def exportOfJson? (members : List (String × Json)) : Option (Option LibraryExport) :=
  if members.isEmpty then some none
  else do
    let abiVersion ← Json.required? Json.int? "abiVersion" members
    let buildVersion ← Json.required? Json.string? "buildVersion" members
    let builder ← Json.required? Json.string? "builder" members
    some (some ⟨abiVersion.toNat, buildVersion, builder⟩)

def ofJson? : Json → Option Cell
  | .object members => (exportOfJson? members).map .library
  | value => (Json.intIn? 0 255 value).map fun n => .byte (UInt8.ofNat n.toNat)

def toJson : Cell → Json
  | byte value => .nat value.toNat
  | library none => .object []
  | library (some e) => .object [("abiVersion", .nat e.abiVersion),
      ("buildVersion", .string e.buildVersion), ("builder", .string e.builder)]

end Cell

namespace FileNode

mutual

def ofJson? : Json → Option FileNode
  | .string text => some (.file (.ofText text) false)
  | .object [("program", .string text)] => some (.file (.ofText text) true)
  | .object [("link", .string target)] => some (.link (.ofText target))
  | .object [("device", .string "null")] => some (.device .null)
  | .object [("device", .string "full")] => some (.device .full)
  | .object [("cells", .array items)] => (items.mapM Cell.ofJson?).map fun cells =>
    .file cells false
  | .object [("entries", .object members)] =>
    (entriesOfJson? members).map fun entries => .directory entries
  | _ => none

def entriesOfJson? : List (String × Json) → Option Entries
  | [] => some []
  | (name, value) :: rest => do
    let node ← ofJson? value
    let entries ← entriesOfJson? rest
    some (Dictionary.alterEntries (ByteString.ofText name) (fun _ => node) entries)

end

mutual

def toJson : FileNode → Json
  | .file content executable => match content.text? with
    | some text => if executable then .object [("program", .string text)] else .string text
    | none => .object [("cells", .array (content.map Cell.toJson))]
  | .link target => .object [("link", .string target.display)]
  | .device .null => .object [("device", .string "null")]
  | .device .full => .object [("device", .string "full")]
  | .directory entries => .object [("entries", .object (entriesToJson entries))]

def entriesToJson : Entries → List (String × Json)
  | [] => []
  | (name, node) :: rest => (name.display, toJson node) :: entriesToJson rest

end

end FileNode

end CompositionGen
