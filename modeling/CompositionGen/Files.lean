import CompositionGen.Files.Tree

/-!
# File systems

A tree of files with a current directory. A path is followed step by step from the current
directory or the root; a symbolic link on the way is replaced by the steps of its target, at most
forty times. Every operation returns the changed file system or the cause of its failure.
-/

namespace CompositionGen

/-- A tree of files and the directory that relative paths start from. -/
structure FileSystem where
  root : FileNode
  cwd : Location
  deriving Inhabited, Repr

namespace FileSystem

/-! ## Following paths -/

inductive Place where
  | occupied (location : Location) (node : FileNode)
  /-- Nothing there, but the directory that would hold it is. -/
  | vacant (directory : Location) (name : ByteString)
  deriving Inhabited, Repr

def linkLimit : Nat := 40

def nameLimit : Nat := 255

def pathLimit : Nat := 4095

/-- Takes steps from a location. A link on the way is handed to `onLink` with the directory that
holds it and the steps left; a link at the end is followed only if `followLast`. -/
def walk (root : FileNode) (followLast : Bool)
    (onLink : Location → Path → List Path.Step → Except FileError Place) :
    Location → List Path.Step → Except FileError Place
  | here, [] => match root.at? here with
    | some node => .ok (.occupied here node)
    | none => .error .notFound
  | here, step :: rest => match root.at? here with
    | none => .error .notFound
    | some (.directory entries) => match step with
      | .stay => walk root followLast onLink here rest
      | .up => walk root followLast onLink here.dropLast rest
      | .down name =>
        if nameLimit < name.length then .error .nameTooLong
        else match lookup? name entries with
          | none => if rest.isEmpty then .ok (.vacant here name) else .error .notFound
          | some (.link target) =>
            if rest.isEmpty && !followLast then .ok (.occupied (here ++ [name]) (.link target))
            else onLink here target rest
          | some _ => walk root followLast onLink (here ++ [name]) rest
    | some _ => .error .notDirectory

/-- Where a path starts that is found in the directory `here`. -/
def startOf (here : Location) (p : Path) : Location := if p.isAbsolute then [] else here

/-- Takes steps from a location and follows at most `links` links. -/
def walkLinks (root : FileNode) (followLast : Bool) :
    (links : Nat) → Location → List Path.Step → Except FileError Place
  | 0 => walk root followLast fun _ _ _ => .error .tooManyLinks
  | links + 1 => walk root followLast fun here target rest =>
      walkLinks root followLast links (startOf here target) (target.steps ++ rest)

/-- Refuses a path that no file can have. -/
def checkPath (p : Path) : Except FileError Unit :=
  if p.text.toList.any (· = '\x00') then .error .nullInPath
  else if p.text.isEmpty then .error .notFound
  else if pathLimit < p.text.length then .error .nameTooLong
  else .ok ()

/-- Where a path leads; a link at its end is followed. -/
def resolve (fs : FileSystem) (p : Path) : Except FileError Place := do
  checkPath p
  walkLinks fs.root true linkLimit (startOf fs.cwd p) p.steps

/-- The entry that a path names; a link at its end is not followed. -/
def resolveEntry (fs : FileSystem) (p : Path) : Except FileError Place := do
  checkPath p
  walkLinks fs.root false linkLimit (startOf fs.cwd p) p.steps

def Place.node? : Place → Except FileError FileNode
  | occupied _ node => .ok node
  | vacant _ _ => .error .notFound

/-- What a path stands for, links followed. -/
def stat (fs : FileSystem) (p : Path) : Except FileError FileNode := do (← fs.resolve p).node?

/-- What a path names, where a link stands for itself. -/
def entryStat (fs : FileSystem) (p : Path) : Except FileError FileNode := do
  (← fs.resolveEntry p).node?

def hasNode (fs : FileSystem) (p : Path) : Bool := (fs.stat p).toOption.isSome

def hasFile (fs : FileSystem) (p : Path) : Bool := (fs.stat p).toOption.any FileNode.isFile

def hasDirectory (fs : FileSystem) (p : Path) : Bool :=
  (fs.stat p).toOption.any FileNode.isDirectory

def locate (fs : FileSystem) (p : Path) : Except FileError Location := do
  match ← fs.resolve p with
  | .occupied location _ => pure location
  | .vacant _ _ => .error .notFound

def pathOf (location : Location) : Path := ⟨"/" ++ Text.joinTexts "/" location⟩

/-- A path that does not depend on the current directory. -/
def absolute (fs : FileSystem) (p : Path) : Path := (pathOf fs.cwd).join p

/-! ## Reading -/

def read (fs : FileSystem) (p : Path) : Except FileError Content := do
  match ← fs.stat p with
  | .file content _ => pure content
  | .device _ => pure []
  | _ => .error .isDirectory

def textOf (content : Content) : Except FileError String :=
  match content.text? with
  | some text => .ok text
  | none => .error .notUtf8

def readText (fs : FileSystem) (p : Path) : Except FileError String := do
  textOf (← fs.read p)

def entriesAt (fs : FileSystem) (p : Path) : Entries :=
  match fs.stat p with
  | .ok (.directory entries) => entries
  | _ => []

/-- What lies below the directory at a path besides directories, with the names that lead there
and what reading it gives. Links are followed; `depth` bounds the number of names. -/
def readBelow (fs : FileSystem) :
    (depth : Nat) → Path → List (Location × Except FileError Content)
  | 0, _ => []
  | depth + 1, p => (fs.entriesAt p).flatMap fun (name, _) =>
    let inner := p.join ⟨name⟩
    if fs.hasDirectory inner then
      (readBelow fs depth inner).map fun (location, content) => (name :: location, content)
    else [([name], fs.read inner)]

/-- What lies below the directory at a path besides directories. A path that is longer than paths
may be leads nowhere, so that all names are met. -/
def filesBelow (fs : FileSystem) (p : Path) : List (Location × Except FileError Content) :=
  fs.readBelow pathLimit p

/-! ## Writing -/

def put (fs : FileSystem) (location : Location) (node : FileNode) : FileSystem :=
  { fs with root := fs.root.put location node }

/-- Where a path leads at which a file is to be written, which is nowhere if it asks for a
directory. -/
def resolveFile (fs : FileSystem) (p : Path) : Except FileError Place := do
  if p.asksDirectory then
    checkPath p
    match ← walkLinks fs.root true linkLimit (startOf fs.cwd p) p.entrySteps.dropLast with
    | .occupied _ (.directory _) => .error .isDirectory
    | .occupied _ _ => .error .notDirectory
    | .vacant _ _ => .error .notFound
  else fs.resolve p

/-- Gives the regular file at a path a content; a new file is executable if `executable`. -/
def write (fs : FileSystem) (p : Path) (content : Content) (executable : Bool) :
    Except FileError FileSystem := do
  match ← fs.resolveFile p with
  | .occupied location (.file _ old) => pure (fs.put location (.file content old))
  | .occupied _ (.device d) => (d.take content).map fun () => fs
  | .occupied _ _ => .error .isDirectory
  | .vacant directory name => pure (fs.put (directory ++ [name]) (.file content executable))

def writeText (fs : FileSystem) (p : Path) (text : String) : Except FileError FileSystem :=
  fs.write p (.ofText text) false

/-- Adds an entry where nothing is. -/
def create (fs : FileSystem) (p : Path) (node : FileNode) : Except FileError FileSystem := do
  checkPath p
  match ← walkLinks fs.root false linkLimit (startOf fs.cwd p) p.entrySteps with
  | .occupied _ _ => .error .alreadyExists
  | .vacant directory name => pure (fs.put (directory ++ [name]) node)

def createDirectory (fs : FileSystem) (p : Path) : Except FileError FileSystem :=
  fs.create p (.directory [])

/-- Makes the first of the paths a directory, and before it those after it as far as they are
missing. -/
def createFirst (fs : FileSystem) : List Path → Except FileError FileSystem
  | [] => .ok fs
  | p :: above =>
    if p.text.isEmpty then .ok fs
    else match fs.createDirectory p with
      | .ok made => .ok made
      | .error .notFound => do
        let made ← createFirst fs above
        match made.createDirectory p with
        | .ok made => pure made
        | .error cause => if made.hasDirectory p then pure made else .error cause
      | .error cause => if fs.hasDirectory p then .ok fs else .error cause

/-- Makes a directory with all those above it; one that is there already is fine. -/
def createDirectories (fs : FileSystem) (p : Path) : Except FileError FileSystem :=
  fs.createFirst p.ancestors

/-- Copies the content of a regular file, and for a new file whether it is executable. The target
is emptied before the source is read. -/
def copy (fs : FileSystem) (source target : Path) : Except FileError FileSystem := do
  match ← fs.stat source with
  | .file _ executable =>
    let emptied ← fs.write target [] executable
    let copied ← emptied.write target (← emptied.read source) executable
    match ← copied.resolve target with
    | .occupied location (.file content _) => pure (copied.put location (.file content executable))
    | _ => pure copied
  | _ => .error .notRegular

/-- Whether a path with the slashes at its end left out names a link. -/
def namesLink (fs : FileSystem) (p : Path) : Bool :=
  match walkLinks fs.root false linkLimit (startOf fs.cwd p) p.entrySteps with
  | .ok (.occupied _ (.link _)) => true
  | _ => false

/-- Removes a link, or a directory with all that it holds, and says what is in the way. A
directory that is named by dots, is the root or is reached by a link is only emptied. -/
def removeDirectory (fs : FileSystem) (p : Path) : FileSystem × Option FileError :=
  match fs.resolveEntry p with
  | .error cause => (fs, some cause)
  | .ok (.vacant _ _) => (fs, some .notFound)
  | .ok (.occupied _ (.file _ _)) | .ok (.occupied _ (.device _)) => (fs, some .notDirectory)
  | .ok (.occupied location (.link _)) => ({ fs with root := fs.root.remove location }, none)
  | .ok (.occupied location (.directory _)) =>
    match p.entrySteps.getLast? with
    | some (.down _) =>
      if fs.namesLink p then (fs.put location (.directory []), some .notDirectory)
      else ({ fs with root := fs.root.remove location }, none)
    | _ => (fs.put location (.directory []), some .directoryNotEmpty)

/-- The paths at which every system has a directory. -/
def commonDirectories : List String :=
  ["/bin", "/dev", "/etc", "/home", "/root", "/tmp", "/usr/bin", "/var"]

/-- The file system with the directories and devices that every system has, as far as nothing is
in the way. -/
def equipped (fs : FileSystem) : FileSystem :=
  let made := commonDirectories.foldl (fun fs p =>
    (fs.createDirectories ⟨p⟩).toOption.getD fs) fs
  [("/dev/null", Device.null), ("/dev/full", .full)].foldl (fun fs (p, d) =>
    (fs.create ⟨p⟩ (.device d)).toOption.getD fs) made

end FileSystem

end CompositionGen
