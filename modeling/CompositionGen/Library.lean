import CompositionGen.Demo.Example
import CompositionGen.Demo.PipelineExample
import CompositionGen.Report

/-!
# Builder libraries

A library is a file that exports a declaration: the interface it was made for and a constructor of
its builder. A declaration is accepted only if its interface is the host's in both parts, the
revision first, and only then its constructor is called. The constructor is code of the library, and
nothing stands between a panic of it and its caller. A file is opened as a library if its content
begins with one; what follows does not matter.
-/

namespace CompositionGen

/-- What a library says about itself. -/
structure Declaration where
  abiVersion : Nat
  buildVersion : String
  /-- The builder that the constructor makes if it returns. -/
  create : Builder
  /-- What the constructor panics with, if it does not return. -/
  panic : Option Panic := none
  deriving Inhabited

/-- A library that could be opened; it may export no declaration. -/
structure Library where
  declaration : Option Declaration
  deriving Inhabited

/-- What opening the library at a path gives; `none` where there is none. -/
abbrev Linker := Path → Option Library

/-! ## Loading -/

def hostAbi : Nat := 1

def hostVersion : String := "0.1.0"

def builderSymbol : String := "XRC_BUILDER"

inductive LoadError where
  | cannotOpen (path : Path)
  | missingSymbol (path : Path)
  | incompatible (path : Path) (expected found : String)
  deriving DecidableEq, Inhabited, Repr

def LoadError.message : LoadError → String
  | cannotOpen path => "cannot open " ++ path.display
  | missingSymbol path => path.display ++ " does not export " ++ builderSymbol
  | incompatible path expected found =>
    path.display ++ " was built against " ++ found ++ ", host expects " ++ expected

namespace Declaration

def isCompatible (d : Declaration) : Bool :=
  d.abiVersion == hostAbi && d.buildVersion == hostVersion

/-- Accepts the declarations made for this host; the version counts only if the revisions agree. -/
def check (path : Path) (d : Declaration) : Except LoadError Unit :=
  if d.abiVersion ≠ hostAbi then
    .error (.incompatible path s!"abi {hostAbi}" s!"abi {d.abiVersion}")
  else if d.buildVersion ≠ hostVersion then
    .error (.incompatible path ("xrc-build " ++ hostVersion) ("xrc-build " ++ d.buildVersion))
  else .ok ()

def construct (d : Declaration) : Except Panic Builder := d.panic.elim (.ok d.create) .error

end Declaration

structure LoadedBuilder where
  builder : Builder
  path : Path
  deriving Inhabited

def LoadedBuilder.describe (b : LoadedBuilder) : String :=
  "LoadedBuilder \x7b path: " ++ b.path.text.quoted ++ ", .. \x7d"

/-- Loads the builder of the library at a path. An accepted declaration is asked for its builder by
`make`. -/
def Linker.loadWith {m : Type → Type} [Monad m] (make : Declaration → m Builder) (linker : Linker)
    (path : Path) : m (Except LoadError LoadedBuilder) :=
  match linker path with
  | none => pure (.error (.cannotOpen path))
  | some library =>
    match library.declaration with
    | none => pure (.error (.missingSymbol path))
    | some d =>
      match d.check path with
      | .error cause => pure (.error cause)
      | .ok () => do
        let builder ← make d
        pure (.ok ⟨builder, path⟩)

def Linker.load (linker : Linker) (path : Path) : Except LoadError LoadedBuilder :=
  Id.run (linker.loadWith (fun d => pure d.create) path)

/-! ## Library files -/

namespace LibraryExport

def builders : List (String × Builder) :=
  [("example", Demo.exampleBuilder), ("pipelineexample", Demo.pipelineBuilder)]

def declaration (e : LibraryExport) : Declaration where
  abiVersion := e.abiVersion
  buildVersion := e.buildVersion
  create := (lookup? e.builder builders).getD default

end LibraryExport

/-- Opens the libraries among the files. A path without a slash is not looked up among them, and
the empty path is the program itself, which exports nothing. -/
def FileSystem.linker (fs : FileSystem) : Linker := fun p =>
  if p.text.isEmpty then some ⟨none⟩
  else if p.text.toList.any (· = '/') then
    ((fs.read p).toOption.bind Content.library?).map fun declared =>
      ⟨declared.map LibraryExport.declaration⟩
  else none

end CompositionGen
