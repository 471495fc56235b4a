import CompositionGen.Process.Turn

/-!
# Redirections

A redirection gives a descriptor another channel before a command is run. What the descriptors
were before is remembered, so that it can be put back. The first redirection that cannot be made
is told, and those after it are not tried.
-/

namespace CompositionGen

inductive RedirectProblem where
  | said (message : String)
  /-- What should be the number of a descriptor is none. -/
  | noNumber
  deriving DecidableEq, Inhabited, Repr

structure OpenMode where
  reads : Bool
  writes : Bool
  appends : Bool := false
  empties : Bool := false
  onlyNew : Bool := false
  deriving DecidableEq, Inhabited, Repr

namespace OpenMode

def input : OpenMode := { reads := true, writes := false }

/-- Writing to a file, which is made if it is missing. -/
def output (kind : Script.OutputKind) (keepsFiles : Bool) : OpenMode where
  reads := false
  writes := true
  appends := kind = .append
  empties := kind ≠ .append
  onlyNew := kind = .replace && keepsFiles

/-- Reading from and writing to a file, which is made if it is missing. -/
def both : OpenMode := { reads := true, writes := true }

def problem (mode : OpenMode) (name : String) (cause : FileError) : String :=
  let (verb, absent) :=
    if mode.writes then ("create", "Directory nonexistent") else ("open", "No such file")
  let why := if cause = .notFound || cause = .notDirectory then absent else cause.reason
  "cannot " ++ verb ++ " " ++ name ++ ": " ++ why

end OpenMode

def deviceDescriptor? (name : String) : Option Nat :=
  match name with
  | "/dev/stdin" => some 0
  | "/dev/stdout" => some 1
  | "/dev/stderr" => some 2
  | _ =>
    let cs := name.toList
    if "/dev/fd/".toList.isPrefixOf cs && Decimal.isNumeral (cs.drop 8) then
      some (Decimal.value (cs.drop 8))
    else none

namespace Turn

/-- The files once the one at a path is there to be opened. -/
def prepareFile (u : Turn) (mode : OpenMode) (p : Path) : Except FileError FileSystem :=
  match mode.writes, u.files.stat p with
  | false, .ok _ => .ok u.files
  | false, .error cause => .error cause
  | true, .ok (.file old _) =>
    if mode.onlyNew then .error .alreadyExists
    else u.files.write p (if mode.empties then [] else old) false
  | true, .ok _ => .error .isDirectory
  | true, .error _ => u.files.write p [] false

/-- Opens the file at a path that is not a device. -/
def openFile (u : Turn) (mode : OpenMode) (p : Path) : Except FileError (Turn × Channel) := do
  let files ← u.prepareFile mode p
  let location ← files.locate p
  let v := u.withFiles files
  let (machine, channel) := v.machine.openFile
    { location, reads := mode.reads, writes := mode.writes, appends := mode.appends }
  pure ({ v with machine }, channel)

def openPath (u : Turn) (mode : OpenMode) (name : String) : Except FileError (Turn × Channel) :=
  match deviceDescriptor? name with
  | some n => match u.process.descriptors.get? n with
    | some c => .ok (u, c)
    | none => .error .notFound
  | none => match u.files.stat ⟨name⟩ with
    | .ok (.device d) => .ok (u, .device d)
    | _ => u.openFile mode ⟨name⟩

def setDescriptor (u : Turn) (n : Nat) (c : Channel) : Turn :=
  u.map fun p => { p with descriptors := p.descriptors.set n c }

def redirectTo (u : Turn) (mode : OpenMode) (n : Nat) (name : String) :
    Turn × Option RedirectProblem :=
  match u.openPath mode name with
  | .ok (u, c) => (u.setDescriptor n c, none)
  | .error cause => (u, some (.said (mode.problem name cause)))

/-- Makes a descriptor stand for what another one stands for, or closes it. -/
def duplicate (u : Turn) (n : Nat) (source : String) : Turn × Option RedirectProblem :=
  match source.toList with
  | ['-'] => (u.map fun p => { p with descriptors := p.descriptors.close n }, none)
  | [c] =>
    if !Decimal.isDigit c then (u, some .noNumber)
    else match u.process.descriptors.get? (Decimal.digit c) with
      | some channel => (u.setDescriptor n channel, none)
      | none => (u, some (.said (source ++ ": Bad file descriptor")))
  | _ => (u, some .noNumber)

def readText (u : Turn) (n : Nat) (text : String) : Turn :=
  let (machine, number) := u.machine.makePipe false
  let filled := machine.withPipe number { pieces := [contentOf text.toList] }
  { u with machine := filled }.setDescriptor n (.pipe number false)

def redirect (u : Turn) (r : Script.Redirect) : Turn × Option RedirectProblem :=
  let b := u.process.bindings
  match r with
  | .input n source => u.redirectTo .input n (b.textOf (b.atHome source))
  | .here n text => (u.readText n (b.textOf text), none)
  | .output n kind target =>
    u.redirectTo (.output kind (u.process.hasOption 'C')) n (b.textOf (b.atHome target))
  | .both n target => u.redirectTo .both n (b.textOf (b.atHome target))
  | .duplicate n source => u.duplicate n (b.textOf source)

def descriptorOf : Script.Redirect → Nat
  | .input n _ | .here n _ | .output n _ _ | .both n _ | .duplicate n _ => n

/-- Makes redirections up to the first that cannot be made; what the descriptors were before comes
with them. -/
def redirectAll (u : Turn) (redirects : List Script.Redirect) :
    Turn × SavedDescriptors × Option RedirectProblem :=
  let saved := (redirects.map descriptorOf).eraseDups.map fun n =>
    (n, u.process.descriptors.get? n)
  let (v, problem) := redirects.foldl (fun (u, problem) r =>
    if problem.isSome then (u, problem) else u.redirect r) (u, none)
  (v, saved, problem)

/-- Tells about a redirection that cannot be made; the descriptors are as they were before. A
command that belongs to the shell ends it. -/
def refuseRedirect (u : Turn) (saved : SavedDescriptors) (problem : RedirectProblem)
    (endsShell : Bool) : Turn :=
  let undo (u : Turn) := u.map fun p => p.undo (.restore saved)
  match problem with
  | .noNumber => (undo (u.warn "Syntax error: Bad fd number")).leave 2
  | .said message =>
    let told := undo (u.warn message)
    if endsShell then told.leave 2 else told.withStatus 2

end Turn

end CompositionGen
