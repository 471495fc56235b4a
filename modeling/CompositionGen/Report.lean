/-!
# Reports

What a run says besides its result: events in order of emission, and counters. An error is
reported as the messages of its causes on one line, outermost first.
-/

namespace CompositionGen

/-- Messages of an error and its causes on one line. -/
def errorChain (messages : List String) : String := ": ".intercalate messages

inductive Panic where
  | text (message : String)
  | other
  deriving DecidableEq, Inhabited, Repr

def Panic.message : Panic → String
  | text message => message
  | other => "unknown panic"

inductive Level where
  | error
  | warn
  | info
  | debug
  deriving DecidableEq, Inhabited, Repr

def Level.name : Level → String
  | .error => "ERROR"
  | .warn => "WARN"
  | .info => "INFO"
  | .debug => "DEBUG"

structure Event where
  level : Level
  message : String
  fields : List (String × String)
  deriving DecidableEq, Inhabited, Repr

/-- What is counted, in the byte order of the names. -/
inductive Counter where
  | compileErr
  | compileOk
  | compile
  | compositionsDropped
  | compositionsWritten
  | loadErr
  | loadOk
  deriving DecidableEq, Inhabited, Repr

namespace Counter

def all : List Counter :=
  [.compileErr, .compileOk, .compile, .compositionsDropped, .compositionsWritten, .loadErr, .loadOk]

def name : Counter → String
  | .compileErr => "xrc_compile_err_total"
  | .compileOk => "xrc_compile_ok_total"
  | .compile => "xrc_compile_total"
  | .compositionsDropped => "xrc_compositions_dropped_total"
  | .compositionsWritten => "xrc_compositions_written_total"
  | .loadErr => "xrc_load_err_total"
  | .loadOk => "xrc_load_ok_total"

end Counter

/-- Events in order, and one entry for each count. -/
structure Report where
  events : List Event := []
  counts : List Counter := []
  deriving DecidableEq, Inhabited, Repr

namespace Report

def append (first second : Report) : Report :=
  ⟨first.events ++ second.events, first.counts ++ second.counts⟩

instance : Append Report := ⟨append⟩

def event (level : Level) (message : String) (fields : List (String × String)) : Report :=
  { events := [⟨level, message, fields⟩] }

def count (counter : Counter) : Report := { counts := [counter] }

/-- The counters above zero with their values. -/
def totals (r : Report) : List (String × Nat) :=
  (Counter.all.map fun c => (c.name, r.counts.count c)).filter fun (_, n) => n ≠ 0

end Report

end CompositionGen
