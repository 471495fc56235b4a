import CompositionGen.Dictionary

/-!
# Shell variables

A variable has a value or is only known by name; it is handed to programs if it is exported, and
one that is constant cannot be set any more.
-/

namespace CompositionGen.Script

structure Variable where
  value : Option String := none
  exported : Bool := false
  constant : Bool := false
  deriving DecidableEq, Inhabited, Repr

abbrev Variables := Dictionary Variable

namespace Variables

def ofEnvironment (environment : Dictionary String) : Variables :=
  Dictionary.empty.insertAll (environment.entries.map fun (name, value) =>
    (name, { value := some value, exported := true }))

def valueOf? (vs : Variables) (name : String) : Option String :=
  (vs.get? name).bind (·.value)

def isConstant (vs : Variables) (name : String) : Bool := (vs.get? name).any (·.constant)

def assign (vs : Variables) (name value : String) : Variables :=
  vs.alter name fun old => { old.getD {} with value := some value }

def publish (vs : Variables) (name : String) : Variables :=
  vs.alter name fun old => { old.getD {} with exported := true }

def freeze (vs : Variables) (name : String) : Variables :=
  vs.alter name fun old => { old.getD {} with constant := true }

def unset (vs : Variables) (name : String) : Variables := vs.alter name fun _ => {}

def exported (vs : Variables) : Dictionary String :=
  Dictionary.empty.insertAll (vs.entries.filterMap fun (name, v) =>
    if v.exported then v.value.map (name, ·) else none)

end Variables

end CompositionGen.Script
