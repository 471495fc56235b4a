import CompositionGen.BuildUnit
import CompositionGen.Report
import CompositionGen.Text.Lines
import CompositionGen.Toolchain.Message

/-!
# Output of a compilation

What the lines of a program's output mean for the compilation of a unit: each line is reported by
what it is taken for, and the library announced last counts. Nothing is read after a line that is
not UTF-8, and that there is one is reported too.
-/

namespace CompositionGen

def OutputLine.event (unit : BuildUnit) : OutputLine → Event
  | log line => ⟨.info, line, [("unit", unit.artifactName)]⟩
  | detail line => ⟨.debug, line, [("unit", unit.artifactName)]⟩
  | artifact path => ⟨.debug, "toolchain produced library",
      [("unit", unit.artifactName), ("library", path.display)]⟩

namespace Reading

def announced? (interpret : String → OutputLine) (r : Reading) : Option Path :=
  (r.lines.filterMap fun line => match interpret line with
    | .artifact path => some path
    | _ => none).getLast?

/-- What is reported about the output of a unit's compilation: every line that was read, and why
no more of them were. -/
def report (interpret : String → OutputLine) (unit : BuildUnit) (r : Reading) : Report :=
  { events := r.lines.map fun line => (interpret line).event unit } ++ r.fault.elim {} fun fault =>
    Report.event .warn "cannot read toolchain output"
      [("unit", unit.artifactName), ("error", fault.message)]

end Reading

end CompositionGen
