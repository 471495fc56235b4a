import CompositionGen.Build
import CompositionGen.CommandLine
import CompositionGen.Compile

/-!
# The program

Runs a command line on a machine. Results go to standard output, as text or as JSON; an error is
printed with its causes below it, and arguments that are not understood end the program with a
status of their own.
-/

namespace CompositionGen

def buildStages (options : CommandLine.BuildOptions) (cargo : String) : BuildStages Machine :=
  let config := options.config
  let source := options.source
  let toolchain := Toolchain.cargo cargo (config.pluginDir.join ⟨".target"⟩) options.release
  let toFile := Writer.directory options.outputDir
  { discover m := BuildUnit.discover m.files source.root source.marker source.exclude
    compile units m :=
      let (run, m) := compileAll ⟨config, toolchain⟩ {} units m
      (run.results, run.report, m)
    linker m := m.files.linker
    writer := {
      files := (·.files)
      write m name text :=
        let (files, result) := toFile.write m.files name text
        ({ m with files }, result) }
    removePlugins m :=
      let (files, problem) := m.files.removeDirectory config.pluginDir
      let report := match problem with
        | none | some .notFound => {}
        | some cause => Report.event .warn "cannot remove plugin directory"
            [("dir", config.pluginDir.display), ("error", cause.message)]
      (report, { m with files }) }

namespace Program

/-! ## Output -/

structure Output where
  stdout : String := ""
  stderr : String := ""
  status : Nat := 0
  deriving DecidableEq, Inhabited, Repr

/-- A message below `Caused by:`, with its number if there are several. -/
def indentedCause (number : Option Nat) (message : String) : String :=
  let first := number.elim "    " fun n => s!"    {n}: "
  let next := String.ofList (List.replicate first.length ' ')
  first ++ ("\n" ++ next).intercalate ((Text.split '\n' message.toList).map String.ofList)

def errorText : List String → String
  | [] => "Error: \n"
  | [message] => "Error: " ++ message ++ "\n"
  | message :: causes =>
    let lines := match causes with
      | [cause] => [indentedCause none cause]
      | several => several.mapIdx fun i cause => indentedCause (some i) cause
    "Error: " ++ message ++ "\n\nCaused by:\n" ++ "\n".intercalate lines ++ "\n"

def failure (messages : List String) : Output := { stderr := errorText messages, status := 1 }

def panicOutput (panic : Panic) : Output := { stderr := panic.message ++ "\n", status := 101 }

/-- The JSON form of a unit, whose path has to be a text. -/
def unitJson (u : BuildUnit) : Except String Json :=
  match u.sourcePath.text.text? with
  | some path => .ok (.object [("source_path", .string path),
      ("artifact_name", .string u.artifactName)])
  | none => .error "path contains invalid UTF-8 characters"

def unitsText (format : CommandLine.OutputFormat) (units : List BuildUnit) :
    Except String String :=
  match format with
  | .human => .ok (Text.joinTexts "" (units.map fun u =>
      u.artifactName ++ " • " ++ u.sourcePath.display ++ "\n"))
  | .json => (units.mapM unitJson).map fun shown => (Json.array shown).pretty ++ "\n"

def counts (r : BuildReport) : List (String × Nat) :=
  [("units", r.units), ("compiled", r.compiled), ("loaded", r.loaded), ("written", r.written),
    ("dropped", r.dropped)]

def reportText (format : CommandLine.OutputFormat) (outputDir : Path) (r : BuildReport) : String :=
  match format with
  | .human =>
    Text.joinTexts " " ((counts r).map fun (name, n) => s!"{name}={n}") ++ "\n"
      ++ "compositions in " ++ outputDir.display ++ "\n"
  | .json => (Json.object ((counts r).map fun (name, n) => (name, .nat n))).pretty ++ "\n"

def name : String := "xrc-gen"

def helpText : String :=
  "Builds Crossplane compositions from build units\n\nUsage: " ++ name
    ++ " [OPTIONS] <discover|build|help>\n"

def usageOutput : CommandLine.UsageError → Output
  | .displayHelp => { stdout := helpText }
  | .displayVersion => { stdout := name ++ " " ++ hostVersion ++ "\n" }
  | _ => { stderr := "error: see '" ++ name ++ " --help'\n", status := 2 }

/-! ## Running -/

def discover (format : CommandLine.OutputFormat) (source : CommandLine.Source) (m : Machine) :
    Output :=
  match BuildUnit.discover m.files source.root source.marker source.exclude with
  | .error cause => failure (BuildFailure.discovery cause).messages
  | .ok units => match unitsText format units with
    | .error problem => failure [problem]
    | .ok stdout => { stdout }

/-- Builds the compositions; the variable `CARGO` names the compiler. -/
def build (format : CommandLine.OutputFormat) (options : CommandLine.BuildOptions) (m : Machine) :
    Output × Machine :=
  let cargo := (m.environment.get? "CARGO").getD "cargo"
  let result := CompositionGen.build (buildStages options cargo) options.keepPlugins m
  let output := match result.outcome with
    | .error (.panicked panic) => panicOutput panic
    | .error cause => failure cause.messages
    | .ok report => { stdout := reportText format options.outputDir report }
  (output, result.state)

def run (args : List String) (m : Machine) : Output × Machine :=
  match CommandLine.parse args m.environment with
  | .error problem => (usageOutput problem, m)
  | .ok request => match request.action with
    | .discover source => (discover request.format source m, m)
    | .build options => build request.format options m

end Program

end CompositionGen
