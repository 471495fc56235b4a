import CompositionGen.CommandLine.Grammar
import CompositionGen.Compile.Job

/-!
# The command line

Two commands: `discover` lists build units and `build` compiles, loads and runs them. Options beat
environment variables and those beat defaults. The output format may be given before the command or
after it, and the one after it wins.
-/

namespace CompositionGen.CommandLine

/-! ## What is asked for -/

inductive OutputFormat where
  | human
  | json
  deriving DecidableEq, Inhabited, Repr

structure Source where
  root : Path := ⟨"compositions"⟩
  marker : String := "Cargo.toml"
  /-- Path prefixes, relative to the root, that are never searched. -/
  exclude : List Path := [⟨"target"⟩]
  deriving DecidableEq, Inhabited, Repr

structure BuildOptions where
  source : Source
  outputDir : Path := ⟨"package/compositions"⟩
  release : Bool
  keepPlugins : Bool
  config : CompileConfig
  deriving DecidableEq, Inhabited, Repr

inductive Action where
  | discover (source : Source)
  | build (options : BuildOptions)
  deriving DecidableEq, Inhabited, Repr

structure Request where
  format : OutputFormat
  action : Action
  deriving DecidableEq, Inhabited, Repr

/-! ## Options -/

def outputOption : OptionSpec where
  long := "output"
  short := some 'o'
  action := .set (.oneOf ["human", "json"])

def helpOption : OptionSpec where
  long := "help"
  short := some 'h'
  action := .help

def versionOption : OptionSpec where
  long := "version"
  short := some 'V'
  action := .version

def sourceOptions : List OptionSpec := [
  { long := "root", action := .set .path, envName := "XRC_ROOT" },
  { long := "marker", action := .set .text, envName := "XRC_MARKER" },
  { long := "exclude", action := .append .path, envName := "XRC_EXCLUDE" }]

/-- The number of attempts has 32 bits. -/
def attemptsBound : Nat := 4294967296

def buildOptions : List OptionSpec := [
  { long := "plugin-dir", action := .set .path, envName := "XRC_PLUGIN_DIR" },
  { long := "output-dir", action := .set .path, envName := "XRC_OUTPUT_DIR" },
  { long := "pool-size", action := .set (.natural Decimal.wordBound false),
    envName := "XRC_POOL_SIZE" },
  { long := "timeout-secs", action := .set (.natural Decimal.wordBound false)
    envName := "XRC_COMPILE_TIMEOUT_SECS" },
  { long := "poll-attempts", action := .set (.natural attemptsBound true)
    envName := "XRC_POLL_ATTEMPTS" },
  { long := "poll-delay-ms", action := .set (.natural Decimal.wordBound false)
    envName := "XRC_POLL_DELAY_MS" },
  { long := "release", action := .flag },
  { long := "keep-plugins", action := .flag }]

def mainGrammar : Grammar where
  options := [outputOption, helpOption, versionOption]
  subcommands := ["discover", "build", "help"]

def discoverGrammar : Grammar where
  options := sourceOptions ++ [outputOption, helpOption]

def buildGrammar : Grammar where
  options := sourceOptions ++ buildOptions ++ [outputOption, helpOption]

/-! ## Reading -/

def sourceOf (m : Matches) : Source :=
  let standard : Source := {}
  { root := (m.value? "root").elim standard.root Path.ofText
    marker := (m.value? "marker").getD standard.marker
    exclude := (m.values.get? "exclude").elim standard.exclude (·.map Path.ofText) }

def natural? (m : Matches) (name : String) : Option Nat :=
  (m.value? name).bind (ValueKind.readNatural? Decimal.wordBound true)

def configOf (m : Matches) : CompileConfig :=
  let standard : CompileConfig := {}
  { poolSize := (natural? m "pool-size").getD standard.poolSize
    timeout := (natural? m "timeout-secs").elim standard.timeout Duration.ofSeconds
    pollAttempts := (natural? m "poll-attempts").getD standard.pollAttempts
    pollDelay := (natural? m "poll-delay-ms").elim standard.pollDelay Duration.mk
    pluginDir := (m.value? "plugin-dir").elim standard.pluginDir Path.ofText }

def buildOf (m : Matches) : BuildOptions where
  source := sourceOf m
  outputDir := (m.value? "output-dir").elim ⟨"package/compositions"⟩ Path.ofText
  release := m.has "release"
  keepPlugins := m.has "keep-plugins"
  config := configOf m

/-- The output format that was given, first by the command's own options. -/
def formatOf (outer inner : Matches) : OutputFormat :=
  if (inner.value? "output").or (outer.value? "output") == some "json" then .json else .human

def helpAnswer : List String → UsageError
  | [] => .displayHelp
  | [name] => if mainGrammar.subcommands.contains name then .displayHelp else .invalidSubcommand
  | _ => .invalidSubcommand

def parseAction (env : Dictionary String) (name : String) (args : List String) :
    Except UsageError (Matches × Action) :=
  match name with
  | "discover" => do
    let (s, _) ← discoverGrammar.scan {} args
    let m ← discoverGrammar.conclude env s
    pure (m, .discover (sourceOf m))
  | "build" => do
    let (s, _) ← buildGrammar.scan {} args
    let m ← buildGrammar.conclude env s
    pure (m, .build (buildOf m))
  | _ => .error (helpAnswer args)

/-- Reads a command line; what stands before the command is judged after what follows it. -/
def parse (args : List String) (env : Dictionary String) : Except UsageError Request := do
  let (s, command) ← mainGrammar.scan {} args
  match command with
  | some (name, rest) =>
    let (inner, action) ← parseAction env name rest
    let outer ← mainGrammar.conclude env s
    pure ⟨formatOf outer inner, action⟩
  | none =>
    let outer ← mainGrammar.conclude env s
    .error (if outer.values.isEmpty then .missingArguments else .missingSubcommand)

end CompositionGen.CommandLine
