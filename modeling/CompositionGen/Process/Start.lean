import CompositionGen.Process.Builtin

/-!
# Starting programs

A process turns into a program of the system and keeps its descriptors. A shell reads its options
and its script; of the other programs some copy, sleep or start a program themselves, and the rest
end at once.
-/

namespace CompositionGen

/-- The process turned into a program that was found, with these variables. -/
def Process.become (p : Process) (clock : Nat) (i : Invocation)
    (environment : Dictionary String) : Process :=
  { p with
    wake := clock + Turn.startTime
    bindings := { name := i.name, vars := .ofEnvironment environment, process := p.id }
    functions := .empty, traps := [], kept := [], pending := [], roster := [], line := 0
    label := none, frames := [.program i] }

/-- The environment that a process hands to programs. -/
def Process.environment (p : Process) : Dictionary String := p.bindings.vars.exported

structure ShellArgs where
  options : List Char := []
  /-- Whether the script is an argument. -/
  hasCommand : Bool := false
  rest : List String := []
  deriving Inhabited, Repr

namespace ShellArgs

/-- Goes through the letters of an argument; those of named options are counted. -/
def takeLetters (on : Bool) : List Char → ShellArgs → Except String (ShellArgs × Nat)
  | [], a => .ok (a, 0)
  | l :: rest, a =>
    if l = 'c' then takeLetters on rest { a with hasCommand := on }
    else if l = 'l' then takeLetters on rest a
    else if l = 'o' then (takeLetters on rest a).map fun (a, n) => (a, n + 1)
    else match Turn.setLetters on [l] a.options with
      | .ok options => takeLetters on rest { a with options }
      | .error _ => .error ("Illegal option " ++ String.ofList [if on then '-' else '+', l])

def takeNames (on : Bool) : List String → List Char → Except String (List Char)
  | [], options => .ok options
  | name :: rest, options => match lookup? name Turn.optionNames with
    | some letter => takeNames on rest (Turn.setOption on letter options)
    | none => .error ("Illegal option " ++ (if on then "-o " else "+o ") ++ name)

/-- Reads the arguments of a shell; `limit` bounds their number. -/
def read : (limit : Nat) → ShellArgs → List String → Except String ShellArgs
  | 0, a, args => .ok { a with rest := args }
  | _ + 1, a, [] => .ok a
  | limit + 1, a, arg :: rest => do
    match arg.toList with
    | ['-'] | ['-', '-'] => pure { a with rest }
    | sign :: letters =>
      if sign = '-' || sign = '+' then
        let (a, names) ← takeLetters (sign = '-') letters a
        let options ← takeNames (sign = '-') (rest.take names) a.options
        read limit { a with options } (rest.drop names)
      else pure { a with rest := arg :: rest }
    | [] => pure { a with rest := arg :: rest }

end ShellArgs

namespace Turn

def scriptText (content : Content) : List Char :=
  (ByteString.ofBytes (content.toBytes.filter (· ≠ 0))).toList

def refuseStart (u : Turn) (name problem : String) : Turn :=
  (u.complain [name ++ ": 0: " ++ problem]).push [.finish 2]

def runFile (u : Turn) (name file : String) : Turn :=
  if deviceDescriptor? file = some 0 then u.push [.readScript {}]
  else match u.openPath .input file with
    | .error cause => u.refuseStart name (OpenMode.input.problem file cause)
    | .ok (v, c) =>
      let content := match v.whole.peek c with
        | .ok (content, _) => content
        | .error _ => []
      u.push [.run (Script.parse (scriptText content)) {} none]

def startShell (u : Turn) (i : Invocation) : Turn :=
  match ShellArgs.read (i.args.length + 1) {} i.args with
  | .error problem => u.refuseStart i.name problem
  | .ok a =>
    let here := (FileSystem.pathOf u.process.directory).text
    let given := (u.process.bindings.vars.valueOf? "PWD").filter fun text =>
      ['/'].isPrefixOf text.toList
        && (u.files.locate ⟨text⟩).toOption == some u.process.directory
    let start (name : String) (arguments : List String) : Turn := u.map fun p =>
      let b := p.bindings
      let path := (b.vars.valueOf? "PATH").getD Invocation.defaultSearchPath
      let vars := ((b.vars.assign "PATH" path).assign "PWD" (given.getD here)).publish "PWD"
      let vars := vars.assign "PPID" (toString p.parent)
      { p with
        named := given.getD here
        bindings := { b with name, arguments, vars, options := a.options } }
    match a.hasCommand, a.rest with
    | true, [] => u.refuseStart i.name "-c requires an argument"
    | true, text :: rest =>
      (start (rest.headD i.name) rest.tail).push
        [.run (Script.parse text.toList) { final := true } none]
    | false, [] => (start i.name []).push [.readScript {}]
    | false, file :: rest =>
      if a.options.contains 's' then (start i.name a.rest).push [.readScript {}]
      else (start file rest).runFile i.name file

/-! ## Other programs -/

/-- What `env` is asked for: the variables that its program has, and the program with its
arguments. -/
def envArgs : Dictionary String → List String →
    Except String (Dictionary String × List String)
  | environment, [] => .ok (environment, [])
  | environment, arg :: rest =>
    match arg.toList with
    | ['-'] | ['-', 'i'] => envArgs .empty rest
    | ['-', '-'] => .ok (settings environment rest)
    | '-' :: 'u' :: name =>
      if name.isEmpty then
        match rest with
        | [] => .error "option requires an argument -- 'u'"
        | name :: rest => envArgs (without environment name) rest
      else envArgs (without environment (String.ofList name)) rest
    | '-' :: '-' :: _ =>
      if arg = "--ignore-environment" then envArgs .empty rest
      else .error ("unrecognized option " ++ Utility.inApostrophes arg)
    | '-' :: letter :: _ =>
      .error ("invalid option -- " ++ Utility.inApostrophes (String.singleton letter))
    | _ => .ok (settings environment (arg :: rest))
where
  without (environment : Dictionary String) (name : String) : Dictionary String :=
    Dictionary.empty.insertAll (environment.entries.filter (·.1 != name))
  /-- Sets the variables that the first arguments set. -/
  settings (environment : Dictionary String) :
      List String → Dictionary String × List String
    | [] => (environment, [])
    | arg :: rest => match splitAssignment arg with
      | (name, some value) => settings (environment.insert name value) rest
      | (_, none) => (environment, arg :: rest)

/-- Runs a program with other variables, or writes the variables. -/
def startEnv (u : Turn) (i : Invocation) : Turn :=
  let ends (u : Turn) (status : Nat) := u.push [.finish status]
  match envArgs u.process.environment i.args with
  | .error problem =>
    ends (u.complain [i.name ++ ": " ++ problem,
      "Try '" ++ i.name ++ " --help' for more information."]) 125
  | .ok (environment, []) =>
    let lines := environment.entries.flatMap fun (name, value) =>
      name.toList ++ '=' :: value.toList ++ ['\n']
    u.push [.say i.name [.output lines] 0]
  | .ok (environment, program :: args) =>
    match Invocation.find u.files (.ofEnvironment environment) program args true with
    | .ok found => u.map fun p => p.become u.machine.clock found environment
    | .error cause =>
      let status := if cause = .notFound then 127 else 126
      ends (u.complain [i.name ++ ": " ++ Utility.markedName program ++ ": " ++ cause.reason])
        status

def startCat (u : Turn) (i : Invocation) : Turn :=
  match Utility.readArguments Utility.catOptions false i.args with
  | .error problem =>
    let call : Utility.Call := { name := i.name, args := i.args, files := u.files }
    u.push [.say i.name (call.refuses [problem]).sayings 1]
  | .ok g =>
    if g.asksAbout then u.push [.finish 0]
    else if (u.process.descriptors.get? 1).isNone then
      (u.complain [i.name ++ ": standard output: Bad file descriptor"]).push [.finish 1]
    else
      let names := if g.operands.isEmpty then ["-"] else g.operands
      u.push [.concatenate { name := i.name, display := .ofGiven g, names }]

def startProgram (u : Turn) (i : Invocation) : Turn :=
  let call : Utility.Call := {
    name := i.name, args := i.args, files := u.files
    environment := u.process.environment.entries }
  match i.program with
  | "sh" => u.startShell i
  | "env" => u.startEnv i
  | "cat" => u.startCat i
  | "sleep" => match Utility.sleepTime call with
    | .error e => u.push [.say i.name e.sayings e.status]
    | .ok span =>
      (u.map fun p => { p with wake := u.machine.clock + span }).push [.finish 0]
  | program => match lookup? program Utility.programs with
    | none => u.push [.finish 127]
    | some act =>
      let e := act call
      (u.withFiles e.files).push [.say i.name e.sayings e.status]

/-! ## Writing and copying -/

def say (u : Turn) (name : String) (sayings : List Utility.Saying) (status : Nat) : Turn :=
  let (u, problem) := u.sayAll sayings
  match problem with
  | none => u.push [.finish status]
  | some cause => (u.complain [name ++ ": write error: " ++ cause.reason]).push [.finish 1]

/-- Goes on with the copying, after something went wrong with a file. -/
def skipFile (u : Turn) (c : Concatenation) (shown reason : String) : Turn :=
  (u.complain [c.name ++ ": " ++ shown ++ ": " ++ reason]).push
    [.concatenate { c with status := 1 }]

def copyOut (u : Turn) (c : Concatenation) (content : Content)
    (next : Concatenation → Frame) : Turn :=
  let (shown, state) := c.display.showContent c.state content
  if shown.isEmpty then u.push [next { c with state }]
  else match u.write 1 shown with
    | (u, none) => u.push [next { c with state }]
    | (u, some cause) =>
      (u.complain [c.name ++ ": write error: " ++ cause.reason]).push [.finish 1]

/-- Whether a file would be copied to its own end. -/
def isOwnOutput (u : Turn) (p : Path) : Bool :=
  match u.process.descriptors.get? 1, u.files.locate p with
  | some (.file n), .ok location =>
    match u.machine.openFiles[n]? with
    | some f =>
      let size := match u.machine.files.root.at? f.location with
        | some (.file content _) => content.length
        | _ => 0
      f.location == location && 0 < (if f.appends then size else f.position)
    | none => false
  | _, _ => false

def concatenate (u : Turn) (c : Concatenation) : Turn :=
  match c.names with
  | [] =>
    if c.asksInput && u.input?.isNone then
      (u.complain [c.name ++ ": closing standard input: Bad file descriptor"]).push [.finish 1]
    else u.push [.finish c.status]
  | "-" :: names =>
    let c := { c with names, asksInput := true }
    match u.input? with
    | some source => u.push [.drain c source]
    | none => u.skipFile c "-" "Bad file descriptor"
  | name :: names =>
    let c := { c with names }
    let shown := Utility.shownName name
    match (deviceDescriptor? name).bind u.process.descriptors.get? with
      | some source => u.push [.drain c source]
      | none => match u.files.read ⟨name⟩ with
        | .error cause => u.skipFile c shown cause.reason
        | .ok content =>
          if u.isOwnOutput ⟨name⟩ then
            u.skipFile c shown "input file is output file"
          else u.copyOut c content .concatenate

def drain (u : Turn) (c : Concatenation) (source : Channel) : Turn :=
  match u.whole.peek source with
  | .error cause => u.skipFile c "-" cause.reason
  | .ok (content, isLast) =>
    let v := { u with machine := u.machine.skip source content.length }
    v.copyOut c content (if isLast then .concatenate else (.drain · source))

end Turn

end CompositionGen
