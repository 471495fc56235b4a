import CompositionGen.Process.Start
import CompositionGen.Script.Pathname

/-!
# Simple commands

A simple command is run once its words need nothing from outside: its words become fields, its
redirections are made, its variables are set, and then a command of the shell, a function or a
program is run. A command of the shell's own keeps the variables, any other gives them up.
-/

namespace CompositionGen

namespace Turn

def under (u : Turn) (name : String) (act : Turn → Turn) : Turn :=
  let old := u.process.label
  (act (u.map fun p => { p with label := some name })).map fun p => { p with label := old }

/-- Runs a script that a command of the shell has read; one that does nothing succeeds. -/
def runRead (u : Turn) (name : String) (isFile : Bool) (source : List Char) (mode : Mode) : Turn :=
  let old := u.process.label
  match Script.parse source with
  | .nothing => u.withStatus 0
  | script => (u.map fun p => { p with label := some name }).push
      [.run script mode.inner none, .endSource old isFile]

/-- Runs the script in a file in the shell itself. -/
def source (u : Turn) (args : List String) (mode : Mode) : Turn :=
  match args with
  | [] => u.withStatus 0
  | file :: _ =>
    let searchPath := (u.process.bindings.vars.valueOf? "PATH").getD ""
    let places := (Invocation.candidates searchPath file).filter fun p =>
      u.files.hasFile ⟨p⟩
    let inPath := file.toList.contains '/'
    match if inPath then some file else places.head? with
    | none => u.under "." (·.fail (file ++ ": not found"))
    | some path => match u.openPath .input path with
      | .error cause => u.under "." (·.fail (OpenMode.input.problem path cause))
      | .ok (v, c) =>
        let content := ((v.whole.peek c).toOption.map (·.1)).getD []
        v.runRead path true (scriptText content) mode

def runUtility (u : Turn) (name : String) (act : Utility.Call → Utility.Effect)
    (args : List String) : Turn :=
  let e := act { name, args, files := u.files }
  let (u, problem) := (u.withFiles e.files).sayAll (e.sayings.map fun
    | .complaint line => .complaint (u.process.messageLabel ++ line)
    | other => other)
  match problem with
  | none => u.withStatus e.status
  | some _ => (u.warn (name ++ ": I/O error")).withStatus 1

def specialCommands : List String := "local" :: Script.specialCommands

/-- The other commands of the shell that are not utilities. -/
def ownCommands : List String := ["cd", "command", "kill", "pwd", "read", "type", "wait"]

def isShellCommand (name : String) : Bool :=
  specialCommands.contains name || ownCommands.contains name
    || (lookup? name Utility.shellUtilities).isSome

def programAt? (u : Turn) (name : String) : Option String :=
  let searchPath := (u.process.bindings.vars.valueOf? "PATH").getD Invocation.defaultSearchPath
  (Invocation.choose u.files (Invocation.candidates searchPath name)).toOption

/-- What a name stands for as a command: a brief text that names it, and one that explains it. -/
def kindOf? (u : Turn) (name : String) : Option (String × String) :=
  let hasFunction := (u.process.functions.get? name).any fun
    | .nothing => false
    | _ => true
  if Script.reservedWords.contains name then some (name, name ++ " is a shell keyword")
  else if Script.specialCommands.contains name then
    some (name, name ++ " is a special shell builtin")
  else if hasFunction then some (name, name ++ " is a shell function")
  else if isShellCommand name then some (name, name ++ " is a shell builtin")
  else (u.programAt? name).map fun path => (path, name ++ " is " ++ path)

/-- Tells what names stand for as commands; a brief answer has nothing for one that stands for
nothing. -/
def describe (u : Turn) (brief : Bool) (names : List String) : Turn :=
  let line (name : String) : String := match u.kindOf? name with
    | some (short, long) => (if brief then short else long) ++ "\n"
    | none => if brief then "" else name ++ ": not found\n"
  let status := if names.all fun name => (u.kindOf? name).isSome then 0 else 127
  u.answer status (Text.joinTexts "" (names.map line))

/-- Tells what the first of some names stands for, or refuses options that there are not. -/
def command (u : Turn) (args : List String) : Turn :=
  u.withOptions false "pvV" args fun given names =>
    if given.all (· = 'p') then u.withStatus 0
    else u.describe (given.getLast? ≠ some 'V') (names.take 1)

/-- Runs a command of the shell; `exec` is none of them. -/
def runShellCommand (u : Turn) (mode : Mode) (name : String) (args : List String) : Turn :=
  match name with
  | "." => u.source args mode
  | "eval" =>
    u.runRead "eval" false (Text.joinTexts " " args).toList mode
  | _ => u.under name fun u => match name with
    | "break" => u.breakOut false args
    | "continue" => u.breakOut true args
    | "exit" => u.exit args
    | "export" => u.mark name (·.exported) .publish args
    | "readonly" => u.mark name (·.constant) .freeze args
    | "return" => u.comeBack args
    | "set" => u.set args
    | "shift" => u.shift args
    | "trap" => u.trap args
    | "unset" => u.unset args
    | "local" => (u.withStatus 0).localEach args
    | "cd" => u.cd args
    | "command" => u.command args
    | "type" => u.withOptions false "" args fun _ names => u.describe false names
    | "kill" => u.kill args
    | "pwd" => u.pwd args
    | "read" => u.read args
    | "wait" => u.wait args
    | _ => match lookup? name Utility.shellUtilities with
      | some act => u.runUtility name act args
      | none => u.withStatus 0

/-! ## Words -/

/-- The name of the variable that a word sets, and the word of its value. -/
def assignment? (w : Script.Word) : Option (String × Script.Word) :=
  let name := w.takeWhile fun
    | .text [c] false => Script.continuesName c
    | _ => false
  match w.drop name.length with
  | .text ['='] false :: value =>
    let chars := name.flatMap Script.Part.literal
    if Script.isName chars then some (String.ofList chars, value) else none
  | _ => none

/-- The values that words set, one after another. -/
def settingsOf (b : Script.Bindings) : List Script.Word → List (String × String)
  | [] => []
  | w :: rest => match assignment? w with
    | none => []
    | some (name, value) =>
      let text := b.textOf (b.atHomes value)
      (name, text) :: settingsOf { b with vars := b.vars.assign name text } rest

/-- The fields of a word, with names of files in the place of patterns. -/
def expandWord (u : Turn) (w : Script.Word) : List String :=
  let b := u.process.bindings
  (b.fieldsOf (b.atHome w)).flatMap fun field =>
    if u.process.hasOption 'f' then [Script.Bindings.textOfGlyphs field]
    else Script.matchingNames u.files field

/-- The fields of words; a word that sets a variable is one field after a command that does so. -/
def expandWords (u : Turn) (words : List Script.Word) : List String :=
  let first := (words.take 1).flatMap u.expandWord
  let declares := first.head?.any ["export", "readonly", "local"].contains
  first ++ (words.drop 1).flatMap fun w =>
    match (assignment? w).filter fun _ => declares with
    | some (name, value) =>
      let b := u.process.bindings
      [name ++ "=" ++ b.textOf (b.atHomes value)]
    | none => u.expandWord w

def constantAmong? (u : Turn) (settings : List (String × String)) : Option String :=
  (settings.find? fun (name, _) => u.process.bindings.vars.isConstant name).map (·.1)

def setAll (u : Turn) (settings : List (String × String)) : Turn :=
  u.map fun p => settings.foldl (fun p (name, value) => p.set name value) p

def savedVars (u : Turn) (settings : List (String × String)) : SavedVariables :=
  settings.map fun (name, _) => (name, u.process.bindings.vars.get? name)

/-! ## Programs -/

def programVars (u : Turn) (settings : List (String × String)) : Script.Variables :=
  settings.foldl (fun vars (name, value) => (vars.assign name value).publish name)
    u.process.bindings.vars

/-- What is said about a program that cannot be run, and the status after it. -/
def notRun (name : String) (cause : FileError) : String × Nat :=
  if name.isEmpty then (": Permission denied", 127)
  else if cause = .notFound || cause = .notDirectory then (name ++ ": not found", 127)
  else (name ++ ": " ++ cause.reason,
    if cause = .nameTooLong || cause = .tooManyLinks then 127 else 126)

def exec (u : Turn) (settings : List (String × String)) (name : String) (args : List String) :
    Turn :=
  let vars := u.programVars settings
  match Invocation.find u.files vars name args true with
  | .error cause =>
    let (message, status) := notRun name cause
    (u.under "exec" (·.warn message)).leave status
  | .ok i => u.map fun p => p.become u.machine.clock i vars.exported

/-- Runs a program and waits for it, after redirections that are to be undone. -/
def runProgram (u : Turn) (mode : Mode) (settings : List (String × String)) (name : String)
    (args : List String) (saved : SavedDescriptors) : Turn :=
  let vars := u.programVars settings
  let undo (u : Turn) := u.map fun p => p.undo (.restore saved)
  match Invocation.find u.files vars name args true with
  | .error cause =>
    let (message, status) := notRun name cause
    (undo (u.warn message)).withStatus status
  | .ok i =>
    if mode.final && u.process.traps.isEmpty then
      u.map fun p => p.become u.machine.clock i vars.exported
    else
      let start (p : Process) := p.become p.wake i vars.exported
      let (u, child) := u.claim.fork start []
      u.push ([.await child true] ++ (if saved.isEmpty then [] else [.restore saved]))

/-! ## Commands -/

/-- A command without the words that keep functions from being taken for it, and whether there
were any. -/
def withoutCommand : List String → Bool × List String
  | "command" :: "--" :: rest => (true, (withoutCommand rest).2)
  | "command" :: "-p" :: rest => (true, (withoutCommand rest).2)
  | "command" :: rest =>
    if (rest.head?.bind (·.toList.head?)) = some '-' then (false, "command" :: rest)
    else (true, (withoutCommand rest).2)
  | fields => (false, fields)

/-- Runs what is left of a simple command once its redirections are made. -/
def invoke (u : Turn) (mode : Mode) (settings : List (String × String)) (onlyCommands : Bool)
    (name : String) (args : List String) (saved : SavedDescriptors) : Turn :=
  let restoring (u : Turn) := if saved.isEmpty then u else u.push [.restore saved]
  let function? := if onlyCommands || specialCommands.contains name then none
    else (u.process.functions.get? name).filter fun
      | .nothing => false
      | _ => true
  if name = "exec" then
    match args with
    | [] => (u.setAll settings).withStatus 0
    | program :: args => u.exec settings program args
  else match function? with
    | some body =>
      let old := u.process.bindings.arguments
      let locals := u.savedVars settings
      let v := restoring u |>.map fun p => p.withVars (u.programVars settings)
      (v.map fun p => { p with bindings := { p.bindings with arguments := args } }).push
        [.run body mode.inner none, .endCall old locals]
    | none =>
      if specialCommands.contains name then
        ((restoring u).setAll settings).runShellCommand mode name args
      else if isShellCommand name then
        let v := restoring u
        let v := if settings.isEmpty then v else v.push [.restoreVars (v.savedVars settings)]
        (v.setAll settings).runShellCommand mode name args
      else u.runProgram mode settings name args saved

/-- A line that shows a command before it is run. -/
def trace (u : Turn) (settings : List (String × String)) (fields : List String) : Turn :=
  if u.process.hasOption 'x' then
    let texts := settings.map (fun (name, value) => name ++ "=" ++ value) ++ fields
    u.complain ["+ " ++ Text.joinTexts " " texts]
  else u

def runSettings (u : Turn) (settings : List (String × String))
    (redirects : List Script.Redirect) (substituted : Option Nat) : Turn :=
  let (v, saved, problem) := u.redirectAll redirects
  match problem with
  | some problem => v.refuseRedirect saved problem false
  | none =>
    let back := v.map fun p => p.undo (.restore saved)
    match back.constantAmong? settings with
    | some name => back.fail (name ++ ": is read only")
    | none => (back.setAll settings).withStatus (substituted.getD 0)

/-- Runs a simple command whose words need nothing from outside. -/
def runSimple (u : Turn) (c : Script.Simple) (mode : Mode) (substituted : Option Nat) : Turn :=
  let given := c.words.takeWhile fun w => (assignment? w).isSome
  let settings := settingsOf u.process.bindings given
  let fields := u.expandWords (c.words.drop given.length)
  let u := u.trace settings fields
  match withoutCommand fields with
  | (_, []) => u.runSettings settings c.redirects substituted
  | (plain, name :: args) =>
    let special := !plain && specialCommands.contains name
    let (v, saved, problem) := u.redirectAll c.redirects
    match problem with
    | some problem => v.refuseRedirect saved problem special
    | none => match v.constantAmong? settings with
      | some name => (v.map fun p => p.undo (.restore saved)).fail (name ++ ": is read only")
      | none => v.invoke mode settings plain name args saved

end Turn

end CompositionGen
