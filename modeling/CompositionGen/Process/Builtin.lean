import CompositionGen.Process.Redirection

/-!
# Commands of the shell

The commands that change the shell itself or that it has to carry out itself: variables, options,
the directory, signals, loops and functions. A wrong use of a command that belongs to the shell
ends it, that of another one only fails.
-/

namespace CompositionGen

namespace Turn

def refuse (u : Turn) (endsShell : Bool) (message : String) : Turn :=
  if endsShell then u.fail message else (u.warn message).withStatus 2

def answer (u : Turn) (status : Nat) (text : String) : Turn :=
  let (u, problem) := u.sayAll [.output text.toList]
  match problem with
  | none => u.withStatus status
  | some _ => (u.warn (u.process.label.elim "" (· ++ ": ") ++ "I/O error")).withStatus 1

/-- A text between apostrophes, so that a shell would read it back. -/
def shellQuoted (text : String) : String :=
  let inner := text.toList.flatMap fun c =>
    if c.toNat = 39 then "'\"'\"'".toList else [c]
  "'" ++ String.ofList inner ++ "'"

/-- The number of 31 bits that an argument is. -/
def numberArg? (text : String) : Option Nat :=
  (if Decimal.isNumeral text.toList then some (Decimal.value text.toList) else none).filter
    (· < 2147483648)

/-- The option letters at the start of arguments, and the arguments after them. -/
def optionsOf (letters : List Char) : List String → Except String (List Char × List String)
  | [] => .ok ([], [])
  | arg :: rest =>
    match arg.toList with
    | ['-', '-'] => .ok ([], rest)
    | '-' :: first :: more =>
      match (first :: more).find? (!letters.contains ·) with
      | some wrong => .error ("Illegal option -" ++ String.singleton wrong)
      | none => (optionsOf letters rest).map fun (given, operands) =>
          (first :: more ++ given, operands)
    | _ => .ok ([], arg :: rest)

def withOptions (u : Turn) (endsShell : Bool) (letters : String) (args : List String)
    (act : List Char → List String → Turn) : Turn :=
  match optionsOf letters.toList args with
  | .error problem => u.refuse endsShell problem
  | .ok (given, operands) => act given operands

/-! ## Signals -/

/-- The names of signals as commands give and take them, from zero on. -/
def signalNames : List String :=
  "EXIT" :: (List.range 64).map fun k =>
    let n := k + 1
    match (Signal.known? n).filter fun (name, _) => name != "STKFLT" with
    | some (name, _) => name
    | none =>
      if n = 34 then "RTMIN"
      else if n = 64 then "RTMAX"
      else if 34 < n && n < 50 then s!"RTMIN+{n - 34}"
      else if 50 ≤ n then s!"RTMAX-{64 - n}"
      else toString n

/-- The signal that a text names, by its number or by its name in letters of any kind. -/
def signalOf? (least : Nat) (text : String) : Option Nat :=
  match numberArg? text with
  | some n => if n ≤ Signal.last then some n else none
  | none =>
    let upper (s : String) := s.toList.map Char.toUpper
    (signalNames.findIdx? fun name => upper name == upper text).filter (least ≤ ·)

def killUsage : String :=
  "Usage: kill [-s sigspec | -signum | -sigspec] [pid | job]... or\nkill -l [exitstatus]"

/-- What `kill` is asked for: a list of signals, or a signal for the processes that are named. -/
def killArgs (args : List String) : Except String (Option Nat × List String) :=
  match args with
  | [] => .error killUsage
  | first :: rest => match first.toList with
    | '-' :: name =>
      match signalOf? 1 (String.ofList name) with
      | some n => .ok (some n, rest)
      | none => match name with
        | ['-'] => .ok (some 15, rest)
        | ['l'] => .ok (none, rest)
        | 's' :: attached =>
          let (value, rest) := if attached.isEmpty then (rest.head?, rest.tail)
            else (some (String.ofList attached), rest)
          match value with
          | none => .error "No arg for -s option"
          | some value => match signalOf? 1 value with
            | some n => .ok (some n, rest)
            | none => .error ("invalid signal number or name: " ++ value)
        | letter :: _ => .error ("Illegal option -" ++ String.singleton letter)
        | [] => .ok (some 15, first :: rest)
    | _ => .ok (some 15, args)

/-- All processes but the one that is running, the host among them. -/
def otherProcesses (u : Turn) : List Nat :=
  Machine.host :: (u.machine.processes.map (·.id)).filter (· ≠ u.process.id)

/-- The processes that an argument of `kill` names. All are in one group, the one of number zero.
Work in the background has no group of its own, so that nothing is found by its number. -/
def killTargets (u : Turn) (target : String) : Except String (List Nat) :=
  match target.toList with
  | '%' :: _ => (u.process.roster.named target).map fun _ => []
  | '-' :: group => match numberArg? (String.ofList group) with
    | some 0 => .ok (u.otherProcesses ++ [u.process.id])
    | some 1 => .ok u.otherProcesses
    | some _ => .ok []
    | none => .error ("Illegal number: " ++ String.ofList group)
  | _ => match numberArg? target with
    | some 0 => .ok (u.otherProcesses ++ [u.process.id])
    | some id =>
      let isThere := id = u.process.id || id = Machine.host || u.machine.knows id
      .ok (if isThere then [id] else [])
    | none => .error ("Illegal number: " ++ target)

/-- Sends a signal to a process, which may be the one that sends it. -/
def send (u : Turn) (id signal : Nat) : Turn :=
  if signal = 0 then u
  else if id = u.process.id then u.receive signal
  else
    let v := { u with machine := u.machine.signal id signal }
    let isChild := u.machine.processes.any fun p => p.id == id && p.parent == u.process.id
    if isChild && (v.machine.endOf? id).isSome then v.receive Signal.child else v

def killEach (signal : Nat) (u : Turn) : List String → Turn
  | [] => u
  | target :: rest =>
    if u.ended.isSome then u
    else match u.killTargets target with
      | .error message => u.refuse false message
      | .ok [] => killEach signal ((u.warn "No such process\n").withStatus 1) rest
      | .ok ids => killEach signal (ids.foldl (fun v id => v.send id signal) u) rest

def kill (u : Turn) (args : List String) : Turn :=
  match killArgs args with
  | .error message => u.refuse false message
  | .ok (none, []) => u.answer 0 (Text.joinTexts "" (("0" :: signalNames.tail).map (· ++ "\n")))
  | .ok (none, status :: _) =>
    match numberArg? status with
    | none => u.refuse false ("Illegal number: " ++ status)
    | some n =>
      let n := if 128 < n then n - 128 else n
      if 0 < n && n ≤ Signal.last then u.answer 0 ((signalNames[n]?).getD "" ++ "\n")
      else u.refuse false ("invalid signal number or exit status: " ++ status)
  | .ok (some _, []) => u.refuse false killUsage
  | .ok (some signal, targets) => killEach signal (u.withStatus 0) targets

/-- Sets what is done on a signal: nothing special, nothing at all, or a command. -/
def setTrap (p : Process) (signal : Nat) (action : Option String) : Process :=
  let traps := p.traps.filter (·.1 != signal)
  let ignored := p.ignored.filter (· != signal)
  match action with
  | none => { p with traps, ignored }
  | some "" => { p with traps, ignored := signal :: ignored }
  | some command => { p with traps := traps ++ [(signal, command)], ignored }

/-- Sets what is done on signals up to one that there is not. -/
def trapEach (action : Option String) (u : Turn) : List String → Turn
  | [] => u
  | name :: rest =>
    match signalOf? 0 name with
    | none => (u.complain ["trap: " ++ name ++ ": bad trap"]).withStatus 1
    | some n => trapEach action (u.map fun p => setTrap p n action) rest

def trap (u : Turn) (args : List String) : Turn :=
  let u := u.withStatus 0
  u.withOptions true "" args fun _ operands => match operands with
  | [] =>
    let shown (n : Nat) (name : String) : Option String :=
      let action := if u.process.ignored.contains n then some ""
        else (u.process.traps.find? (·.1 == n)).map (·.2)
      action.map fun a => "trap -- " ++ shellQuoted a ++ " " ++ name ++ "\n"
    u.answer 0 (Text.joinTexts "" (signalNames.mapIdx shown |>.filterMap id))
  | [name] => trapEach none u [name]
  | action :: names =>
    if (numberArg? action).any (· ≤ Signal.last) then trapEach none u (action :: names)
    else trapEach (if action = "-" then none else some action) u names

/-! ## Variables -/

def splitAssignment (arg : String) : String × Option String :=
  let cs := arg.toList
  let name := cs.takeWhile (· ≠ '=')
  (String.ofList name,
    if name.length < cs.length then some (String.ofList (cs.drop (name.length + 1))) else none)

def assign (u : Turn) (name value : String) : Turn :=
  if u.process.bindings.vars.isConstant name then u.fail (name ++ ": is read only")
  else u.map (·.set name value)

def markEach (mark : Script.Variables → String → Script.Variables) (u : Turn) :
    List String → Turn
  | [] => u
  | arg :: rest =>
    let (name, value) := splitAssignment arg
    if !Script.isName name.toList then u.fail (name ++ ": bad variable name")
    else if value.isSome && u.process.bindings.vars.isConstant name then
      u.fail (name ++ ": is read only")
    else
      let assigned := value.elim u (u.assign name)
      markEach mark (assigned.map fun p => p.withVars (mark p.bindings.vars name)) rest

def listMarked (u : Turn) (command : String) (has : Script.Variable → Bool) : Turn :=
  let shown (entry : String × Script.Variable) : Option String :=
    if has entry.2 then
      some (command ++ " " ++ entry.1 ++ entry.2.value.elim "" ("=" ++ shellQuoted ·) ++ "\n")
    else none
  u.answer 0 (Text.joinTexts "" (u.process.bindings.vars.entries.filterMap shown))

def mark (u : Turn) (command : String) (has : Script.Variable → Bool)
    (set : Script.Variables → String → Script.Variables) (args : List String) : Turn :=
  u.withOptions true "p" args fun given operands =>
    if operands.isEmpty || given.contains 'p' then u.listMarked command has
    else markEach set (u.withStatus 0) operands

def unset (u : Turn) (args : List String) : Turn :=
  (u.withStatus 0).withOptions true "vf" args fun given names =>
    if given.getLast? = some 'f' then (u.withStatus 0).map fun p => { p with
      functions := names.foldl (fun fs name => fs.alter name fun _ => .nothing) p.functions }
    else forgetEach (u.withStatus 0) names
where
  /-- Forgets variables up to one that there cannot be, or that is constant. -/
  forgetEach (u : Turn) : List String → Turn
    | [] => u
    | name :: rest =>
      if !Script.isName name.toList then u.fail (name ++ ": bad variable name")
      else if u.process.bindings.vars.isConstant name then u.fail (name ++ ": is read only")
      else forgetEach (u.map fun p => p.withVars (p.bindings.vars.unset name)) rest

/-- Makes variables that belong to the function under way. -/
def localEach (u : Turn) : List String → Turn
  | [] => u
  | arg :: rest =>
    let (name, value) := splitAssignment arg
    let isCall : Frame → Bool
      | .endCall _ _ => true
      | _ => false
    let old := u.process.bindings.vars.get? name
    let before := u.process.frames.takeWhile (!isCall ·)
    match u.process.frames.drop before.length with
    | .endCall arguments locals :: after =>
      let locals := if locals.any (·.1 == name) then locals else locals ++ [(name, old)]
      let v := u.map fun p => { p with frames := before ++ .endCall arguments locals :: after }
      localEach (value.elim v (v.assign name)) rest
    | _ => u.fail "not in a function"

/-! ## Options and arguments -/

/-- The letters of options, in the order in which they are listed. -/
def optionLetters : List Char := "ubaCEVvxsnmiIfe".toList

def optionNames : List (String × Char) := [
  ("errexit", 'e'), ("noglob", 'f'), ("ignoreeof", 'I'), ("interactive", 'i'), ("monitor", 'm'),
  ("noexec", 'n'), ("stdin", 's'), ("xtrace", 'x'), ("verbose", 'v'), ("vi", 'V'), ("emacs", 'E'),
  ("noclobber", 'C'), ("allexport", 'a'), ("notify", 'b'), ("nounset", 'u')]

def setOption (on : Bool) (letter : Char) (options : List Char) : List Char :=
  optionLetters.filter fun l => if l = letter then on else options.contains l

def setLetters (on : Bool) (letters options : List Char) : Except Char (List Char) :=
  letters.foldlM (fun options l =>
    if optionLetters.contains l then .ok (setOption on l options) else .error l) options

/-- Options changed by arguments, and the arguments left; `none` where the options are only
listed. -/
def readOptions (options : List Char) :
    List String → Except String (List Char × Option (List String))
  | [] => .ok (options, none)
  | arg :: rest =>
    match arg.toList with
    | ['-', '-'] => .ok (options, some rest)
    | ['-'] => .ok (options, if rest.isEmpty then none else some rest)
    | sign :: letters =>
      if (sign ≠ '-' && sign ≠ '+') || letters.isEmpty then .ok (options, some (arg :: rest))
      else if letters = ['o'] then
        match rest with
        | [] => .ok (options, none)
        | name :: rest => match lookup? name optionNames with
          | some letter => readOptions (setOption (sign = '-') letter options) rest
          | none => .error ("Illegal option " ++ String.singleton sign ++ "o " ++ name)
      else match setLetters (sign = '-') letters options with
        | .ok options => readOptions options rest
        | .error letter =>
          .error ("Illegal option " ++ String.ofList [sign, letter])
    | [] => .ok (options, some (arg :: rest))

def set (u : Turn) (args : List String) : Turn :=
  if args.isEmpty then
    u.answer 0 (Text.joinTexts "" (u.process.bindings.vars.entries.filterMap fun (name, v) =>
      v.value.map fun text => name ++ "=" ++ shellQuoted text ++ "\n"))
  else match readOptions u.process.bindings.options args with
    | .error message => u.fail message
    | .ok (options, arguments) => (u.withStatus 0).map fun p => { p with
        bindings := { p.bindings with
          options, arguments := arguments.getD p.bindings.arguments } }

def shift (u : Turn) (args : List String) : Turn :=
  match numberArg? (args.headD "1") with
  | none => u.fail ("Illegal number: " ++ args.headD "")
  | some n =>
    if u.process.bindings.arguments.length < n then u.fail "can't shift that many"
    else (u.withStatus 0).map fun p => { p with
      bindings := { p.bindings with arguments := p.bindings.arguments.drop n } }

/-! ## Directories -/

/-- A path without its last name. The path is given from its end, each of its names ends in a
slash, and its first `start` characters stay. -/
def dropName (start : Nat) : List Char → List Char
  | [] => []
  | c :: cs =>
    if cs.length < start then c :: cs
    else if cs.head? = some '/' then cs
    else dropName start cs

/-- The path to which names lead from a directory: a dot stays there, and two dots undo the name
before, except that the slashes that a path starts with stay. How the directory itself is named is
left as it is. -/
def pathFrom (here target : String) : String :=
  let cs := target.toList
  let isDouble (cs : List Char) : Bool := ['/', '/'].isPrefixOf cs
  let before :=
    if ['/'].isPrefixOf cs then
      if isDouble cs && cs[2]? ≠ some '/' then ['/', '/'] else ['/']
    else if here.toList.getLast? = some '/' then here.toList else here.toList ++ ['/']
  let start := if isDouble before then 2 else 1
  let path := (Text.split '/' cs).foldl (fun (path : List Char) name =>
    if name.isEmpty || name = ['.'] then path
    else if name = ['.', '.'] then dropName start path
    else '/' :: name.reverse ++ path) before.reverse
  String.ofList (if start < path.length then path.drop 1 else path).reverse

/-- The process in another directory, and the variable that keeps it from telling that: the old name
is remembered first. -/
def moved (p : Process) (location : Location) (name : String) : Process × Option String :=
  let telling (p : Process) (var value : String) : Process :=
    p.withVars ((p.bindings.vars.assign var value).publish var)
  let q := { p with directory := location }
  if p.bindings.vars.isConstant "OLDPWD" then (q, some "OLDPWD")
  else
    let q := { telling q "OLDPWD" p.named with named := name }
    if p.bindings.vars.isConstant "PWD" then (q, some "PWD") else (telling q "PWD" name, none)

/-- Goes to a directory; `physical` names it by where it is, without links. -/
def goTo (u : Turn) (physical shows : Bool) (target : String) : Turn :=
  let path := if physical then target else pathFrom u.process.named target
  match u.files.resolve ⟨path⟩ with
  | .ok (.occupied location (.directory _)) =>
    let name := if physical then (FileSystem.pathOf location).text else path
    let (p, constant) := moved u.process location name
    let v := u.map fun _ => p
    match constant with
    | some var => v.refuse false (var ++ ": is read only")
    | none => if shows then v.answer 0 (name ++ "\n") else v.withStatus 0
  | _ => u.refuse false ("can't cd to " ++ target)

def cd (u : Turn) (args : List String) : Turn :=
  u.withOptions false "LP" args fun given operands =>
  let physical := given.getLast? = some 'P'
  match operands with
  | [] => match u.process.bindings.vars.valueOf? "HOME" with
    | some home => u.goTo physical false home
    | none => u.withStatus 0
  | "-" :: _ =>
    u.goTo physical true ((u.process.bindings.vars.valueOf? "OLDPWD").getD u.process.named)
  | target :: _ => u.goTo physical false target

def pwd (u : Turn) (args : List String) : Turn :=
  u.withOptions false "LP" args fun given _ =>
    if given.getLast? = some 'P' then
      u.answer 0 ((FileSystem.pathOf u.process.directory).text ++ "\n")
    else u.answer 0 (u.process.named ++ "\n")

/-! ## Loops and functions -/

def isLoop : Frame → Bool
  | .loop _ _ _ _ _ | .loopTest _ _ _ _ _ | .each _ _ _ _ _ => true
  | _ => false

def boundsLoops : Frame → Bool
  | .endCall _ _ => true
  | _ => false

/-- Leaves some loops; the last of them goes on if `again`. -/
def leaveLoops (again : Bool) : (count : Nat) → Process → Process
  | 0, p => p
  | count + 1, p =>
    let q := p.unwind fun f => isLoop f || boundsLoops f
    match q.frames with
    | f :: rest =>
      if !isLoop f then q
      else
        let isLast := count = 0 || !(rest.takeWhile (!boundsLoops ·)).any isLoop
        if isLast then (if again then q else { q with frames := rest })
        else leaveLoops again count { q with frames := rest }
    | [] => q

def breakOut (u : Turn) (again : Bool) (args : List String) : Turn :=
  match (numberArg? (args.headD "1")).filter (0 < ·) with
  | none => u.fail ("Illegal number: " ++ args.headD "")
  | some n =>
    let around := u.process.frames.takeWhile (!boundsLoops ·)
    if around.any isLoop then (u.withStatus 0).map (leaveLoops again n) else u.withStatus 0

def statusArg (u : Turn) (args : List String) : Except String Nat :=
  match args with
  | [] => .ok u.process.status
  | text :: _ => match numberArg? text with
    | some n => .ok n
    | none => .error ("Illegal number: " ++ text)

/-- Leaves the shell. The command for a signal that leaves it keeps the status from before. -/
def exit (u : Turn) (args : List String) : Turn :=
  let before := u.process.frames.findSome? fun
    | .settle status => some status
    | _ => none
  match u.statusArg args with
  | .ok status => u.leave (if args.isEmpty then before.getD status else status)
  | .error message => u.fail message

/-- Comes back from a function or from a script that was read; anywhere else the shell is left. -/
def comeBack (u : Turn) (args : List String) : Turn :=
  match u.statusArg args with
  | .error message => u.fail message
  | .ok status =>
    let stops : Frame → Bool
      | .endCall _ _ => true
      | .endSource _ isFile => isFile
      | _ => false
    u.map fun p => (p.unwind stops).withStatus status

/-! ## Children -/

def wait (u : Turn) (args : List String) : Turn :=
  u.withOptions false "" args fun _ names =>
    if names.isEmpty then (u.withStatus 0).push [.awaitAll]
    else (u.withStatus 127).push [.awaitNamed names]

def read (u : Turn) (args : List String) : Turn :=
  let rec strip (raw : Bool) : List String → Except String (Bool × List String)
    | "-r" :: rest => strip true rest
    | "-p" :: _ :: rest => strip raw rest
    | "--" :: rest => .ok (raw, rest)
    | arg :: rest => match arg.toList with
      | '-' :: letter :: _ => .error ("Illegal option -" ++ String.singleton letter)
      | _ => .ok (raw, arg :: rest)
    | [] => .ok (raw, [])
  match strip false args with
  | .error message => u.refuse false message
  | .ok (_, []) => u.refuse false "arg count"
  | .ok (raw, names) => u.push [.readLine names raw]

end Turn

end CompositionGen
