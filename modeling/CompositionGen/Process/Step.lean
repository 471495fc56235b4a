import CompositionGen.Process.Invoke

/-!
# Steps of processes

One step takes the first frame off a process and does what it says: it may change the files, write
to a channel, put other frames in its place, make other processes, or set the time at which the
process goes on. A process without frames has ended, unless its shell has a command for that.
-/

namespace CompositionGen

namespace Script

/-- The words of a simple command that set variables, and the others. -/
def Simple.parts (c : Simple) : List Word × List Word :=
  let given := c.words.takeWhile fun w => (Turn.assignment? w).isSome
  (given, c.words.drop given.length)

/-- The words that a script expands before anything else is done; those that set variables come
last. -/
def headWords : Script → List Word
  | .simple c => c.parts.2 ++ c.redirects.map wordOf ++ c.parts.1
  | .redirected _ (.subshell _) _ => []
  | .redirected _ _ redirects => redirects.map wordOf
  | .each _ _ (some words) _ => words
  | .choose _ subject clauses => subject :: clauses.flatMap (·.1)
  | _ => []
where
  wordOf : Redirect → Word
    | .input _ w | .here _ w | .output _ _ w | .both _ w | .duplicate _ w => w

def Redirect.withWord (r : Redirect) (w : Word) : Redirect :=
  match r with
  | .input n _ => .input n w
  | .here n _ => .here n w
  | .output n kind _ => .output n kind w
  | .both n _ => .both n w
  | .duplicate n _ => .duplicate n w

/-- The script with other words in the place of those that it expands first. -/
def withHeadWords (words : List Word) : Script → Script
  | .simple c =>
    let count := c.parts.2.length
    .simple { c with
      words := words.drop (count + c.redirects.length) ++ words.take count
      redirects := c.redirects.zipWith Redirect.withWord (words.drop count) }
  | .redirected line body redirects =>
    .redirected line body (redirects.zipWith Redirect.withWord words)
  | .each line name (some _) body => .each line name (some words) body
  | .choose line _ clauses =>
    .choose line (words.headD []) (refill words.tail clauses)
  | other => other
where
  /-- Clauses with other patterns. -/
  refill : List Word → List (List Word × Script) → List (List Word × Script)
    | _, [] => []
    | words, (patterns, body) :: rest =>
      (words.take patterns.length, body) :: refill (words.drop patterns.length) rest

/-- The line that a script's own messages name. -/
def line? : Script → Option Nat
  | .simple c => some c.line
  | .background line _ | .redirected line _ _ | .each line _ _ _ | .choose line _ _
  | .malformed line _ => some line
  | _ => none

/-- A script whose redirections are made for good before it. -/
def afterRedirects (line : Nat) (redirects : List Redirect) (body : Script) : Script :=
  .sequence (.simple ⟨line, [("exec".toList.map fun c => .text [c] true)], redirects⟩) body

def stages : Script → List Script
  | .pipe first second => first :: stages second
  | other => [other]

end Script

namespace Turn

/-! ## Scripts -/

/-- Fulfils what a script needs from outside before its words are expanded. -/
def fulfil (u : Turn) (script : Script) (mode : Mode) (substituted : Option Nat) :
    Script.Demand → Turn
  | .run source line =>
    let (machine, pipe) := u.machine.makePipe false
    let toPipe (p : Process) :=
      { p with descriptors := p.descriptors.set 1 (.pipe pipe true) }
    let (u, child) := { u with machine }.claim.fork toPipe
      [.run (Script.parseInside line source) { final := true } none]
    u.push [.substitute pipe child script mode]
  | .compute expression =>
    match Script.Arithmetic.evaluate u.process.bindings.vars expression with
    | .error fault => u.fail (fault.message expression)
    | .ok (n, vars) =>
      let b := u.process.bindings
      let words := Script.answerWords b (toString n).toList (b.settleWords script.headWords)
      (u.map (·.withVars vars)).push [.run (script.withHeadWords words) mode substituted]
  | .assign name value =>
    let words := u.process.bindings.settleWords script.headWords
    (u.push [.run (script.withHeadWords words) mode substituted]).assign name value
  | .refuse message => u.fail message

def runChild (u : Turn) (script : Script) (mode : Mode) : Turn :=
  let (u, child) := u.claim.fork id [.run script { mode with final := true } none]
  u.push [.await child true]

/-- Starts the stages of a pipeline; each reads what the one before it writes. -/
def startStages (mode : Mode) (u : Turn) (input : Option Channel) (children : List Nat) :
    List Script → Turn × List Nat
  | [] => (u, children)
  | stage :: rest =>
    let (machine, pipe) := u.machine.makePipe false
    let connect (p : Process) : Process :=
      let ds := input.elim p.descriptors (p.descriptors.set 0)
      { p with descriptors := if rest.isEmpty then ds else ds.set 1 (.pipe pipe true) }
    let v := if rest.isEmpty then u else { u with machine }
    let (u, child) := v.fork connect [.run stage { mode with final := true } none]
    startStages mode u (some (.pipe pipe false)) (children ++ [child]) rest

/-- Runs a pipeline and waits for all of its stages; the status is that of the last. -/
def runPipeline (u : Turn) (script : Script) (mode : Mode) : Turn :=
  let (u, children) := startStages mode u.claim none [] script.stages
  u.push ((children.dropLast.map (.await · false))
    ++ (children.getLast?.map (.await · true)).toList)

/-- A process that interrupts do not reach. -/
def uninterrupted (p : Process) : Process := { p with ignored := [2, 3] ++ p.ignored }

/-- Starts a script in the background: it reads nothing unless it is told to, and interrupts do
not reach it. -/
def startBackground (u : Turn) (body : Script) : Turn :=
  let script := match body with
    | .redirected line (.subshell inner) redirects => Script.afterRedirects line redirects inner
    | .redirected line inner redirects => Script.afterRedirects line redirects inner
    | .subshell inner => inner
    | other => other
  let change (p : Process) : Process :=
    uninterrupted { p with descriptors := p.descriptors.set 0 (.device .null) }
  let (u, children) := match script with
    | .pipe _ _ =>
      let (v, children) :=
        startStages {} (u.map uninterrupted) (some (.device .null)) [] script.stages
      (v.map fun p => { p with ignored := u.process.ignored }, children)
    | _ =>
      let (v, child) := u.fork change [.run script { final := true } none]
      (v, [child])
  (u.map fun p => { p with
    roster := p.roster.add children
    bindings := { p.bindings with background := children.getLast? } }).withStatus 0

def chosen? (u : Turn) (subject : Script.Word) (clauses : List (List Script.Word × Script)) :
    Option Script :=
  let b := u.process.bindings
  let text := (b.textOf (b.atHome subject)).toList
  (clauses.find? fun (patterns, _) => patterns.any fun w =>
    Script.PatternPart.matchesAll (Script.patternOf (b.glyphsOf (b.atHome w))) text).map (·.2)

def runRedirected (u : Turn) (line : Nat) (body : Script) (redirects : List Script.Redirect)
    (mode : Mode) : Turn :=
  match body with
  | .subshell inner =>
    if mode.final && u.process.traps.isEmpty then
      u.push [.run (Script.afterRedirects line redirects inner) mode none]
    else u.runChild (Script.afterRedirects line redirects inner) mode
  | body =>
    let (v, saved, problem) := u.redirectAll redirects
    match problem with
    | some problem => v.refuseRedirect saved problem false
    | none => v.push [.run body mode.inner none, .restore saved]

/-- Runs a script whose words need nothing from outside. -/
def runScript (u : Turn) (script : Script) (mode : Mode) (substituted : Option Nat) : Turn :=
  let insisting (u : Turn) :=
    if u.process.hasOption 'e' && !mode.tested then u.push [.insist] else u
  match script with
  | .nothing => u
  | .simple c =>
    (insisting u).runSimple c (if c.parts.2.isEmpty then mode.inner else mode) substituted
  | .pipe _ _ => (insisting u).runPipeline script mode
  | .subshell body =>
    if mode.final && u.process.traps.isEmpty then u.push [.run body mode none]
    else (insisting u).runChild body mode
  | .background _ body => u.startBackground body
  | .redirected line body redirects => u.runRedirected line body redirects mode
  | .sequence first second => u.push [.run first mode.inner none, .run second mode none]
  | .both first second => u.push [.run first .condition none, .onSuccess second mode]
  | .either first second => u.push [.run first .condition none, .onFailure second mode]
  | .negate body => u.push [.run body .condition none, .invert]
  | .branch condition yes no => u.push [.run condition .condition none, .branch yes no mode]
  | .loop untilTrue condition body => u.push [.loop untilTrue condition body mode.inner false]
  | .each _ name words body =>
    let values := words.elim u.process.bindings.arguments (·.flatMap u.expandWord)
    u.push [.each name values body mode.inner false]
  | .choose _ subject clauses =>
    match u.chosen? subject clauses with
    | none | some .nothing => u.withStatus 0
    | some body => u.push [.run body mode none]
  | .define name body => (u.withStatus 0).map fun p => { p with
      functions := p.functions.insert name body }
  | .malformed _ problem => u.fail ("Syntax error: " ++ problem)

/-- Evaluates a script, after what its words need from outside. Settings are made one by one, as
each may need the one before; those that need something from outside are made after redirections.
-/
def evaluate (u : Turn) (script : Script) (mode : Mode) (substituted : Option Nat) : Turn :=
  let u := script.line?.elim u fun line => u.map fun p => { p with line }
  if u.process.hasOption 'n' then u
  else match script with
  | .simple ⟨line, first :: second :: rest, []⟩ =>
    let words := first :: second :: rest
    if words.all (fun w => (assignment? w).isSome) && (demanded words).isSome then
      u.push [.run (.simple ⟨line, [first], []⟩) mode.inner substituted,
        .run (.simple ⟨line, second :: rest, []⟩) mode none]
    else expanded u
  | .simple c =>
    if c.redirects.isEmpty || (demanded c.parts.1).isNone
      || (demanded (c.parts.2 ++ c.redirects.map Script.headWords.wordOf)).isSome then expanded u
    else
      let (v, saved, problem) := u.redirectAll c.redirects
      match problem with
      | some problem => v.refuseRedirect saved problem false
      | none => v.push [.run (.simple { c with redirects := [] }) mode.inner substituted,
          .restore saved]
  | _ => expanded u
where
  demanded (words : List Script.Word) : Option Script.Demand :=
    Script.demandOfWords? u.process.bindings words
  expanded (u : Turn) : Turn :=
    match Script.demandOfWords? u.process.bindings script.headWords with
    | some demand => u.fulfil script mode substituted demand
    | none => u.runScript script mode substituted

/-! ## Children -/

/-- What is said when a child has ended by a signal; some are passed over in silence. -/
def tellEnd (u : Turn) : ExitStatus → Turn
  | .code _ => u
  | .signal n => if n = 2 || n = Signal.pipe then u else u.complain [Signal.description n]

/-- Takes note of the ends of processes in the background. -/
def collect (u : Turn) : Turn :=
  let roster := u.process.roster.map (·.note u.machine.endOf?)
  { u.map (fun p => { p with roster }) with
    machine := u.machine.forget (roster.flatMap (·.processes.map (·.1))) }

/-- Takes note of a child that has ended, and of others on the way. -/
def reap (u : Turn) (child : Nat) (counts : Bool) : Turn :=
  match u.machine.endOf? child with
  | none => u
  | some status =>
    let told := (u.tellEnd status).collect
    let v := { told with machine := told.machine.forget [child] }
    if counts then v.withStatus status.number else v

/-- Waits no longer for work in the background that is over: what was not seen of its end before
is told, and its status is taken over. -/
def reapWork (u : Turn) (e : RosterEntry) : Turn :=
  let unseen := e.processes.filterMap fun (id, seen) =>
    if seen.isSome then none else u.machine.endOf? id
  let v := (unseen.foldl tellEnd u).collect
  (v.map fun p => { p with roster := p.roster.markWaited e.number }).withStatus
    (e.note u.machine.endOf?).status

/-- Waits for the first of some pieces of work, and then for the others. -/
def awaitNamed (u : Turn) : List String → Turn
  | [] => u
  | name :: rest =>
    let next (u : Turn) := if rest.isEmpty then u else u.push [.awaitNamed rest]
    match u.process.roster.search name with
    | .error message => u.under "wait" (·.refuse false message)
    | .ok none => next u
    | .ok (some e) => next (u.reapWork e)

def withoutLineFeeds (cs : List Char) : List Char := (cs.reverse.dropWhile (· = '\n')).reverse

/-- Puts what a child has written into a script. -/
def substitute (u : Turn) (pipe child : Nat) (script : Script) (mode : Mode) : Turn :=
  let content := ((u.machine.pipes[pipe]?).map Pipe.content).getD []
  let status := ((u.machine.endOf? child).map ExitStatus.number).getD 0
  let words := Script.answerWords u.process.bindings (withoutLineFeeds (scriptText content))
    script.headWords
  (u.reap child false).push [.run (script.withHeadWords words) mode (some status)]

/-! ## Input -/

/-- The characters of the line at the start of a text, each with whether it was quoted, and how
much of the text is used up; without an end there is no line feed to be seen. -/
def takeLine (raw : Bool) : List Char → List Script.Glyph × Nat × Bool
  | [] => ([], 0, false)
  | '\n' :: _ => ([], 1, true)
  | '\\' :: c :: rest =>
    if raw then
      let (glyphs, n, ended) := takeLine raw (c :: rest)
      (⟨'\\', false⟩ :: glyphs, n + 1, ended)
    else
      let (glyphs, n, ended) := takeLine raw rest
      (if c = '\n' then glyphs else ⟨c, true⟩ :: glyphs, n + 2, ended)
  | c :: rest =>
    let (glyphs, n, ended) := takeLine raw rest
    (if c.toNat = 0 then glyphs else ⟨c, false⟩ :: glyphs, n + 1, ended)

/-- The values of variables that a line is cut into: the last one has all that is left. -/
def cutLine (separators : List Char) : (names : List String) → List Script.Glyph →
    List (String × String)
  | names, glyphs =>
    let isSeparator (g : Script.Glyph) : Bool := !g.quoted && separators.contains g.char
    let isBlank (g : Script.Glyph) : Bool := isSeparator g && Script.Fields.isBlank g.char
    let start := glyphs.dropWhile isBlank
    match names with
    | [] => []
    | [name] =>
      [(name, Script.Bindings.textOfGlyphs ((start.reverse.dropWhile isBlank).reverse))]
    | name :: more :: names =>
      let value := start.takeWhile (!isSeparator ·)
      let after := (start.drop value.length).dropWhile isBlank
      let rest := match after with
        | g :: later => if isSeparator g then later else after
        | [] => []
      (name, Script.Bindings.textOfGlyphs value) :: cutLine separators (more :: names) rest

def readLine (u : Turn) (names : List String) (raw : Bool) : Turn :=
  let source := u.input?.getD (.device .null)
  let content : Content := ((u.whole.peek source).toOption.map (·.1)).getD []
  let (glyphs, count, ended) := takeLine raw (ByteString.ofBytes content.toBytes).toList
  let v := { u with machine := u.machine.skip source count }
  let values := cutLine v.process.bindings.separators names glyphs
  let good := values.takeWhile fun (name, _) =>
    Script.isName name.toList && !v.process.bindings.vars.isConstant name
  let w := v.setAll good
  match values.drop good.length with
  | [] => w.withStatus (if ended then 0 else 1)
  | (name, _) :: _ =>
    let problem := if Script.isName name.toList then "is read only" else "bad variable name"
    w.under "read" (·.refuse false (name ++ ": " ++ problem))

def readScript (u : Turn) (mode : Mode) : Turn :=
  let source := u.input?.getD (.device .null)
  let content : Content := ((u.whole.peek source).toOption.map (·.1)).getD []
  let v := { u with machine := u.machine.skip source content.length }
  v.push [.run (Script.parse (scriptText content)) mode none]

/-! ## Frames -/

/-- Does what a frame that was taken off the process says. -/
def perform (u : Turn) (frame : Frame) : Turn :=
  let succeeds := u.process.status = 0
  match frame with
  | .run script mode substituted => u.evaluate script mode substituted
  | .onSuccess script mode => if succeeds then u.push [.run script mode none] else u
  | .onFailure script mode => if succeeds then u else u.push [.run script mode none]
  | .branch yes no mode =>
    if succeeds then u.push [.run yes mode none]
    else match no with
      | .nothing => u.withStatus 0
      | no => u.push [.run no mode none]
  | .invert => u.withStatus (if succeeds then 1 else 0)
  | .loop untilTrue condition body mode begun =>
    u.push [.run condition .condition none,
      .loopTest untilTrue condition body mode (if begun then u.process.status else 0)]
  | .loopTest untilTrue condition body mode last =>
    if succeeds != untilTrue then
      u.push [.run body mode none, .loop untilTrue condition body mode true]
    else u.withStatus last
  | .each _ [] _ _ begun => if begun then u else u.withStatus 0
  | .each name (value :: rest) body mode _ =>
    (u.push [.run body mode none, .each name rest body mode true]).assign name value
  | .restore _ | .restoreVars _ | .endCall _ _ | .endSource _ _ => u.map (·.undo frame)
  | .insist => if succeeds || !u.process.hasOption 'e' then u else u.leave u.process.status
  | .settle status => u.withStatus status
  | .await child counts => u.reap child counts
  | .awaitNamed names => u.awaitNamed names
  | .awaitAll => u.collect.map fun p =>
      { p with roster := p.roster.map fun e => { e with waited := true } }
  | .substitute pipe child script mode => u.substitute pipe child script mode
  | .readLine names raw => u.readLine names raw
  | .readScript mode => u.readScript mode
  | .program i => u.startProgram i
  | .say name sayings status => u.say name sayings status
  | .concatenate c => u.concatenate c
  | .drain c source => u.drain c source
  | .finish status => u.finish (.code status)

def answerSignal (u : Turn) (signal status : Nat) : Turn :=
  match u.process.traps.find? (·.1 == signal) with
  | none => u
  | some (_, command) =>
    u.push [.run (Script.parse command.toList) {} none, .settle status]

/-- The process does what is next for it where no signal has to be answered. -/
def goOn (u : Turn) : Turn :=
  match u.process.frames with
  | frame :: rest => (u.map fun p => { p with frames := rest }).perform frame
  | [] =>
    if u.process.traps.any (·.1 == 0) then
      let v := u.answerSignal 0 u.process.status
      v.map fun p => { p with traps := p.traps.filter (·.1 != 0) }
    else u.finish (.code (u.process.status % 256))

/-- The process has written all that it was writing, or finds that nobody will read that. -/
def afterWriting (u : Turn) : Turn :=
  match u.process.writing with
  | none => u
  | some n =>
    let v := u.map fun p => { p with writing := none }
    let isLost := (u.machine.pipes[n]?).any fun pipe => pipe.isOverfull && !u.whole.isHeard n pipe
    if isLost then v.receive Signal.pipe else v

/-- The process does what is next for it. A signal that there is a command for comes first, once
what is under way has ended; it wakes the process from waiting for work in the background. -/
def advance (u : Turn) : Turn :=
  match u.process.pending, u.process.frames with
  | [], _ => u.goOn
  | signal :: rest, frames =>
    let answered (u : Turn) := (signal :: rest).foldr
      (fun n v => v.answerSignal n u.process.status) (u.map fun p => { p with pending := [] })
    match frames with
    | .awaitNamed _ :: after | .awaitAll :: after =>
      if u.machine.isRested u.process then u.goOn
      else answered ((u.collect.map fun p => { p with frames := after }).withStatus (128 + signal))
    | frame :: _ => if frame.isPartial then u.goOn else answered u
    | [] => answered u

end Turn

namespace Machine

/-- How long a step takes, in nanoseconds. -/
def stepTime : Nat := 1000

/-- The machine after a step of a process that is not among its processes. -/
def step (m : Machine) (p : Process) : Machine :=
  let start := Turn.afterWriting ⟨m, { p with wake := m.clock + stepTime }, none⟩
  let u := if start.ended.isSome then start else start.advance
  match u.ended with
  | some status => u.machine.withEnd u.process status
  | none => { u.machine with processes := u.process :: u.machine.processes }

end Machine

end CompositionGen
