import CompositionGen.Process
import CompositionGen.Proofs.Process.Programs

/-!
# Steps of machines

A frame that is taken off a process is carried out by things that a process does at its turn, so a
machine evolves in every step, and in any number of them. The host's own part, starting programs and
releasing them, is of the same kind.
-/

namespace CompositionGen

namespace Machine.Evolves

variable {m : Machine} {u v : Turn}

/-! ## Scripts -/

theorem fulfil (h : m.Evolves u.whole) (script : Script) (mode : Mode)
    (substituted : Option Nat) (demand : Script.Demand) :
    m.Evolves (u.fulfil script mode substituted demand).whole := by
  cases demand with
  | run source line =>
    have hpipe := h.onMachine (evolves_makePipe u.machine false)
    unfold Turn.fulfil
    dsimp only
    refine push (hpipe.claim.fork (fun p => ?_) _) _
    rfl
  | compute expression =>
    unfold Turn.fulfil
    dsimp only
    split
    · exact h.fail _
    · exact push (h.map rfl) _
  | assign name value => exact (h.push _).assign name value
  | refuse message => exact h.fail message

theorem runChild (h : m.Evolves u.whole) (script : Script) (mode : Mode) :
    m.Evolves (u.runChild script mode).whole := by
  refine push (h.claim.fork (fun p => ?_) _) _
  rfl

theorem startStages (h : m.Evolves u.whole) (mode : Mode) (input : Option Channel)
    (children : List Nat) (stages : List Script) :
    m.Evolves (Turn.startStages mode u input children stages).1.whole := by
  induction stages generalizing u input children with
  | nil => exact h
  | cons stage rest ih =>
    unfold Turn.startStages
    dsimp only
    refine ih (fork ?_ (fun p => ?_) _) _ _
    · split
      · exact h
      · exact h.onMachine (evolves_makePipe u.machine false)
    · rfl

theorem runPipeline (h : m.Evolves u.whole) (script : Script) (mode : Mode) :
    m.Evolves (u.runPipeline script mode).whole :=
  (h.claim.startStages mode none [] script.stages).push _

theorem startBackground (h : m.Evolves u.whole) (body : Script) :
    m.Evolves (u.startBackground body).whole := by
  unfold Turn.startBackground
  dsimp only
  refine withStatus (map ?_ rfl) 0
  split
  · exact map (startStages (h.map rfl) _ _ _ _) rfl
  · dsimp only
    refine h.fork (fun p => ?_) _
    rfl

theorem runRedirected (h : m.Evolves u.whole) (line : Nat) (body : Script)
    (redirects : List Script.Redirect) (mode : Mode) :
    m.Evolves (u.runRedirected line body redirects mode).whole := by
  have hredirected := h.redirectAll redirects
  unfold Turn.runRedirected
  split
  · split
    · exact h.push _
    · exact h.runChild _ mode
  · dsimp only
    split
    · exact hredirected.refuseRedirect _ _ false
    · exact hredirected.push _

theorem runScript (h : m.Evolves u.whole) (script : Script) (mode : Mode)
    (substituted : Option Nat) : m.Evolves (u.runScript script mode substituted).whole := by
  have hinsisting : m.Evolves (if u.process.hasOption 'e' && !mode.tested then u.push [.insist]
      else u).whole := by
    split
    · exact h.push _
    · exact h
  unfold Turn.runScript
  dsimp only
  split
  · exact h
  · exact hinsisting.runSimple _ _ _
  · exact hinsisting.runPipeline _ _
  · split
    · exact h.push _
    · exact hinsisting.runChild _ _
  · exact h.startBackground _
  · exact h.runRedirected _ _ _ _
  · exact h.push _
  · exact h.push _
  · exact h.push _
  · exact h.push _
  · exact h.push _
  · exact h.push _
  · exact h.push _
  · split
    · exact h.withStatus 0
    · exact h.withStatus 0
    · exact h.push _
  · exact map (h.withStatus 0) rfl
  · exact h.fail _

theorem expanded (h : m.Evolves u.whole) (script : Script) (mode : Mode)
    (substituted : Option Nat) :
    m.Evolves (Turn.evaluate.expanded script mode substituted u).whole := by
  unfold Turn.evaluate.expanded
  split
  · exact h.fulfil _ _ _ _
  · exact h.runScript _ _ _

theorem evaluate (h : m.Evolves u.whole) (script : Script) (mode : Mode)
    (substituted : Option Nat) : m.Evolves (u.evaluate script mode substituted).whole := by
  have hline : m.Evolves (script.line?.elim u fun line =>
      u.map fun p => { p with line }).whole := by
    cases script.line? with
    | none => exact h
    | some line =>
      rw [Option.elim_some]
      refine h.map ?_
      rfl
  unfold Turn.evaluate
  dsimp only
  split
  · exact hline
  · split
    · split
      · exact hline.push _
      · exact hline.expanded _ _ _
    · split
      · exact hline.expanded _ _ _
      · split
        · exact (hline.redirectAll _).refuseRedirect _ _ false
        · exact (hline.redirectAll _).push _
    · exact hline.expanded _ _ _

/-! ## Children -/

theorem tellEnd (h : m.Evolves u.whole) (status : ExitStatus) :
    m.Evolves (u.tellEnd status).whole := by
  unfold Turn.tellEnd
  split
  · exact h
  · split
    · exact h
    · exact h.complain _

theorem collect (h : m.Evolves u.whole) : m.Evolves u.collect.whole := by
  unfold Turn.collect
  refine onMachine (map h ?_) (evolves_forget _ _)
  rfl

theorem reap (h : m.Evolves u.whole) (child : Nat) (counts : Bool) :
    m.Evolves (u.reap child counts).whole := by
  unfold Turn.reap
  split
  · exact h
  · rename_i status _
    have htold := (h.tellEnd status).collect
    have hforgotten := htold.onMachine (evolves_forget _ [child])
    dsimp only
    split
    · exact hforgotten.withStatus _
    · exact hforgotten

theorem reapWork (h : m.Evolves u.whole) (e : RosterEntry) :
    m.Evolves (u.reapWork e).whole := by
  unfold Turn.reapWork
  dsimp only
  have htold := h.foldl (f := Turn.tellEnd) (fun v status hv => hv.tellEnd status)
  exact withStatus (map (htold _).collect rfl) _

theorem awaitNamed (h : m.Evolves u.whole) (names : List String) :
    m.Evolves (u.awaitNamed names).whole := by
  have hnext : ∀ {v : Turn} (rest : List String), m.Evolves v.whole →
      m.Evolves (if rest.isEmpty then v else v.push [.awaitNamed rest]).whole := by
    intro v rest hv
    split
    · exact hv
    · exact hv.push _
  unfold Turn.awaitNamed
  split
  · exact h
  · dsimp only
    split
    · exact h.under "wait" fun v hv => hv.refuse false _
    · exact hnext _ h
    · exact hnext _ (h.reapWork _)

theorem substitute (h : m.Evolves u.whole) (pipe child : Nat) (script : Script) (mode : Mode) :
    m.Evolves (u.substitute pipe child script mode).whole :=
  (h.reap child false).push _

/-! ## Input -/

theorem readLine (h : m.Evolves u.whole) (names : List String) (raw : Bool) :
    m.Evolves (u.readLine names raw).whole := by
  unfold Turn.readLine
  dsimp only
  have hskipped := fun source count => h.onMachine (evolves_skip u.machine source count)
  split
  · exact (setAll (hskipped _ _) _).withStatus _
  · exact (setAll (hskipped _ _) _).under "read" fun v hv => hv.refuse false _

theorem readScript (h : m.Evolves u.whole) (mode : Mode) :
    m.Evolves (u.readScript mode).whole :=
  (h.onMachine (evolves_skip u.machine _ _)).push _

/-! ## Frames -/

/-- Whatever a frame says, carrying it out evolves the machine. -/
theorem perform (h : m.Evolves u.whole) (frame : Frame) : m.Evolves (u.perform frame).whole := by
  -- Only frames that look at a status, or at values that are left, decide anything by themselves.
  cases frame with
  | run script mode substituted => exact h.evaluate script mode substituted
  | onSuccess script mode =>
    unfold Turn.perform
    dsimp only
    split
    · exact h.push _
    · exact h
  | onFailure script mode =>
    unfold Turn.perform
    dsimp only
    split
    · exact h
    · exact h.push _
  | branch yes no mode =>
    unfold Turn.perform
    dsimp only
    split
    · exact h.push _
    · split
      · exact h.withStatus 0
      · exact h.push _
  | invert => exact h.withStatus _
  | loop untilTrue condition body mode begun => exact h.push _
  | loopTest untilTrue condition body mode last =>
    unfold Turn.perform
    dsimp only
    split
    · exact h.push _
    · exact h.withStatus last
  | each name values body mode begun =>
    cases values with
    | nil =>
      unfold Turn.perform
      dsimp only
      split
      · exact h
      · exact h.withStatus 0
    | cons value rest => exact (h.push _).assign name value
  | restore saved => exact h.map (Process.id_undo _ _)
  | restoreVars saved => exact h.map (Process.id_undo _ _)
  | endCall arguments locals => exact h.map (Process.id_undo _ _)
  | endSource label isFile => exact h.map (Process.id_undo _ _)
  | insist =>
    unfold Turn.perform
    dsimp only
    split
    · exact h
    · exact h.leave _
  | settle status => exact h.withStatus status
  | await child counts => exact h.reap child counts
  | awaitNamed names => exact h.awaitNamed names
  | awaitAll => exact h.collect.map rfl
  | substitute pipe child script mode => exact h.substitute pipe child script mode
  | readLine names raw => exact h.readLine names raw
  | readScript mode => exact h.readScript mode
  | program i => exact h.startProgram i
  | say name sayings status => exact h.say name sayings status
  | concatenate c => exact h.concatenate c
  | drain c source => exact h.drain c source
  | finish status => exact h.finish _

theorem answerSignal (h : m.Evolves u.whole) (signal status : Nat) :
    m.Evolves (u.answerSignal signal status).whole := by
  unfold Turn.answerSignal
  split
  · exact h
  · exact h.push _

theorem goOn (h : m.Evolves u.whole) : m.Evolves u.goOn.whole := by
  unfold Turn.goOn
  split
  · exact perform (h.map rfl) _
  · split
    · exact map (h.answerSignal 0 _) rfl
    · exact h.finish _

theorem afterWriting (h : m.Evolves u.whole) : m.Evolves u.afterWriting.whole := by
  unfold Turn.afterWriting
  split
  · exact h
  · dsimp only
    split
    · exact receive (h.map rfl) _
    · exact h.map rfl

theorem advance (h : m.Evolves u.whole) : m.Evolves u.advance.whole := by
  have hanswered : ∀ {v : Turn} (signals : List Nat) (status : Nat), m.Evolves v.whole →
      m.Evolves (signals.foldr (fun n w => w.answerSignal n status)
        (v.map fun p => { p with pending := [] })).whole := by
    intro v signals status hv
    induction signals with
    | nil => exact hv.map rfl
    | cons signal rest ih => exact ih.answerSignal signal status
  unfold Turn.advance
  split
  · exact h.goOn
  · dsimp only
    split
    · split
      · exact h.goOn
      · exact hanswered (_ :: _) _ (withStatus (map h.collect rfl) _)
    · split
      · exact h.goOn
      · exact hanswered (_ :: _) _ (withStatus (map h.collect rfl) _)
    · split
      · exact h.goOn
      · exact hanswered (_ :: _) _ h
    · exact hanswered (_ :: _) _ h

end Machine.Evolves

namespace Machine

variable {m n : Machine}

/-! ## Steps -/

/-- A process makes a step, or ends with it. -/
theorem evolves_step (m : Machine) (p : Process) :
    { m with processes := p :: m.processes }.Evolves (m.step p) := by
  let start : Turn := ⟨m, { p with wake := m.clock + stepTime }, none⟩
  have hstart : { m with processes := p :: m.processes }.Evolves start.afterWriting.whole :=
    Evolves.afterWriting (u := start) (evolves_of_ids rfl)
  have hadvanced : { m with processes := p :: m.processes }.Evolves
      (if start.afterWriting.ended.isSome then start.afterWriting
        else start.afterWriting.advance).whole := by
    split
    · exact hstart
    · exact hstart.advance
  unfold Machine.step
  dsimp only
  split
  · refine (hadvanced.trans ?_).trans (evolves_withEnd _ _ _)
    exact evolves_processes (List.sublist_cons_self _ _).subperm
  · exact hadvanced

theorem pick_perm {ps others : List Process} {p : Process}
    (h : next?.pick m ps = some (p, others)) : (p :: others).Perm ps := by
  induction ps generalizing p others with
  | nil => cases h
  | cons q rest ih =>
    unfold next?.pick at h
    split at h
    · split at h
      · cases h
        exact .refl _
      · cases h
    · rename_i _ left hpick
      split at h
      · cases h
        exact .refl _
      · cases h
        exact (List.Perm.swap q p left).trans ((ih hpick).cons q)

/-- The clock goes on to the time of the process that is next, which makes a step. -/
theorem evolves_advance (m : Machine) : m.Evolves m.advance := by
  unfold Machine.advance
  split
  · exact .refl m
  · rename_i p others hnext
    have hperm := (pick_perm hnext).map (·.id)
    have hclock : m.Evolves { m with clock := max m.clock p.wake } :=
      evolves_clock (Nat.le_max_left _ _)
    refine (hclock.trans (evolves_processes hperm.subperm)).trans ?_
    exact evolves_step { m with clock := max m.clock p.wake, processes := others } p

/-! ## The host -/

theorem evolves_start {command : Command} {directory : Path} {s : Started}
    (h : m.start command directory = .ok (s, n)) : m.Evolves n := by
  unfold Machine.start at h
  dsimp only at h
  split at h
  · cases h
  · rw [Outcome.bind_ok_iff] at h
    obtain ⟨location, -, h⟩ := h
    rw [Outcome.bind_ok_iff] at h
    obtain ⟨i, -, h⟩ := h
    cases h
    have hpipes := (evolves_makePipe m true).trans (evolves_makePipe _ true)
    exact hpipes.trans (evolves_newProcess rfl)

theorem evolves_stopListening (m : Machine) (pipe : Nat) : m.Evolves (m.stopListening pipe) := by
  unfold stopListening
  split
  · exact evolves_withPipe m _ _
  · exact .refl m

theorem evolves_release (m : Machine) (s : Started) : m.Evolves (m.release s) :=
  ((evolves_signal m _ _).trans (evolves_stopListening _ _)).trans (evolves_stopListening _ _)

theorem evolves_change {changed : Except FileError FileSystem}
    (h : ∀ files, changed = .ok files → m.files.Grows files) : m.Evolves (m.change changed).2 := by
  cases changed with
  | error cause => exact .refl m
  | ok files => exact evolves_files (h files rfl)

end Machine

end CompositionGen
