import CompositionGen.Process.Invoke
import CompositionGen.Proofs.Process.Commands
import CompositionGen.Proofs.Utility.Effects

/-!
# What programs do to a machine

A program of the system goes on in a few turns, and a utility is over at once with what it has done
to the files. A simple command comes to a command of the shell, a function or a program.
-/

namespace CompositionGen.Machine.Evolves

variable {m : Machine} {u v : Turn}

/-! ## Shells -/

theorem refuseStart (h : m.Evolves u.whole) (name problem : String) :
    m.Evolves (u.refuseStart name problem).whole :=
  (h.complain _).push _

theorem runFile (h : m.Evolves u.whole) (name file : String) :
    m.Evolves (u.runFile name file).whole := by
  unfold Turn.runFile
  split
  · exact h.push _
  · split
    · exact h.refuseStart _ _
    · exact h.push _

theorem startShell (h : m.Evolves u.whole) (i : Invocation) :
    m.Evolves (u.startShell i).whole := by
  unfold Turn.startShell
  split
  · exact h.refuseStart _ _
  · dsimp only
    split
    · exact h.refuseStart _ _
    · exact push (h.map rfl) _
    · exact push (h.map rfl) _
    · split
      · exact push (h.map rfl) _
      · exact runFile (h.map rfl) _ _

/-! ## Other programs -/

theorem startEnv (h : m.Evolves u.whole) (i : Invocation) : m.Evolves (u.startEnv i).whole := by
  unfold Turn.startEnv
  dsimp only
  split
  · exact (h.complain _).push _
  · exact h.push _
  · split
    · exact h.map rfl
    · exact (h.complain _).push _

theorem startCat (h : m.Evolves u.whole) (i : Invocation) : m.Evolves (u.startCat i).whole := by
  unfold Turn.startCat
  split
  · exact h.push _
  · split
    · exact h.push _
    · split
      · exact (h.complain _).push _
      · exact h.push _

theorem startProgram (h : m.Evolves u.whole) (i : Invocation) :
    m.Evolves (u.startProgram i).whole := by
  unfold Turn.startProgram
  dsimp only
  split
  · exact h.startShell i
  · exact h.startEnv i
  · exact h.startCat i
  · split
    · exact h.push _
    · exact push (h.map rfl) _
  · split
    · exact h.push _
    · rename_i hact
      refine push (h.withFiles ?_) _
      exact Utility.grows_programs hact ⟨i.name, i.args, u.files, u.process.environment.entries⟩

theorem say (h : m.Evolves u.whole) (name : String) (sayings : List Utility.Saying)
    (status : Nat) : m.Evolves (u.say name sayings status).whole := by
  have hsaid := h.sayAll sayings
  unfold Turn.say
  dsimp only
  split
  · exact hsaid.push _
  · exact (hsaid.complain _).push _

theorem skipFile (h : m.Evolves u.whole) (c : Concatenation) (shown reason : String) :
    m.Evolves (u.skipFile c shown reason).whole :=
  (h.complain _).push _

theorem copyOut (h : m.Evolves u.whole) (c : Concatenation) (content : Content)
    (next : Concatenation → Frame) : m.Evolves (u.copyOut c content next).whole := by
  unfold Turn.copyOut
  dsimp only
  split
  · exact h.push _
  · have hwritten := h.write 1 (c.display.showContent c.state content).1
    split
    · rename_i hw
      rw [hw] at hwritten
      exact hwritten.push _
    · rename_i hw
      rw [hw] at hwritten
      exact (hwritten.complain _).push _

theorem concatenate (h : m.Evolves u.whole) (c : Concatenation) :
    m.Evolves (u.concatenate c).whole := by
  unfold Turn.concatenate
  split
  · split
    · exact (h.complain _).push _
    · exact h.push _
  · dsimp only
    split
    · exact h.push _
    · exact h.skipFile _ _ _
  · dsimp only
    split
    · exact h.push _
    · split
      · exact h.skipFile _ _ _
      · split
        · exact h.skipFile _ _ _
        · exact h.copyOut _ _ _

theorem drain (h : m.Evolves u.whole) (c : Concatenation) (source : Channel) :
    m.Evolves (u.drain c source).whole := by
  unfold Turn.drain
  split
  · exact h.skipFile _ _ _
  · exact (h.onMachine (evolves_skip u.machine source _)).copyOut _ _ _

/-! ## Commands of the shell -/

theorem under (h : m.Evolves u.whole) (name : String) {act : Turn → Turn}
    (hact : ∀ v : Turn, m.Evolves v.whole → m.Evolves (act v).whole) :
    m.Evolves (u.under name act).whole := by
  have hlabelled : m.Evolves (u.map fun p => { p with label := some name }).whole := h.map rfl
  exact (hact _ hlabelled).map rfl

theorem runRead (h : m.Evolves u.whole) (name : String) (isFile : Bool) (source : List Char)
    (mode : Mode) : m.Evolves (u.runRead name isFile source mode).whole := by
  unfold Turn.runRead
  dsimp only
  split
  · exact h.withStatus 0
  · exact push (h.map rfl) _

theorem source (h : m.Evolves u.whole) (args : List String) (mode : Mode) :
    m.Evolves (u.source args mode).whole := by
  unfold Turn.source
  split
  · exact h.withStatus 0
  · dsimp only
    split
    · exact h.under "." fun v hv => hv.fail _
    · split
      · exact h.under "." fun v hv => hv.fail _
      · rename_i hopen
        exact (h.openPath hopen).runRead _ _ _ _

theorem runUtility {act : Utility.Call → Utility.Effect} (h : m.Evolves u.whole)
    (hact : ∀ c, (act c).files = c.files) (name : String) (args : List String) :
    m.Evolves (u.runUtility name act args).whole := by
  have hdone : m.Evolves (u.withFiles (act { name, args, files := u.files }).files).whole := by
    rw [hact]
    exact h.withFiles (.refl u.files)
  unfold Turn.runUtility
  dsimp only
  split
  · exact (hdone.sayAll _).withStatus _
  · exact ((hdone.sayAll _).warn _).withStatus 1

theorem describe (h : m.Evolves u.whole) (brief : Bool) (names : List String) :
    m.Evolves (u.describe brief names).whole :=
  h.answer _ _

theorem command (h : m.Evolves u.whole) (args : List String) :
    m.Evolves (u.command args).whole := by
  unfold Turn.command
  refine h.withOptions false fun given names => ?_
  split
  · exact h.withStatus 0
  · exact h.describe _ _

theorem runShellCommand (h : m.Evolves u.whole) (mode : Mode) (name : String)
    (args : List String) : m.Evolves (u.runShellCommand mode name args).whole := by
  unfold Turn.runShellCommand
  split
  · exact h.source args mode
  · exact h.runRead _ _ _ mode
  · refine h.under _ fun v hv => ?_
    split
    · exact hv.breakOut _ _
    · exact hv.breakOut _ _
    · exact hv.exit _
    · exact hv.mark _ _ _ _
    · exact hv.mark _ _ _ _
    · exact hv.comeBack _
    · exact hv.set _
    · exact hv.shift _
    · exact hv.trap _
    · exact hv.unset _
    · exact (hv.withStatus 0).localEach _
    · exact hv.cd _
    · exact hv.command _
    · exact hv.withOptions false fun given names => hv.describe false names
    · exact hv.kill _
    · exact hv.pwd _
    · exact hv.read _
    · exact hv.wait _
    · split
      · rename_i hact
        exact hv.runUtility (Utility.files_shellUtilities hact) _ _
      · exact hv.withStatus 0

/-! ## Simple commands -/

theorem setAll (h : m.Evolves u.whole) (settings : List (String × String)) :
    m.Evolves (u.setAll settings).whole := by
  have hset : ∀ (p : Process) (setting : String × String),
      (p.set setting.1 setting.2).id = p.id := fun _ _ => rfl
  exact h.map (foldl_keeps hset settings u.process)

theorem exec (h : m.Evolves u.whole) (settings : List (String × String)) (name : String)
    (args : List String) : m.Evolves (u.exec settings name args).whole := by
  unfold Turn.exec
  dsimp only
  split
  · exact (h.under "exec" fun v hv => hv.warn _).leave _
  · exact h.map rfl

theorem runProgram (h : m.Evolves u.whole) (mode : Mode) (settings : List (String × String))
    (name : String) (args : List String) (saved : SavedDescriptors) :
    m.Evolves (u.runProgram mode settings name args saved).whole := by
  unfold Turn.runProgram
  dsimp only
  split
  · exact withStatus ((h.warn _).map (Process.id_undo _ _)) _
  · split
    · exact h.map rfl
    · refine push (h.claim.fork (fun p => ?_) _) _
      rfl

theorem invoke (h : m.Evolves u.whole) (mode : Mode) (settings : List (String × String))
    (onlyCommands : Bool) (name : String) (args : List String) (saved : SavedDescriptors) :
    m.Evolves (u.invoke mode settings onlyCommands name args saved).whole := by
  have hrestoring : m.Evolves (if saved.isEmpty then u else u.push [.restore saved]).whole := by
    split
    · exact h
    · exact h.push _
  unfold Turn.invoke
  dsimp only
  generalize (if saved.isEmpty = true then u else u.push [.restore saved]) = v at hrestoring ⊢
  split
  · split
    · exact (h.setAll settings).withStatus 0
    · exact h.exec _ _ _
  · split
    · refine push (map (map hrestoring ?_) ?_) _
      · rfl
      · rfl
    · split
      · exact (hrestoring.setAll settings).runShellCommand _ _ _
      · split
        · refine (setAll ?_ settings).runShellCommand _ _ _
          split
          · exact hrestoring
          · exact hrestoring.push _
        · exact h.runProgram _ _ _ _ _

theorem trace (h : m.Evolves u.whole) (settings : List (String × String))
    (fields : List String) : m.Evolves (u.trace settings fields).whole := by
  unfold Turn.trace
  split
  · exact h.complain _
  · exact h

theorem runSettings (h : m.Evolves u.whole) (settings : List (String × String))
    (redirects : List Script.Redirect) (substituted : Option Nat) :
    m.Evolves (u.runSettings settings redirects substituted).whole := by
  have hredirected := h.redirectAll redirects
  unfold Turn.runSettings
  dsimp only
  split
  · exact hredirected.refuseRedirect _ _ false
  · have hback : m.Evolves ((u.redirectAll redirects).1.map fun p =>
        p.undo (.restore (u.redirectAll redirects).2.1)).whole :=
      hredirected.map (Process.id_undo _ _)
    split
    · exact hback.fail _
    · exact (hback.setAll settings).withStatus _

theorem runSimple (h : m.Evolves u.whole) (c : Script.Simple) (mode : Mode)
    (substituted : Option Nat) : m.Evolves (u.runSimple c mode substituted).whole := by
  unfold Turn.runSimple
  dsimp only
  generalize Turn.settingsOf _ _ = settings
  generalize u.expandWords _ = fields
  have htraced := h.trace settings fields
  split
  · exact htraced.runSettings _ _ _
  · have hredirected := htraced.redirectAll c.redirects
    split
    · exact hredirected.refuseRedirect _ _ _
    · split
      · exact fail (hredirected.map (Process.id_undo _ _)) _
      · exact hredirected.invoke _ _ _ _ _ _

end CompositionGen.Machine.Evolves
