import CompositionGen.Process.Redirection
import CompositionGen.Proofs.Process.Evolution

/-!
# How turns evolve

A machine with a process at its turn has come out of an earlier machine, and still has after the
process has done one thing more: written, opened a file, made another process or been changed
itself. The number of the process is its own throughout.
-/

namespace CompositionGen.Machine.Evolves

variable {m : Machine} {u v : Turn}

/-! ## Parts of turns -/

theorem map {f : Process → Process} (h : m.Evolves u.whole)
    (hf : (f u.process).id = u.process.id) : m.Evolves (u.map f).whole := by
  refine h.trans (evolves_of_ids (m := u.whole) ?_)
  unfold Turn.map ids Turn.whole
  rw [List.map_cons, List.map_cons, hf]

/-- What happens to the other processes happens to the machine. -/
theorem onMachine {n : Machine} (h : m.Evolves u.whole) (hn : u.machine.Evolves n) :
    m.Evolves (Turn.whole { u with machine := n }) := by
  obtain ⟨fresh, hsub, hfresh⟩ := hn.numbers
  have hwhole : u.whole.Evolves (Turn.whole { u with machine := n }) :=
    { hn with numbers := ⟨fresh, (List.subperm_cons u.process.id).mpr hsub, hfresh⟩ }
  exact h.trans hwhole

theorem foldl {α : Type} {f : Turn → α → Turn} (h : m.Evolves u.whole)
    (hf : ∀ (v : Turn) a, m.Evolves v.whole → m.Evolves (f v a).whole) (items : List α) :
    m.Evolves (items.foldl f u).whole := by
  induction items generalizing u with
  | nil => exact h
  | cons a rest ih => exact ih (hf u a h)

theorem push (h : m.Evolves u.whole) (frames : List Frame) : m.Evolves (u.push frames).whole :=
  h.map rfl

theorem withStatus (h : m.Evolves u.whole) (status : Nat) :
    m.Evolves (u.withStatus status).whole :=
  h.map rfl

theorem finish (h : m.Evolves u.whole) (status : ExitStatus) : m.Evolves (u.finish status).whole :=
  h

theorem withFiles {files : FileSystem} (h : m.Evolves u.whole) (hf : u.files.Grows files) :
    m.Evolves (u.withFiles files).whole :=
  h.onMachine (evolves_files ⟨hf.root, rfl⟩)

theorem receive (h : m.Evolves u.whole) (signal : Nat) : m.Evolves (u.receive signal).whole := by
  unfold Turn.receive
  split
  · rename_i p hp
    exact h.map (f := fun _ => p) (Process.id_of_receive hp)
  · exact h

/-! ## Writing -/

theorem write (h : m.Evolves u.whole) (descriptor : Nat) (content : Content) :
    m.Evolves (u.write descriptor content).1.whole := by
  unfold Turn.write
  split
  · exact h
  · split
    · exact h.receive Signal.pipe
    · exact h
    · rename_i n hn
      obtain ⟨hgrown, hps⟩ := evolves_write hn
      refine (h.trans hgrown).trans (evolves_of_ids ?_)
      rw [ids, hps]
      rfl

theorem complain (h : m.Evolves u.whole) (lines : List String) :
    m.Evolves (u.complain lines).whole := by
  unfold Turn.complain
  split
  · exact h
  · exact h.write 2 _

theorem warn (h : m.Evolves u.whole) (message : String) : m.Evolves (u.warn message).whole :=
  h.complain _

theorem leave (h : m.Evolves u.whole) (status : Nat) : m.Evolves (u.leave status).whole :=
  h.map (Process.id_unwind _ _)

theorem fail (h : m.Evolves u.whole) (message : String) : m.Evolves (u.fail message).whole :=
  (h.warn message).leave 2

theorem sayAll (h : m.Evolves u.whole) (sayings : List Utility.Saying) :
    m.Evolves (u.sayAll sayings).1.whole := by
  induction sayings generalizing u with
  | nil => exact h
  | cons saying rest ih =>
    unfold Turn.sayAll
    split
    · exact h
    · split
      · exact ih (h.complain _)
      · exact ih h
      · exact ih (h.write 1 _)

/-! ## Making processes -/

theorem claim (h : m.Evolves u.whole) : m.Evolves u.claim.whole := h.map rfl

theorem fork {change : Process → Process} (h : m.Evolves u.whole)
    (hc : ∀ p, (change p).id = p.id) (frames : List Frame) :
    m.Evolves (u.fork change frames).1.whole :=
  h.onMachine (evolves_newProcess (hc _))

/-! ## Redirections -/

theorem grows_prepareFile {mode : OpenMode} {p : Path} {files : FileSystem}
    (h : u.prepareFile mode p = .ok files) : u.files.Grows files := by
  unfold Turn.prepareFile at h
  split at h
  · cases h
    exact .refl u.files
  · cases h
  · split at h
    · cases h
    · exact FileSystem.grows_write h
  · cases h
  · exact FileSystem.grows_write h

theorem openFile {mode : OpenMode} {p : Path} {c : Channel} (h : m.Evolves u.whole)
    (hopen : u.openFile mode p = .ok (v, c)) : m.Evolves v.whole := by
  unfold Turn.openFile at hopen
  rw [Outcome.bind_ok_iff] at hopen
  obtain ⟨files, hfiles, hopen⟩ := hopen
  rw [Outcome.bind_ok_iff] at hopen
  obtain ⟨location, -, hopen⟩ := hopen
  cases hopen
  exact (h.withFiles (grows_prepareFile hfiles)).onMachine (evolves_openFile _ _)

theorem openPath {mode : OpenMode} {name : String} {c : Channel} (h : m.Evolves u.whole)
    (hopen : u.openPath mode name = .ok (v, c)) : m.Evolves v.whole := by
  unfold Turn.openPath at hopen
  split at hopen
  · split at hopen
    · cases hopen
      exact h
    · cases hopen
  · split at hopen
    · cases hopen
      exact h
    · exact h.openFile hopen

theorem setDescriptor (h : m.Evolves u.whole) (n : Nat) (c : Channel) :
    m.Evolves (u.setDescriptor n c).whole :=
  h.map rfl

theorem redirectTo (h : m.Evolves u.whole) (mode : OpenMode) (n : Nat) (name : String) :
    m.Evolves (u.redirectTo mode n name).1.whole := by
  unfold Turn.redirectTo
  split
  · rename_i hopen
    exact (h.openPath hopen).setDescriptor n _
  · exact h

theorem duplicate (h : m.Evolves u.whole) (n : Nat) (source : String) :
    m.Evolves (u.duplicate n source).1.whole := by
  unfold Turn.duplicate
  split
  · exact h.map rfl
  · split
    · exact h
    · split
      · exact h.setDescriptor n _
      · exact h
  · exact h

theorem readText (h : m.Evolves u.whole) (n : Nat) (text : String) :
    m.Evolves (u.readText n text).whole := by
  unfold Turn.readText
  dsimp only
  have hpipe := evolves_makePipe u.machine false
  exact (h.onMachine (hpipe.trans (evolves_withPipe _ _ _))).setDescriptor n _

theorem redirect (h : m.Evolves u.whole) (r : Script.Redirect) :
    m.Evolves (u.redirect r).1.whole := by
  cases r with
  | input n source => exact h.redirectTo _ n _
  | here n text => exact h.readText n _
  | output n kind target => exact h.redirectTo _ n _
  | both n target => exact h.redirectTo _ n _
  | duplicate n source => exact h.duplicate n _

theorem redirectAll (h : m.Evolves u.whole) (redirects : List Script.Redirect) :
    m.Evolves (u.redirectAll redirects).1.whole := by
  unfold Turn.redirectAll
  dsimp only
  refine List.foldlRecOn (motive := fun start : Turn × Option RedirectProblem =>
    m.Evolves start.1.whole) redirects _ h fun start hstart r _ => ?_
  split
  · exact hstart
  · exact hstart.redirect r

theorem refuseRedirect (h : m.Evolves u.whole) (saved : SavedDescriptors)
    (problem : RedirectProblem) (endsShell : Bool) :
    m.Evolves (u.refuseRedirect saved problem endsShell).whole := by
  have hundo : ∀ message, m.Evolves ((u.warn message).map fun p => p.undo (.restore saved)).whole :=
    fun message => (h.warn message).map (Process.id_undo _ _)
  unfold Turn.refuseRedirect
  split
  · exact (hundo _).leave 2
  · dsimp only
    split
    · exact (hundo _).leave 2
    · exact (hundo _).withStatus 2

end CompositionGen.Machine.Evolves
