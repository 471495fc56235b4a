import CompositionGen.Compile
import CompositionGen.Proofs.Process.Steps
import CompositionGen.Proofs.Sequences

/-!
# What compiling does to the machine

Jobs and processes take turns on the machine that they share, and every turn evolves it. So
whatever the compile scripts of the units do, a compilation takes nothing out of the tree of files:
paths lead where they led before, and what searches and walks need of a tree is still so
afterwards.
-/

namespace CompositionGen

namespace Compilation

variable {m : Machine} {s t : Compilation}

/-- A job goes on as far as it can, and all that it asks of the host evolves the machine. -/
theorem evolves_takeOn (job : Job) (a : Activity JobRun) (h : m.Evolves s.machine) :
    m.Evolves (takeOn job a s).machine := by
  induction a generalizing s with
  | done run => exact h
  | look next ih => exact ih _ h
  | createDirectories path next ih =>
    refine ih _ (h.trans (Machine.evolves_change fun files hfiles => ?_))
    exact FileSystem.grows_createDirectories hfiles
  | copy source target next ih =>
    refine ih _ (h.trans (Machine.evolves_change fun files hfiles => ?_))
    exact FileSystem.grows_copy hfiles
  | pause span next ih => exact h
  | watch command directory next ih =>
    unfold takeOn
    dsimp only
    split
    · exact ih _ h
    · rename_i hstart
      exact h.trans (Machine.evolves_start hstart)

theorem evolves_assign? (h : s.assign? = some t) : s.machine.Evolves t.machine := by
  unfold assign? at h
  split at h
  · dsimp only at h
    rw [Option.some.injEq] at h
    subst h
    exact evolves_takeOn _ _ (.refl s.machine)
  · cases h

theorem evolves_resume (s : Compilation) (job : Job) :
    s.machine.Evolves (s.resume job).machine := by
  unfold resume
  split
  · exact evolves_takeOn job _ (.refl s.machine)
  · exact evolves_takeOn job _ (Machine.evolves_release s.machine _)

theorem evolves_waitFor (s : Compilation) (moment : Nat) :
    s.machine.Evolves (s.waitFor moment).machine := by
  unfold waitFor
  split
  · split
    · exact Machine.evolves_advance s.machine
    · exact Machine.evolves_clock (Nat.le_max_left _ _)
  · exact Machine.evolves_clock (Nat.le_max_left _ _)

theorem evolves_next? (h : s.next? = some t) : s.machine.Evolves t.machine := by
  unfold next? at h
  split at h
  · rename_i hassign
    cases h
    exact evolves_assign? hassign
  · split at h
    · rename_i jobs _
      cases h
      exact evolves_resume { s with jobs } _
    · rw [Option.map_eq_some_iff] at h
      obtain ⟨moment, -, rfl⟩ := h
      exact evolves_waitFor s moment

theorem machine_giveUp (s : Compilation) : s.giveUp.machine = s.machine := by
  have hjob : ∀ (s : Compilation) (job : Job),
      (s.finish job.worker (s.givenUp job.unit)).machine = s.machine := fun _ _ => rfl
  have hunit : ∀ (s : Compilation) (unit : BuildUnit),
      ((s.move [.acquire 0, .take 0]).finish 0 (s.givenUp unit)).machine = s.machine :=
    fun _ _ => rfl
  unfold giveUp
  dsimp only
  rw [foldl_keeps hunit, foldl_keeps hjob]

theorem evolves_run (steps : Nat) (s : Compilation) : s.machine.Evolves (s.run steps).machine := by
  induction steps generalizing s with
  | zero =>
    unfold run
    rw [machine_giveUp]
    exact .refl s.machine
  | succ steps ih =>
    unfold run
    split
    · exact .refl s.machine
    · rename_i t hnext
      exact (evolves_next? hnext).trans (ih t)

end Compilation

/-- Whatever compilers and compile scripts do, compiling evolves the machine. -/
theorem evolves_compileAll (c : Compiler) (gauge : Gauge) (units : List BuildUnit) (m : Machine) :
    m.Evolves (compileAll c gauge units m).2 := by
  unfold compileAll
  split
  · exact .refl m
  · exact Compilation.evolves_run Compilation.stepLimit (Compilation.begun c gauge units m)

variable {c : Compiler} {gauge : Gauge} {units : List BuildUnit} {m : Machine} {p : Path}

/-- What a path leads to before compiling, it leads to afterwards. -/
theorem resolve_compileAll {location : Location} {node : FileNode}
    (h : m.files.resolve p = .ok (.occupied location node)) :
    ∃ other, (compileAll c gauge units m).2.files.resolve p = .ok (.occupied location other) ∧
      other.shape = node.shape :=
  (evolves_compileAll c gauge units m).files.resolve h

theorem isWellFormed_compileAll (h : m.files.root.isWellFormed = true) :
    (compileAll c gauge units m).2.files.root.isWellFormed = true :=
  (evolves_compileAll c gauge units m).files.root.legal h

end CompositionGen
