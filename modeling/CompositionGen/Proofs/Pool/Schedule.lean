import CompositionGen.Compile
import CompositionGen.Proofs.Pool.Completion
import Mathlib.Data.List.Perm.Subperm

/-!
# The schedule of a compilation

A compilation changes its pool by moves only, so that the pool that it returns is at the end of a
run. Whatever holds along every run holds of it.
-/

namespace CompositionGen

namespace Compilation

open Pool (Steps)

variable {p : Pool} {s t : Compilation}

theorem steps_move (h : Steps p s.pool) (moves : List Pool.Move) : Steps p (s.move moves).pool :=
  h.trans (Pool.steps_performAll s.pool moves)

theorem steps_finish (h : Steps p s.pool) (worker : Nat) (run : JobRun) :
    Steps p (s.finish worker run).pool :=
  h.trans (Pool.steps_performAll s.pool _)

theorem steps_takeOn (job : Job) (activity : Activity JobRun) (h : Steps p s.pool) :
    Steps p (takeOn job activity s).pool := by
  induction activity generalizing s with
  | done run => exact steps_finish h job.worker run
  | look next ih => exact ih s.machine.files h
  | createDirectories path next ih =>
    rw [takeOn]
    exact ih _ h
  | copy source target next ih =>
    rw [takeOn]
    exact ih _ h
  | pause span next ih => exact h
  | watch command directory next ih =>
    have hm := steps_move h [.enter job.worker, .record job.worker]
    simp only [takeOn]
    split
    · exact ih _ hm
    · exact hm

theorem steps_assign? (h : Steps p s.pool) (ha : s.assign? = some t) : Steps p t.pool := by
  unfold assign? at ha
  split at ha
  · rw [← Option.some.inj ha]
    exact steps_takeOn _ _ (steps_move h _)
  · cases ha

theorem steps_resume (job : Job) (h : Steps p s.pool) : Steps p (s.resume job).pool := by
  unfold resume
  split
  · exact steps_takeOn job _ h
  · exact steps_takeOn job _ h

theorem steps_waitFor (moment : Nat) (h : Steps p s.pool) : Steps p (s.waitFor moment).pool := by
  unfold waitFor
  split
  · split
    · exact h
    · exact h
  · exact h

theorem steps_next? (h : Steps p s.pool) (hn : s.next? = some t) : Steps p t.pool := by
  unfold next? at hn
  split at hn
  · rename_i ha
    cases hn
    exact steps_assign? h ha
  · split at hn
    · cases hn
      exact steps_resume _ h
    · rw [Option.map_eq_some_iff] at hn
      obtain ⟨moment, -, rfl⟩ := hn
      exact steps_waitFor moment h

theorem steps_foldl {α : Type} {f : Compilation → α → Compilation}
    (hf : ∀ s a, Steps p s.pool → Steps p (f s a).pool) (as : List α) (h : Steps p s.pool) :
    Steps p (as.foldl f s).pool := by
  induction as generalizing s with
  | nil => exact h
  | cons a as ih => exact ih (hf s a h)

theorem steps_giveUp (h : Steps p s.pool) : Steps p s.giveUp.pool := by
  unfold giveUp
  refine steps_foldl ?_ _ (steps_foldl ?_ _ h)
  · intro t unit ht
    exact steps_finish (steps_move ht _) _ _
  · intro t job ht
    exact steps_finish ht _ _

theorem steps_run (steps : Nat) (h : Steps p s.pool) : Steps p (run steps s).pool := by
  induction steps generalizing s with
  | zero => exact steps_giveUp h
  | succ steps ih =>
    rw [run]
    split
    · exact h
    · exact ih (steps_next? h ‹_›)

/-! ## The bound -/

/-- Nothing is left to be done before so many steps are made. -/
def EndsBefore : (steps : Nat) → Compilation → Prop
  | 0, _ => False
  | steps + 1, s => ∀ t, s.next? = some t → EndsBefore steps t

/-- A compilation that ends by itself does not depend on the bound. -/
theorem run_eq_of_endsBefore {steps more : Nat} (h : s.EndsBefore steps) (hle : steps ≤ more) :
    run more s = run steps s := by
  induction steps generalizing more s with
  | zero => cases h
  | succ steps ih =>
    obtain ⟨more, rfl⟩ := Nat.exists_eq_add_of_le hle
    rw [Nat.succ_add_eq_add_succ, Nat.add_succ, run, run]
    split
    · rfl
    · next t hnext => exact ih (h t hnext) (Nat.le_add_right _ _)

end Compilation

/-- What a compilation returns is a pool at the end of a run. -/
theorem steps_compilePool (c : Compiler) (gauge : Gauge) (units : List BuildUnit) (m : Machine) :
    Pool.Steps (Pool.start c.config.poolSize gauge units) (compilePool c gauge units m).pool := by
  refine Compilation.steps_move ?_ _
  refine Compilation.steps_run _ ?_
  exact Pool.steps_performAll _ _

/-- No unit has more results than it was given times. -/
theorem subperm_compileAll (c : Compiler) (gauge : Gauge) (units : List BuildUnit) (m : Machine) :
    ((compileAll c gauge units m).1.results.map CompileResult.unit).Subperm units := by
  unfold compileAll
  split
  · exact List.nil_subperm
  · have h := (Pool.sound_start _ gauge units).steps (steps_compilePool c gauge units m)
    refine List.Subperm.trans (List.Sublist.subperm ?_) h.perm.subperm
    exact (List.sublist_append_right _ _).trans (List.sublist_append_left _ _)

end CompositionGen
