import CompositionGen.Proofs.Pool.Delivery
import CompositionGen.Proofs.Pool.Gauge
import Mathlib.Order.Bounds.Basic

/-!
# Calls one after another

The gauge of a compiler goes through all calls that are made on it, one after another. In every
state of such a run it counts the workers that run a program, never more than there are workers or
units, and between two calls it counts none. Its peak is the highest count so far, up to a count
that a worker is about to record.
-/

namespace CompositionGen

/-- Calls made one after another: none is in progress, or one is, with its pool. -/
inductive Series where
  | idle (gauge : Gauge)
  | working (pool : Pool)

namespace Series

def gauge : Series → Gauge
  | idle gauge => gauge
  | working pool => pool.gauge

/-- The workers that there are; between two calls there are none. -/
def workers : Series → List Worker
  | idle _ => []
  | working pool => pool.workers

/-- A run of calls on pools of a size: the units that each call was given and the counts that there
were, both from the last to the first, and where the run has led. -/
inductive Run (poolSize : Nat) : List (List BuildUnit) → List Nat → Series → Prop where
  | start : Run poolSize [] [0] (.idle {})
  /-- A call without units does nothing. -/
  | callEmpty {calls : List (List BuildUnit)} {counts : List Nat} {gauge : Gauge} :
    Run poolSize calls counts (.idle gauge) → Run poolSize ([] :: calls) counts (.idle gauge)
  | call {calls : List (List BuildUnit)} {counts : List Nat} {gauge : Gauge}
    {units : List BuildUnit} :
    Run poolSize calls counts (.idle gauge) → units ≠ [] →
    Run poolSize (units :: calls) counts (.working (Pool.start poolSize gauge units))
  | move {calls : List (List BuildUnit)} {counts : List Nat} {p q : Pool} :
    Run poolSize calls counts (.working p) → Pool.Step p q →
    Run poolSize calls (q.gauge.active :: counts) (.working q)
  /-- A call is over when its pool has returned the results. -/
  | leave {calls : List (List BuildUnit)} {counts : List Nat} {p : Pool} :
    Run poolSize calls counts (.working p) → p.returned = true →
    Run poolSize calls counts (.idle p.gauge)

variable {poolSize : Nat} {calls : List (List BuildUnit)} {counts : List Nat} {s : Series}

namespace Run

theorem steps {p q : Pool} (run : Run poolSize calls counts (.working p)) (h : Pool.Steps p q) :
    ∃ counts', Run poolSize calls counts' (.working q) := by
  induction h with
  | refl => exact ⟨counts, run⟩
  | step _ hs ih =>
    obtain ⟨counts', run'⟩ := ih
    exact ⟨_, run'.move hs⟩

/-- The pool of a call is on a run of its own, which began with the units of the call. -/
theorem exists_steps (run : Run poolSize calls counts s) {p : Pool} (hs : s = .working p) :
    ∃ units earlier gauge, calls = units :: earlier ∧
      Pool.Steps (Pool.start poolSize gauge units) p := by
  induction run generalizing p with
  | start => cases hs
  | callEmpty _ => cases hs
  | leave _ _ => cases hs
  | call _ _ =>
    cases hs
    exact ⟨_, _, _, rfl, .refl _⟩
  | move _ hstep ih =>
    cases hs
    obtain ⟨units, earlier, gauge, hcalls, hsteps⟩ := ih rfl
    exact ⟨units, earlier, gauge, hcalls, hsteps.step hstep⟩

/-- A pool has as many workers as its size says, and they have no more units than were given. -/
theorem exists_sound {p : Pool} (run : Run poolSize calls counts (.working p)) :
    p.workers.length = max poolSize 1 ∧ ∃ units ∈ calls, p.Sound units := by
  obtain ⟨units, earlier, gauge, rfl, hsteps⟩ := run.exists_steps rfl
  refine ⟨?_, units, List.mem_cons_self, (Pool.sound_start poolSize gauge units).steps hsteps⟩
  rw [hsteps.length_workers, Pool.start, List.length_replicate, Pool.workerCount]

/-- Wherever a run of calls has led, the gauge is right. -/
theorem shows (run : Run poolSize calls counts s) : s.gauge.Shows counts s.workers := by
  induction run with
  | start => exact ⟨rfl, List.mem_cons_self, List.mem_cons_self, nofun, fun n hn => Or.inl (by
      obtain rfl := List.mem_singleton.mp hn
      exact Nat.le_refl 0)⟩
  | callEmpty _ ih => exact ih
  | call _ _ ih =>
    refine ih.of_inactive (fun w hw => nomatch hw) fun w hw => ?_
    obtain rfl := List.eq_of_mem_replicate hw
    rfl
  | move _ hstep ih =>
    obtain ⟨move, e⟩ := Pool.step_iff.mp hstep
    exact ih.effect e
  | leave run hreturned ih =>
    obtain ⟨-, units, -, hsound⟩ := run.exists_sound
    refine ih.of_inactive (fun w hw => ?_) fun w hw => nomatch hw
    have hstopped := (hsound.returned hreturned).2 w hw
    cases w with
    | stopped => rfl
    | _ => cases hstopped

/-- A count is bounded by the workers, and by the units of some call. -/
theorem count_le (run : Run poolSize calls counts s) :
    ∀ n ∈ counts, n ≤ max poolSize 1 ∧ (n = 0 ∨ ∃ units ∈ calls, n ≤ units.length) := by
  induction run with
  | start =>
    intro n hn
    obtain rfl := List.mem_singleton.mp hn
    exact ⟨Nat.zero_le _, Or.inl rfl⟩
  | callEmpty _ ih | call _ _ ih =>
    intro n hn
    obtain ⟨hworkers, hunits⟩ := ih n hn
    refine ⟨hworkers, hunits.imp_right ?_⟩
    rintro ⟨units, hmem, hle⟩
    exact ⟨units, List.mem_cons_of_mem _ hmem, hle⟩
  | @move calls counts p q run hstep ih =>
    intro n hn
    rcases List.mem_cons.mp hn with rfl | hn
    · have hmoved := run.move hstep
      obtain ⟨hworkers, units, hmem, hsound⟩ := hmoved.exists_sound
      have hactive : q.gauge.active = q.workers.countP Worker.isActive := hmoved.shows.active
      have hmanned : q.workers.countP Worker.isActive ≤ q.workers.length := List.countP_le_length
      have hbusy := countP_isActive_le q.workers
      have hlength := hsound.length_eq
      have htotal := hsound.total
      exact ⟨by omega, Or.inr ⟨units, hmem, by omega⟩⟩
    · exact ih n hn
  | leave _ _ ih => exact ih

end Run

end Series

/-! ## Compilations -/

namespace Pool

variable {units : List BuildUnit} {p : Pool}

theorem performAll_tell (n : Nat) (ha : p.accepting = false) (drained : p.isDrained = true)
    (hle : p.told ≤ p.workers.length) :
    p.performAll (List.replicate n .tell) =
      { p with told := min p.workers.length (p.told + n) } := by
  induction n generalizing p with
  | zero =>
    show p = { p with told := min p.workers.length (p.told + 0) }
    rw [Nat.add_zero, Nat.min_eq_right hle]
  | succ n ih =>
    rw [List.replicate_succ]
    rcases Nat.lt_or_eq_of_le hle with hlt | heq
    · have hnext := ih (p := { p with told := p.told + 1 }) ha drained hlt
      rw [performAll_cons (.tell ha drained hlt), hnext]
      show { p with told := min p.workers.length (p.told + 1 + n) } = _
      rw [Nat.add_right_comm, Nat.add_assoc]
    · -- all of them have been told already
      have hnone : p.next? .tell = none := by simp [next?, heq]
      have hsame : min p.workers.length (p.told + n) =
          min p.workers.length (p.told + (n + 1)) := by
        omega
      rw [performAll, List.foldl_cons, perform_of_none hnone, ← hsame]
      exact ih ha drained hle

theorem performAll_quit (n : Nat) (hn : n ≤ p.workers.length) (ht : p.told = p.workers.length)
    (idle : ∀ w ∈ p.workers, w = .waiting) :
    p.performAll ((List.range n).map .quit) =
      { p with workers := List.replicate n .stopped ++ p.workers.drop n } := by
  induction n with
  | zero => rfl
  | succ n ih =>
    have hwaiting : p.workers[n] = .waiting := idle _ (List.getElem_mem hn)
    have hdrop : p.workers.drop n = .waiting :: p.workers.drop (n + 1) := by
      rw [List.drop_eq_getElem_cons hn, hwaiting]
    have hquit : Effect
        { p with workers := List.replicate n .stopped ++ p.workers.drop n } (.quit n)
        (Pool.setWorker { p with workers := List.replicate n .stopped ++ p.workers.drop n } n
          .stopped) := by
      refine .quit (w := .waiting) ?_ ?_
      · rw [hdrop, List.getElem?_append_right (by simp)]
        simp
      · simp only [mayQuit, decide_eq_true_eq]
        omega
    rw [List.range_succ, List.map_append, performAll, List.foldl_append]
    rw [performAll] at ih
    rw [ih (Nat.le_of_succ_le hn), List.map_singleton, List.foldl_cons, perform, hquit.next?_eq]
    show { p with workers := _ } = { p with workers := _ }
    congr 1
    rw [hdrop, List.set_append_right _ _ (by simp), List.length_replicate, Nat.sub_self,
      List.set_cons_zero, List.replicate_succ', List.append_assoc, List.singleton_append]

/-- When nothing is left to be done, the workers are sent home and the results are returned. -/
theorem Attended.returned_closing (h : Attended units [] p) (hq : p.queue = []) :
    (p.performAll (Compilation.closingMoves p.workers.length)).returned = true := by
  have hdrained : p.isDrained = true := by
    simp [isDrained, h.length_collected hq]
  have hidle : ∀ w ∈ p.workers, w = .waiting := by
    intro w hw
    obtain ⟨i, hi⟩ := List.mem_iff_getElem?.mp hw
    exact h.idle i w hi List.not_mem_nil
  have htell := performAll_tell p.workers.length h.filled hdrained h.sound.told_le
  rw [Nat.min_eq_left (Nat.le_add_left _ _)] at htell
  have hquit := performAll_quit (p := { p with told := p.workers.length }) p.workers.length
    (Nat.le_refl _) rfl hidle
  rw [List.drop_length, List.append_nil] at hquit
  unfold performAll at htell hquit ⊢
  rw [Compilation.closingMoves, List.foldl_append, List.foldl_append, htell, hquit]
  cases hr : p.returned with
  | false => simp [perform, next?, Worker.isStopped]
  | true => simp [perform, next?]

end Pool

/-- A compilation goes on until its pool has returned. -/
theorem returned_compilePool (c : Compiler) (gauge : Gauge) (units : List BuildUnit)
    (m : Machine) : (compilePool c gauge units m).pool.returned = true := by
  let done := (Compilation.begun c gauge units m).run Compilation.stepLimit
  obtain ⟨hattended, hqueue⟩ : done.pool.Attended units [] ∧ done.pool.queue = [] :=
    Compilation.attended_run Compilation.stepLimit
      (Pool.attended_start c.config.poolSize gauge units)
  have hsteps : Pool.Steps (Pool.start c.config.poolSize gauge units) done.pool :=
    Compilation.steps_run _ (Pool.steps_performAll _ _)
  have hreturned := hattended.returned_closing hqueue
  rw [hsteps.length_workers] at hreturned
  exact hreturned

namespace Series

variable {poolSize : Nat} {calls : List (List BuildUnit)} {counts : List Nat} {s : Series}

/-- Compiling is a call: it leads from a gauge at rest to the gauge that it leaves. -/
theorem Run.compileAll {c : Compiler} {calls : List (List BuildUnit)} {counts : List Nat}
    {gauge : Gauge} (run : Run c.config.poolSize calls counts (.idle gauge))
    (units : List BuildUnit) (m : Machine) :
    ∃ counts', Run c.config.poolSize (units :: calls) counts'
      (.idle (CompositionGen.compileAll c gauge units m).1.gauge) := by
  unfold CompositionGen.compileAll
  split
  · rename_i hempty
    rw [List.isEmpty_iff.mp hempty]
    exact ⟨counts, run.callEmpty⟩
  · rename_i hfull
    have hcall : Run c.config.poolSize (units :: calls) counts
        (.working (Pool.start c.config.poolSize gauge units)) :=
      run.call (by simpa using hfull)
    obtain ⟨counts', hrun⟩ := hcall.steps (steps_compilePool c gauge units m)
    exact ⟨counts', hrun.leave (returned_compilePool c gauge units m)⟩

/-- Wherever calls made one after another have led, whatever became of their jobs: the count is the
number of workers that run a program, and at most that of the workers; the peak is the highest
count so far unless a worker has one to record, and no higher than there are workers or units in a
call; whoever lowers the count finds it positive, and between two calls it is zero. Compiling is
such a call. -/
theorem Run.live_programs (run : Run poolSize calls counts s) :
    (s.gauge.active = s.workers.countP Worker.isActive ∧ s.gauge.active ≤ max poolSize 1) ∧
    (∃ most, IsGreatest {n | n ∈ counts} most ∧ s.gauge.peak ≤ most ∧
      ((∀ w ∈ s.workers, w.isCounting = false) → s.gauge.peak = most)) ∧
    s.gauge.peak ≤ max poolSize 1 ∧
    (∀ most, (∀ units ∈ calls, units.length ≤ most) → s.gauge.peak ≤ most) ∧
    (∀ p q i unit outcome, s = .working p → p.workers[i]? = some (.compiling unit) →
      p.next? (.finish i outcome) = some q → q.gauge.active + 1 = p.gauge.active) ∧
    (∀ gauge, s = .idle gauge → gauge.active = 0) ∧
    (∀ (c : Compiler) (gauge : Gauge) (units : List BuildUnit) (m : Machine),
      c.config.poolSize = poolSize → s = .idle gauge →
      ∃ counts', Run poolSize (units :: calls) counts'
        (.idle (CompositionGen.compileAll c gauge units m).1.gauge)) := by
  have hshows := run.shows
  refine ⟨⟨hshows.active, (run.count_le _ hshows.current).1⟩, hshows.isGreatest,
    (run.count_le _ hshows.peak).1, ?_, ?_, ?_, ?_⟩
  · intro most hmost
    rcases (run.count_le _ hshows.peak).2 with hzero | ⟨units, hmem, hle⟩
    · omega
    · exact Nat.le_trans hle (hmost units hmem)
  -- A worker that compiles is counted, so the count is positive where it is lowered.
  · rintro p q i unit outcome rfl hi hnext
    have hpos : 0 < p.gauge.active := hshows.active_pos hi
    obtain rfl : _ = q := by simpa [Pool.next?, hi] using hnext
    show p.gauge.active - 1 + 1 = p.gauge.active
    omega
  · rintro gauge rfl
    exact hshows.active
  · rintro c gauge units m rfl rfl
    exact run.compileAll units m

/-! A call whose one job fails before its program is started, and a second call in which two
programs run, of which one has been counted and not recorded yet. -/

def firstMoves : List Pool.Move := [
  .submit, .close, .acquire 0, .take 0, .finish 0 (.error (.panicked "no command")), .deliver 0,
  .collect, .tell, .tell, .quit 0, .quit 1, .conclude]

def secondMoves : List Pool.Move := [
  .submit, .submit, .close, .acquire 0, .take 0, .enter 0, .record 0, .acquire 1, .take 1,
  .enter 1]

theorem live_programs_twoCalls : ∃ counts s,
    Run 2 [[Pool.sampleUnit, Pool.sampleUnit], [Pool.sampleUnit]] counts s ∧
      s.gauge = ⟨2, 1⟩ ∧ s.gauge.active ≤ max 2 1 := by
  have hfirst : ((Pool.start 2 {} [Pool.sampleUnit]).performAll firstMoves).returned = true := by
    decide +kernel
  have hstart : Run 2 [] [0] (.idle {}) := .start
  obtain ⟨counts, run⟩ := (hstart.call (List.cons_ne_nil Pool.sampleUnit [])).steps
    (Pool.steps_performAll _ firstMoves)
  obtain ⟨counts', run'⟩ := ((run.leave hfirst).call
    (List.cons_ne_nil Pool.sampleUnit [Pool.sampleUnit])).steps
    (Pool.steps_performAll _ secondMoves)
  exact ⟨counts', _, run', by decide +kernel, run'.live_programs.1.2⟩

end Series

end CompositionGen
