import CompositionGen.Proofs.Compile.Stages
import CompositionGen.Proofs.Pool.Delivery

/-!
# Results of a pool

Each job of a compilation is somewhere on its way through its stages, whatever the other jobs do in
between, and the worker that it is given back by still has the job's unit in hand. So the result of
a unit is what its own job comes to, with an artifact of the unit's own name.
-/

namespace CompositionGen

namespace Pool

/-- The unit that a worker has in hand. -/
def unitAt? (p : Pool) (i : Nat) : Option BuildUnit := p.workers[i]?.bind Worker.unit?

variable {units : List BuildUnit} {busy : List Nat} {p q : Pool} {i j : Nat}

theorem unitAt?_setWorker_self {w w' : Worker} (hw : p.workers[i]? = some w) :
    (p.setWorker i w').unitAt? i = w'.unit? := by
  have hlt : i < p.workers.length := (List.getElem?_eq_some_iff.mp hw).1
  rw [unitAt?, setWorker, List.getElem?_set_self hlt, Option.bind_some]

theorem unitAt?_setWorker_ne (w : Worker) (h : j ≠ i) :
    (p.setWorker i w).unitAt? j = p.unitAt? j := by
  rw [unitAt?, setWorker, List.getElem?_set_ne (Ne.symm h), unitAt?]

/-- A worker keeps its unit when its program is counted. -/
theorem Effect.unitAt?_launch {move : Move} (e : Effect p move q)
    (h : move = .enter i ∨ move = .record i) :
    q.collected = p.collected ∧ ∀ j, q.unitAt? j = p.unitAt? j := by
  have hset {pool : Pool} {w w' : Worker} (hworkers : pool.workers = p.workers)
      (hw : p.workers[i]? = some w) (hsame : w'.unit? = w.unit?) (j : Nat) :
      (pool.setWorker i w').unitAt? j = p.unitAt? j := by
    rw [← hworkers] at hw
    by_cases hj : j = i
    · subst hj
      rw [unitAt?_setWorker_self hw, unitAt?, ← hworkers, hw]
      exact hsame
    · rw [unitAt?_setWorker_ne w' hj, unitAt?, hworkers, unitAt?]
  rcases h with rfl | rfl
  · cases e with
    | enter hw => exact ⟨rfl, hset rfl hw rfl⟩
  · cases e with
    | record hw => exact ⟨rfl, hset rfl hw rfl⟩

theorem unitAt?_perform_launch {move : Move} (h : move = .enter i ∨ move = .record i) :
    (p.perform move).collected = p.collected ∧ ∀ j, (p.perform move).unitAt? j = p.unitAt? j := by
  rw [perform]
  cases hnext : p.next? move with
  | none => exact ⟨rfl, fun _ => rfl⟩
  | some q => exact (Effect.of_next? hnext).unitAt?_launch h

theorem unitAt?_launch (p : Pool) (i : Nat) :
    (p.performAll [.enter i, .record i]).collected = p.collected ∧
      ∀ j, (p.performAll [.enter i, .record i]).unitAt? j = p.unitAt? j := by
  obtain ⟨hcollected, hunit⟩ := p.unitAt?_perform_launch (i := i) (.inl rfl)
  obtain ⟨hcollected', hunit'⟩ := (p.perform (.enter i)).unitAt?_perform_launch (i := i) (.inr rfl)
  exact ⟨hcollected'.trans hcollected, fun j => (hunit' j).trans (hunit j)⟩

namespace Attended

theorem unitAt?_assign (h : Attended units busy p) {unit : BuildUnit} {rest : List BuildUnit}
    (hq : p.queue = unit :: rest) (hi : p.workers[i]? = some .waiting) :
    (p.performAll [.acquire i, .take i]).collected = p.collected ∧
      (p.performAll [.acquire i, .take i]).unitAt? i = some unit ∧
      ∀ j, j ≠ i → (p.performAll [.acquire i, .take i]).unitAt? j = p.unitAt? j := by
  rw [h.performAll_assign hq hi]
  exact ⟨rfl, unitAt?_setWorker_self (p := { p with queue := rest }) hi,
    fun j hj => unitAt?_setWorker_ne (p := { p with queue := rest }) _ hj⟩

theorem unitAt?_finish (h : Attended units (i :: busy) p) {unit : BuildUnit}
    (hunit : p.unitAt? i = some unit) (outcome : Except CompileError Path) :
    (p.performAll [.finish i outcome, .deliver i, .collect]).collected =
        p.collected ++ [⟨unit, outcome⟩] ∧
      ∀ j, j ≠ i →
        (p.performAll [.finish i outcome, .deliver i, .collect]).unitAt? j = p.unitAt? j := by
  obtain ⟨unit', gauge, hunit', heq⟩ := h.performAll_finish outcome
  obtain rfl : unit' = unit := Option.some.inj (hunit'.symm.trans hunit)
  rw [heq]
  exact ⟨rfl, fun j hj => unitAt?_setWorker_ne
    (p := { p with collected := p.collected ++ [⟨unit', outcome⟩], gauge }) _ hj⟩

end Attended

end Pool

/-! ## Jobs on their way -/

/-- How a job goes on after what it waits for. -/
def Waiting.goesOn : Waiting → Except FileError Child → Activity JobRun
  | time _ next => fun _ => next
  | program _ next => next

section

variable (c : Compiler) (dir : Path) (late : Prop)

/-- The artifact of a unit. -/
def artifactOf (unit : BuildUnit) : Path := dir.join (.ofText unit.artifactFile)

/-- An activity is what is left of the job of a unit. -/
def IsRest (unit : BuildUnit) (activity : Activity JobRun) : Prop :=
  ∃ es, (compileUnit c unit (artifactOf dir unit)).Steps es activity

/-- A result is what the job of its unit comes to, or the job was given up since it was too late. -/
inductive Answers (r : CompileResult) : Prop
  | done {es : List Exchange} {run : JobRun} :
    (compileUnit c r.unit (artifactOf dir r.unit)).Course es run → r.outcome = run.outcome →
    Answers r
  | givenUp : late → r.outcome = .error (.timeout c.config.timeout) → Answers r

/-- Every job that waits is on its way, and its worker has its unit in hand; all results are
answers. -/
structure Compilation.Tracks (s : Compilation) : Prop where
  compiler : s.compiler = c
  pluginDir : s.pluginDir = dir
  jobs : ∀ job ∈ s.jobs, s.pool.unitAt? job.worker = some job.unit ∧
    ∀ child, IsRest c dir job.unit (job.waiting.goesOn child)
  collected : ∀ r ∈ s.pool.collected, Answers c dir late r

end

theorem IsRest.next {c : Compiler} {dir : Path} {unit : BuildUnit} {a b : Activity JobRun}
    {e : Exchange} (h : IsRest c dir unit a) (hstep : a.Step e b) : IsRest c dir unit b := by
  obtain ⟨es, hes⟩ := h
  exact ⟨es ++ [e], hes.append (.single hstep)⟩

namespace Compilation

open Pool (Attended)

variable {c : Compiler} {dir : Path} {late : Prop} {units : List BuildUnit} {s t : Compilation}

theorem Tracks.withMachine (h : s.Tracks c dir late) (machine : Machine) :
    { s with machine }.Tracks c dir late :=
  ⟨h.compiler, h.pluginDir, h.jobs, h.collected⟩

theorem Tracks.postpone {job : Job} (h : s.Tracks c dir late)
    (hunit : s.pool.unitAt? job.worker = some job.unit) {waiting : Waiting}
    (hrest : ∀ child, IsRest c dir job.unit (waiting.goesOn child)) :
    (s.postpone job waiting).Tracks c dir late where
  compiler := h.compiler
  pluginDir := h.pluginDir
  jobs other hother := by
    rcases List.mem_append.mp hother with hother | hother
    · exact h.jobs other hother
    · rw [List.mem_singleton.mp hother]
      exact ⟨hunit, hrest⟩
  collected := h.collected

/-- The job of a worker is done, and the other jobs go on. -/
theorem Tracks.finish {busy : List Nat} {worker : Nat} {unit : BuildUnit} {run : JobRun}
    (h : s.Tracks c dir late) (ha : s.pool.Attended units (worker :: busy))
    (hbusy : ∀ job ∈ s.jobs, job.worker ∈ busy) (hunit : s.pool.unitAt? worker = some unit)
    (hanswers : Answers c dir late ⟨unit, run.outcome⟩) :
    (s.finish worker run).Tracks c dir late := by
  obtain ⟨hcollected, hothers⟩ := ha.unitAt?_finish hunit run.outcome
  refine ⟨h.compiler, h.pluginDir, fun job hjob => ?_, fun r hr => ?_⟩
  · -- Nobody has two jobs, so the other jobs are those of other workers.
    have hne : job.worker ≠ worker := fun heq =>
      (List.nodup_cons.mp ha.distinct).1 (heq ▸ hbusy job hjob)
    obtain ⟨hkept, hrest⟩ := h.jobs job hjob
    exact ⟨(hothers job.worker hne).trans hkept, hrest⟩
  · change r ∈ (s.pool.performAll _).collected at hr
    rw [hcollected] at hr
    rcases List.mem_append.mp hr with hr | hr
    · exact h.collected r hr
    · rw [List.mem_singleton.mp hr]
      exact hanswers

theorem tracks_takeOn (job : Job) (activity : Activity JobRun) (h : s.Tracks c dir late)
    (ha : s.pool.Attended units (job.worker :: s.busy))
    (hunit : s.pool.unitAt? job.worker = some job.unit)
    (hrest : IsRest c dir job.unit activity) : (takeOn job activity s).Tracks c dir late := by
  -- Whatever is answered at once is one more exchange; the job then waits or is done.
  induction activity generalizing s with
  | done run =>
    obtain ⟨es, hes⟩ := hrest
    exact h.finish ha (fun _ => List.mem_map_of_mem) hunit (.done hes rfl)
  | look next ih => exact ih _ h ha hunit (hrest.next (.look next _))
  | createDirectories path next ih =>
    rw [takeOn]
    exact ih _ (h.withMachine _) ha hunit (hrest.next (.createDirectories path next _))
  | copy source target next ih =>
    rw [takeOn]
    exact ih _ (h.withMachine _) ha hunit (hrest.next (.copy source target next _))
  | pause span next ih =>
    exact h.postpone hunit fun _ => hrest.next (.pause span next)
  | watch command directory next ih =>
    have hlaunched := ha.launch List.mem_cons_self
    obtain ⟨hcollected, hkept⟩ := s.pool.unitAt?_launch job.worker
    have hcounted : (s.move [.enter job.worker, .record job.worker]).Tracks c dir late := by
      refine ⟨h.compiler, h.pluginDir, fun other hother => ?_, fun r hr => ?_⟩
      · obtain ⟨hother', hrest'⟩ := h.jobs other hother
        exact ⟨(hkept other.worker).trans hother', hrest'⟩
      · exact h.collected r (hcollected ▸ hr)
    have hunit' := (hkept job.worker).trans hunit
    simp only [takeOn]
    split
    · exact ih _ hcounted hlaunched hunit' (hrest.next (.watch command directory next _))
    · exact (hcounted.withMachine _).postpone hunit' fun child =>
        hrest.next (.watch command directory next child)

theorem tracks_assign? (h : s.Tracks c dir late) (ha : s.pool.Attended units s.busy)
    (hassign : s.assign? = some t) : t.Tracks c dir late := by
  unfold assign? at hassign
  split at hassign
  · rename_i unit rest worker hq hw
    have hidle := getElem?_of_findIdx?_isIdle hw
    obtain ⟨hcollected, hunit, hothers⟩ := ha.unitAt?_assign hq hidle
    rw [← Option.some.inj hassign, h.compiler, h.pluginDir]
    refine tracks_takeOn _ _ ⟨h.compiler, h.pluginDir, fun job hjob => ?_, fun r hr => ?_⟩
      (ha.assign hq hidle) hunit ⟨[], .refl _⟩
    · obtain ⟨hunit', hrest⟩ := h.jobs job hjob
      have hne : job.worker ≠ worker := fun heq =>
        ha.not_mem_of_waiting hidle (heq ▸ List.mem_map_of_mem hjob)
      exact ⟨(hothers job.worker hne).trans hunit', hrest⟩
    · exact h.collected r (hcollected ▸ hr)
  · cases hassign

theorem tracks_resume {job : Job} (h : s.Tracks c dir late)
    (ha : s.pool.Attended units (job.worker :: s.busy))
    (hunit : s.pool.unitAt? job.worker = some job.unit)
    (hrest : ∀ child, IsRest c dir job.unit (job.waiting.goesOn child)) :
    (s.resume job).Tracks c dir late := by
  unfold resume
  split
  · next heq =>
    rw [heq] at hrest
    exact tracks_takeOn job _ h ha hunit (hrest default)
  · next heq =>
    rw [heq] at hrest
    exact tracks_takeOn job _ (h.withMachine _) ha hunit (hrest _)

theorem tracks_next? (h : s.Tracks c dir late) (ha : s.pool.Attended units s.busy)
    (hn : s.next? = some t) : t.Tracks c dir late := by
  unfold next? at hn
  split at hn
  · next hassign =>
    cases hn
    exact tracks_assign? h ha hassign
  · split at hn
    · next job others hdue =>
      cases hn
      have hperm := perm_of_due? hdue
      obtain ⟨hunit, hrest⟩ := h.jobs job (hperm.mem_iff.mpr List.mem_cons_self)
      refine tracks_resume ⟨h.compiler, h.pluginDir, fun other hother => ?_, h.collected⟩
        (ha.perm (hperm.map Job.worker)) hunit hrest
      exact h.jobs other (hperm.mem_iff.mpr (List.mem_cons_of_mem _ hother))
    · obtain ⟨moment, -, rfl⟩ := Option.map_eq_some_iff.mp hn
      obtain ⟨machine, heq⟩ := waitFor_eq s moment
      rw [heq]
      exact h.withMachine machine

/-! ## Giving up -/

theorem Tracks.answers_givenUp (h : s.Tracks c dir late) (hlate : late) (unit unit' : BuildUnit) :
    Answers c dir late ⟨unit', (s.givenUp unit).outcome⟩ := by
  refine .givenUp hlate ?_
  rw [← h.compiler]
  rfl

/-- The jobs that are given up are those of workers who have a unit in hand. -/
theorem tracks_stop (jobs : List Job) (h : s.Tracks c dir late) (hlate : late) (hnone : s.jobs = [])
    (ha : s.pool.Attended units (jobs.map Job.worker))
    (hunits : ∀ job ∈ jobs, s.pool.unitAt? job.worker = some job.unit) :
    let stopped := jobs.foldl (fun s job => s.finish job.worker (s.givenUp job.unit)) s
    stopped.Tracks c dir late ∧ stopped.jobs = [] := by
  induction jobs generalizing s with
  | nil => exact ⟨h, hnone⟩
  | cons job rest ih =>
    obtain ⟨hunit, hothers⟩ := List.forall_mem_cons.mp hunits
    have hfinished : (s.finish job.worker (s.givenUp job.unit)).Tracks c dir late :=
      h.finish ha (by simp [hnone]) hunit (h.answers_givenUp hlate job.unit job.unit)
    refine ih hfinished hnone (ha.finish _) fun other hother => ?_
    have hne : other.worker ≠ job.worker := fun heq =>
      (List.nodup_cons.mp ha.distinct).1 (heq ▸ List.mem_map_of_mem hother)
    exact ((ha.unitAt?_finish hunit _).2 other.worker hne).trans (hothers other hother)

/-- Every unit that is left is given up by the first worker, who takes it first. -/
theorem tracks_clear (queue : List BuildUnit) (h : s.Tracks c dir late) (hlate : late)
    (hnone : s.jobs = [])
    (ha : s.pool.Attended units []) (hq : s.pool.queue = queue) :
    (queue.foldl (fun s unit => (s.move [.acquire 0, .take 0]).finish 0 (s.givenUp unit))
      s).Tracks c dir late := by
  induction queue generalizing s with
  | nil => exact h
  | cons unit rest ih =>
    have hidle := ha.first_waiting
    have hassigned := ha.assign hq hidle
    obtain ⟨hcollected, hunit, -⟩ := ha.unitAt?_assign hq hidle
    have htaken : (s.move [.acquire 0, .take 0]).Tracks c dir late :=
      ⟨h.compiler, h.pluginDir, by simp [move, hnone], fun r hr => h.collected r (hcollected ▸ hr)⟩
    refine ih (htaken.finish hassigned (by simp [move, hnone]) hunit
      (h.answers_givenUp hlate unit unit)) hnone (hassigned.finish _) ?_
    refine (hassigned.queue_finish _).trans ?_
    rw [ha.performAll_assign hq hidle]
    rfl

theorem tracks_giveUp (h : s.Tracks c dir late) (hlate : late) (ha : s.pool.Attended units s.busy) :
    s.giveUp.Tracks c dir late := by
  have hjobless : { s with jobs := [] }.Tracks c dir late :=
    ⟨h.compiler, h.pluginDir, nofun, h.collected⟩
  obtain ⟨hstopped, hnone⟩ := tracks_stop s.jobs hjobless hlate rfl ha
    fun job hjob => (h.jobs job hjob).1
  exact tracks_clear _ hstopped hlate hnone (attended_stop s.jobs ha) rfl

theorem tracks_run (steps : Nat) (h : s.Tracks c dir late) (ha : s.pool.Attended units s.busy)
    (hlate : ¬s.EndsBefore steps → late) : (run steps s).Tracks c dir late := by
  -- The bound is reached only by a compilation that is not over after all of the steps.
  induction steps generalizing s with
  | zero => exact tracks_giveUp h (hlate id) ha
  | succ steps ih =>
    rw [run]
    split
    · exact h
    · next t hnext =>
      refine ih (tracks_next? h ha hnext) (attended_next? ha hnext) fun hmore => ?_
      exact hlate fun hends => hmore (hends t hnext)

end Compilation

/-- Every result of a pool is what the job of its unit comes to, unless the bound was reached. -/
theorem answers_of_mem_results {c : Compiler} {gauge : Gauge} {units : List BuildUnit} {m : Machine}
    {r : CompileResult} (hr : r ∈ (compileAll c gauge units m).1.results) :
    Answers c (m.files.absolute c.config.pluginDir)
      (¬(Compilation.begun c gauge units m).EndsBefore Compilation.stepLimit) r := by
  unfold compileAll at hr
  split at hr
  · cases hr
  let opened := Compilation.begun c gauge units m
  let done := opened.run Compilation.stepLimit
  have hattended : opened.pool.Attended units opened.busy :=
    Pool.attended_start c.config.poolSize gauge units
  have hopened : opened.Tracks c (m.files.absolute c.config.pluginDir)
      (¬opened.EndsBefore Compilation.stepLimit) := by
    refine ⟨rfl, rfl, nofun, fun r hr => ?_⟩
    change r ∈ (Pool.performAll _ _).collected at hr
    rw [Pool.performAll_openingMoves] at hr
    cases hr
  have hdone : done.Tracks c (m.files.absolute c.config.pluginDir)
      (¬opened.EndsBefore Compilation.stepLimit) :=
    Compilation.tracks_run Compilation.stepLimit hopened hattended id
  -- The moves that send the workers home collect nothing more.
  have hcollected : done.pool.collected = (compilePool c gauge units m).pool.collected := by
    have hsteps := Pool.steps_performAll done.pool (Compilation.closingMoves
      (Pool.start c.config.poolSize gauge units).workers.length)
    have hsound := (Pool.sound_start _ gauge units).steps (steps_compilePool c gauge units m)
    obtain ⟨hlast, hqueue⟩ := Compilation.attended_run Compilation.stepLimit hattended
    refine hsteps.collected_stays.eq_of_length_le ?_
    have hall : done.pool.collected.length = done.pool.total := hlast.length_collected hqueue
    have htotal : done.pool.total = (compilePool c gauge units m).pool.total :=
      hlast.sound.total.trans hsound.total.symm
    have hlength := hsound.length_eq
    show (compilePool c gauge units m).pool.collected.length ≤ done.pool.collected.length
    omega
  exact hdone.collected r (hcollected ▸ hr)

theorem Answers.cases_outcome {c : Compiler} {dir : Path} {late : Prop} {r : CompileResult}
    (h : Answers c dir late r) :
    (∃ es, ComesTo c r.unit (artifactOf dir r.unit) es r.outcome) ∨
      (∃ es panic, Prepares c r.unit (artifactOf dir r.unit) es (.error panic) ∧
        r.outcome = .error (.panicked panic.message)) ∨
      late ∧ r.outcome = .error (.timeout c.config.timeout) := by
  cases h with
  | givenUp hlate houtcome => exact .inr (.inr ⟨hlate, houtcome⟩)
  | @done es run hcourse houtcome =>
    obtain ⟨stages, hstages, rfl⟩ := course_compileUnit_iff.mp hcourse
    cases stages with
    | error panic =>
      exact .inr (.inl ⟨es, panic, course_error_iff_prepares.mp hstages, houtcome⟩)
    | ok run =>
      refine .inl ⟨es, ?_⟩
      rw [houtcome]
      exact exists_course_iff_comesTo.mp ⟨run.report, hstages⟩

/-- A program is watched until it is over or the time of its job is up. -/
theorem Compilation.isOver_or_late {m : Machine} {jobs others : List Job} {job : Job}
    {started : Machine.Started} {next : Except FileError Child → Activity JobRun}
    (h : due? m jobs = some (job, others)) (hwaiting : job.waiting = .program started next) :
    m.isOver started = true ∨ job.deadline ≤ m.clock := by
  have hdue : isDue m job = true := by
    induction jobs generalizing job others with
    | nil => cases h
    | cons first rest ih =>
      rw [due?] at h
      split at h
      · next hfirst =>
        cases h
        exact hfirst
      · obtain ⟨⟨other, left⟩, hrest, heq⟩ := Option.map_eq_some_iff.mp h
        cases heq
        exact ih hrest hwaiting
  rw [isDue, hwaiting, Bool.or_eq_true, decide_eq_true_eq, Job.latest, hwaiting] at hdue
  exact hdue.symm

/-- A job comes to what its first failing stage says, whatever its host answers: making the
directory, starting the program, the program being over in time with all of its output read, the
waiting, the status, and then the poll. What speaks of the artifact comes from the poll alone, after
a success, and a path that is returned is that of the artifact. A program is started at most once;
nothing is asked for twice before the poll. Every result of a pool is what the job of its unit comes
to, as long as the compilation ends before the bound on its steps is reached. -/
theorem jobs_first_failure (c : Compiler) :
    (∀ unit artifact es outcome,
      (∃ report, (runStages c unit artifact).Course es (.ok ⟨outcome, report⟩)) ↔
        ComesTo c unit artifact es outcome) ∧
    (∀ unit artifact es panic, (runStages c unit artifact).Course es (.error panic) ↔
      Prepares c unit artifact es (.error panic)) ∧
    (∀ unit artifact (σ : Type) (host : Host σ) (s : σ), ∃ es,
      (runStages c unit artifact).Course es ((runStages c unit artifact).carryOut host s).1) ∧
    (∀ unit artifact es outcome, ComesTo c unit artifact es outcome →
      (∀ outcome', ComesTo c unit artifact es outcome' → outcome' = outcome) ∧
      (ConcernsArtifact artifact outcome → ∃ before command child poll,
        es = before ++ .watched command unit.sourcePath (.ok child) :: poll ∧
        ¬child.Unfinished ∧ child.exit = some (.ok (.code 0)) ∧
        (awaitArtifact c.config artifact (child.stdout.read.announced? c.toolchain.interpret)
          c.config.pollAttempts).Course poll outcome) ∧
      (∃ once poll, es = once ++ poll ∧ (once.map Exchange.kind).Nodup ∧
        (poll ≠ [] → ∃ announced, (awaitArtifact c.config artifact announced
          c.config.pollAttempts).Course poll outcome)) ∧
      (es.map Exchange.kind).count .watch ≤ 1 ∧
      ∀ path, outcome = .ok path → path = artifact) ∧
    (∀ m jobs job others started next, Compilation.due? m jobs = some (job, others) →
      job.waiting = .program started next → m.isOver started = true ∨ job.deadline ≤ m.clock) ∧
    ∀ gauge units m, ∀ r ∈ (compileAll c gauge units m).1.results,
      let artifact := (m.files.absolute c.config.pluginDir).join (.ofText r.unit.artifactFile)
      ((∃ es, ComesTo c r.unit artifact es r.outcome) ∨
        (∃ es panic, Prepares c r.unit artifact es (.error panic) ∧
          r.outcome = .error (.panicked panic.message)) ∨
        ¬(Compilation.begun c gauge units m).EndsBefore Compilation.stepLimit ∧
          r.outcome = .error (.timeout c.config.timeout)) ∧
      ∀ path, r.outcome = .ok path → path = artifact := by
  refine ⟨fun _ _ _ _ => exists_course_iff_comesTo, fun _ _ _ _ => course_error_iff_prepares,
    fun unit artifact _ host s => (runStages c unit artifact).exists_course_carryOut host s,
    fun unit artifact es outcome h => ?_, fun _ _ _ _ _ _ => Compilation.isOver_or_late,
    fun gauge units m r hr => ?_⟩
  · refine ⟨fun outcome' h' => h'.unique h, h.exists_success, h.exists_once_poll,
      h.count_watch_le_one, ?_⟩
    rintro path rfl
    exact h.eq_artifact
  -- A result of the bound names no artifact, so the last part does not depend on it.
  · have hcases := (answers_of_mem_results hr).cases_outcome
    refine ⟨hcases, fun path hpath => ?_⟩
    rw [hpath] at hcases
    rcases hcases with ⟨es, h⟩ | ⟨es, panic, -, h⟩ | ⟨-, h⟩
    · exact h.eq_artifact
    · cases h
    · cases h

/-- A compiler that has announced a library and then failed. -/
def failedCompiler : Child where
  stdout := {
    bytes := Utf8.encode ("\x7b\"reason\":\"compiler-artifact\"," ++
      "\"target\":\x7b\"crate_types\":[\"cdylib\"]\x7d," ++
      "\"filenames\":[\"/target/libdemo.so\"]\x7d\n")
    closed := true }
  stderr := { closed := true }
  exit := some (.ok (.code 1))

theorem jobs_first_failure_failedCompiler :
    let c : Compiler := ⟨{}, .cargo "cargo" ⟨"/target"⟩ false⟩
    let unit : BuildUnit := ⟨⟨"/src/demo"⟩, "demo"⟩
    let files := filesNamed ["demo.so"]
    let command := Toolchain.cargoCommand "cargo" ⟨"/target"⟩ false files unit
    failedCompiler.stdout.read.announced? c.toolchain.interpret = some ⟨"/target/libdemo.so"⟩ ∧
      files.hasFile ⟨"/demo.so"⟩ = true ∧
      ∃ report, (runStages c unit ⟨"/demo.so"⟩).Course
        [.createdDirectories ⟨"/"⟩ (.ok ()), .looked files,
          .watched command unit.sourcePath (.ok failedCompiler)]
        (.ok ⟨.error (.failed (.code 1)), report⟩) := by
  intro c unit files command
  have hparent : Path.parent? ⟨"/demo.so"⟩ = some ⟨"/"⟩ := by decide +kernel
  have hprepares : Prepares c unit ⟨"/demo.so"⟩
      ([.createdDirectories ⟨"/"⟩ (.ok ())] ++ [.looked files]) (.ok command) :=
    .intro (.inDirectory hparent) rfl
  have hover : ¬failedCompiler.Unfinished := by
    rintro (h | h | h)
    · cases h
    · exact absurd h (by decide +kernel)
    · exact absurd h (by decide +kernel)
  refine ⟨by decide +kernel, by decide +kernel, ?_⟩
  exact ((jobs_first_failure c).1 unit ⟨"/demo.so"⟩ _ _).mpr
    (.started hprepares (.failed hover rfl (by decide)))

end CompositionGen
