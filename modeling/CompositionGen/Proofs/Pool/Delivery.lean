import CompositionGen.Proofs.Pool.Schedule

/-!
# Every unit is answered

A compilation keeps a job for each worker that has a unit, and ends only when there are no jobs and
no units left. What is given up has a result as well. So whatever happens on the machine, and
however long it takes, there is exactly one result for each unit.
-/

namespace CompositionGen

/-- Whether a worker's job can be done: it has a unit and no count to record. -/
def Worker.hasJob : Worker → Bool
  | preparing _ => true
  | compiling _ => true
  | _ => false

namespace Pool

/-- What holds of a pool after its queue was filled, while some workers are at their jobs and the
others wait for one. Results are collected as soon as they are handed over. -/
structure Attended (units : List BuildUnit) (busy : List Nat) (p : Pool) : Prop where
  sound : Sound units p
  filled : p.accepting = false
  emptied : p.channel = []
  distinct : busy.Nodup
  working : ∀ i ∈ busy, ∃ w, p.workers[i]? = some w ∧ w.hasJob = true
  idle : ∀ i w, p.workers[i]? = some w → i ∉ busy → w = .waiting

variable {units : List BuildUnit} {busy : List Nat} {p q : Pool} {i : Nat}

theorem performAll_cons {move : Move} {moves : List Move} (e : Effect p move q) :
    p.performAll (move :: moves) = q.performAll moves := by
  rw [performAll, List.foldl_cons, perform, e.next?_eq]
  rfl

theorem perform_of_none {move : Move} (h : p.next? move = none) : p.perform move = p := by
  rw [perform, h]
  rfl

@[simp] theorem setWorker_setWorker (w w' : Worker) :
    (p.setWorker i w).setWorker i w' = p.setWorker i w' := by
  simp [setWorker]

/-- The only result that is on its way is the one to be collected. -/
theorem Sound.performAll_deliver (h : Sound units p) {result : CompileResult}
    (hw : p.workers[i]? = some (.finished result)) (ha : p.accepting = false)
    (hc : p.channel = []) :
    p.performAll [.deliver i, .collect] =
      { p with collected := p.collected ++ [result] }.setWorker i .waiting := by
  obtain ⟨opened, room⟩ := h.deliver_ready (List.mem_of_getElem? hw)
  have edeliver : Effect p (.deliver i)
      ({ p with channel := p.channel ++ [result] }.setWorker i .waiting) := .deliver hw opened room
  have more : p.collected.length < p.total := by
    have hlength := h.length_eq
    have hpos : 0 < (p.workers.filterMap Worker.unit?).length :=
      List.length_pos_of_mem (List.mem_filterMap.mpr ⟨_, List.mem_of_getElem? hw, rfl⟩)
    omega
  have hone : ({ p with channel := p.channel ++ [result] }.setWorker i .waiting).channel =
      [result] := by
    simp [Pool.setWorker, hc]
  rw [performAll_cons edeliver, performAll_cons (.collect hone ha more)]
  simp [performAll, Pool.setWorker, hc]

namespace Attended

theorem perm {busy' : List Nat} (h : Attended units busy p) (hp : busy.Perm busy') :
    Attended units busy' p where
  sound := h.sound
  filled := h.filled
  emptied := h.emptied
  distinct := hp.nodup h.distinct
  working i hi := h.working i (hp.mem_iff.mpr hi)
  idle i w hw hi := h.idle i w hw fun hb => hi (hp.mem_iff.mp hb)

theorem waiting_or_hasJob (h : Attended units busy p) {w : Worker} (hw : w ∈ p.workers) :
    w = .waiting ∨ w.hasJob = true := by
  obtain ⟨i, hi⟩ := List.mem_iff_getElem?.mp hw
  by_cases hb : i ∈ busy
  · obtain ⟨v, hv, hjob⟩ := h.working i hb
    cases hi.symm.trans hv
    exact .inr hjob
  · exact .inl (h.idle i w hi hb)

/-- A worker that waits is none of those at their jobs. -/
theorem not_mem_of_waiting (h : Attended units busy p) (hi : p.workers[i]? = some .waiting) :
    i ∉ busy := by
  intro hb
  obtain ⟨w, hw, hjob⟩ := h.working i hb
  cases hi.symm.trans hw
  cases hjob

/-- A pool in which one worker does something else: it has a job just if it is one of those that
are at their jobs now, and all others go on as before. -/
theorem of_set {busy' : List Nat} {w : Worker} (h : Attended units busy p) (sound : Sound units q)
    (hq : q.accepting = false ∧ q.channel = []) (hset : q.workers = p.workers.set i w)
    (hlt : i < p.workers.length) (distinct : busy'.Nodup)
    (others : ∀ j, j ≠ i → (j ∈ busy' ↔ j ∈ busy))
    (job : i ∈ busy' → w.hasJob = true) (free : i ∉ busy' → w = .waiting) :
    Attended units busy' q where
  sound
  filled := hq.1
  emptied := hq.2
  distinct
  working j hj := by
    rw [hset]
    by_cases hji : i = j
    · subst hji
      exact ⟨w, List.getElem?_set_self hlt, job hj⟩
    · rw [List.getElem?_set_ne hji]
      exact h.working j ((others j (Ne.symm hji)).mp hj)
  idle j v hv hj := by
    rw [hset] at hv
    by_cases hji : i = j
    · subst hji
      rw [List.getElem?_set_self hlt] at hv
      rw [← Option.some.inj hv]
      exact free hj
    · rw [List.getElem?_set_ne hji] at hv
      exact h.idle j v hv fun hb => hj ((others j (Ne.symm hji)).mpr hb)

/-! ## A job is begun -/

theorem performAll_assign (h : Attended units busy p) {unit : BuildUnit} {rest : List BuildUnit}
    (hq : p.queue = unit :: rest) (hi : p.workers[i]? = some .waiting) :
    p.performAll [.acquire i, .take i] =
      { p with queue := rest }.setWorker i (.preparing unit) := by
  have free : p.workers.any Worker.isReceiving = false := by
    rw [List.any_eq_false]
    intro w hw
    rcases h.waiting_or_hasJob hw with rfl | hjob
    · exact Bool.false_ne_true
    · cases w <;> first | exact Bool.false_ne_true | cases hjob
  have hlt : i < p.workers.length := (List.getElem?_eq_some_iff.mp hi).1
  have htake : Effect (p.setWorker i .receiving) (.take i)
      ({ p.setWorker i .receiving with queue := rest }.setWorker i (.preparing unit)) :=
    .take (by simp [setWorker, hlt]) hq
  rw [performAll_cons (.acquire hi free), performAll_cons htake]
  exact setWorker_setWorker (p := { p with queue := rest }) .receiving (.preparing unit)

theorem assign (h : Attended units busy p) {unit : BuildUnit} {rest : List BuildUnit}
    (hq : p.queue = unit :: rest) (hi : p.workers[i]? = some .waiting) :
    Attended units (i :: busy) (p.performAll [.acquire i, .take i]) := by
  have sound := h.sound.steps (steps_performAll p [.acquire i, .take i])
  rw [h.performAll_assign hq hi] at sound ⊢
  refine h.of_set sound ⟨h.filled, h.emptied⟩ rfl (List.getElem?_eq_some_iff.mp hi).1
    (List.nodup_cons.mpr ⟨h.not_mem_of_waiting hi, h.distinct⟩) ?_ (fun _ => rfl) ?_
  · intro j hj
    rw [List.mem_cons, or_iff_right hj]
  · intro hfree
    exact absurd List.mem_cons_self hfree

/-- The program of a job is started; one that is running already goes on. -/
theorem launch (h : Attended units busy p) (hi : i ∈ busy) :
    Attended units busy (p.performAll [.enter i, .record i]) := by
  obtain ⟨w, hw, hjob⟩ := h.working i hi
  cases w with
  | compiling unit =>
    have henter : p.next? (.enter i) = none := by simp [next?, hw]
    have hrecord : p.next? (.record i) = none := by simp [next?, hw]
    rw [performAll, List.foldl_cons, perform_of_none henter, List.foldl_cons,
      perform_of_none hrecord]
    exact h
  | preparing unit =>
    have hlt : i < p.workers.length := (List.getElem?_eq_some_iff.mp hw).1
    have sound := h.sound.steps (steps_performAll p [.enter i, .record i])
    have hcounting : ({ p with gauge := { p.gauge with active := p.gauge.active + 1 } }.setWorker i
        (.counting unit (p.gauge.active + 1))).workers[i]? =
        some (.counting unit (p.gauge.active + 1)) := by
      simp [setWorker, hlt]
    rw [performAll_cons (.enter hw), performAll_cons (.record hcounting)] at sound ⊢
    exact h.of_set (w := .compiling unit) sound ⟨h.filled, h.emptied⟩ (List.set_set _) hlt
      h.distinct (fun _ _ => Iff.rfl) (fun _ => rfl) (absurd hi)
  | _ => cases hjob

/-! ## A job is done -/

/-- A worker that is done with its unit has a result to hand over. -/
theorem exists_effect_finish (h : Attended units (i :: busy) p)
    (outcome : Except CompileError Path) :
    ∃ (unit : BuildUnit) (gauge : Gauge), p.workers[i]?.bind Worker.unit? = some unit ∧
      Effect p (.finish i outcome)
        ({ p with gauge }.setWorker i (.finished ⟨unit, outcome⟩)) := by
  obtain ⟨w, hw, hjob⟩ := h.working i List.mem_cons_self
  cases w with
  | preparing unit => exact ⟨unit, p.gauge, by rw [hw]; rfl, .giveUp hw⟩
  | compiling unit => exact ⟨unit, _, by rw [hw]; rfl, .finish hw⟩
  | _ => cases hjob

theorem performAll_finish (h : Attended units (i :: busy) p) (outcome : Except CompileError Path) :
    ∃ (unit : BuildUnit) (gauge : Gauge), p.workers[i]?.bind Worker.unit? = some unit ∧
      p.performAll [.finish i outcome, .deliver i, .collect] =
        { p with collected := p.collected ++ [CompileResult.mk unit outcome], gauge }.setWorker
          i .waiting := by
  obtain ⟨unit, gauge, hunit, efinish⟩ := h.exists_effect_finish outcome
  obtain ⟨w, hw, -⟩ := h.working i List.mem_cons_self
  have hlt : i < p.workers.length := (List.getElem?_eq_some_iff.mp hw).1
  refine ⟨unit, gauge, hunit, ?_⟩
  have hfinished : ({ p with gauge }.setWorker i (.finished ⟨unit, outcome⟩)).workers[i]? =
      some (.finished ⟨unit, outcome⟩) := by
    simp [setWorker, hlt]
  rw [performAll_cons efinish,
    (h.sound.effect efinish).performAll_deliver hfinished h.filled h.emptied]
  exact setWorker_setWorker (p := { p with collected := p.collected ++ [⟨unit, outcome⟩], gauge })
    (.finished ⟨unit, outcome⟩) .waiting

theorem queue_finish (h : Attended units (i :: busy) p) (outcome : Except CompileError Path) :
    (p.performAll [.finish i outcome, .deliver i, .collect]).queue = p.queue := by
  obtain ⟨unit, gauge, -, heq⟩ := h.performAll_finish outcome
  rw [heq]
  rfl

theorem finish (h : Attended units (i :: busy) p) (outcome : Except CompileError Path) :
    Attended units busy (p.performAll [.finish i outcome, .deliver i, .collect]) := by
  have sound := h.sound.steps (steps_performAll p [.finish i outcome, .deliver i, .collect])
  obtain ⟨hfree, hdistinct⟩ := List.nodup_cons.mp h.distinct
  obtain ⟨w, hw, -⟩ := h.working i List.mem_cons_self
  obtain ⟨unit, gauge, -, heq⟩ := h.performAll_finish outcome
  rw [heq] at sound ⊢
  refine h.of_set sound ⟨h.filled, h.emptied⟩ rfl (List.getElem?_eq_some_iff.mp hw).1 hdistinct ?_
    (absurd · hfree) fun _ => rfl
  intro j hj
  rw [List.mem_cons, or_iff_right hj]

/-- Where nobody is at a job, the first worker waits for one. -/
theorem first_waiting (h : Attended units [] p) : p.workers[0]? = some .waiting := by
  rw [List.getElem?_eq_getElem h.sound.manned]
  exact congrArg some (h.idle 0 _ (List.getElem?_eq_getElem h.sound.manned) List.not_mem_nil)

/-- Where nobody is at a job and no unit waits, everything is collected. -/
theorem length_collected (h : Attended units [] p) (hq : p.queue = []) :
    p.collected.length = p.total := by
  have hidle : p.workers.filterMap Worker.unit? = [] := by
    rw [List.filterMap_eq_nil_iff]
    intro w hw
    obtain ⟨i, hi⟩ := List.mem_iff_getElem?.mp hw
    rw [h.idle i w hi List.not_mem_nil]
    rfl
  have hlength := h.sound.length_eq
  rw [hq, hidle, h.emptied, h.sound.closed h.filled] at hlength
  simpa using hlength

end Attended

/-! ## The beginning and the end -/

theorem performAll_submit (p : Pool) (rest : List BuildUnit) (hu : p.unsubmitted = rest)
    (opened : p.returned = false) (room : p.queue.length + rest.length ≤ p.total) :
    p.performAll (rest.map fun _ => .submit) =
      { p with unsubmitted := [], queue := p.queue ++ rest } := by
  induction rest generalizing p with
  | nil =>
    show p = { p with unsubmitted := [], queue := p.queue ++ [] }
    rw [List.append_nil, ← hu]
  | cons unit rest ih =>
    rw [List.length_cons] at room
    have esubmit : Effect p .submit
        { p with unsubmitted := rest, queue := p.queue ++ [unit] } :=
      .submit hu (by simp [queueIsOpen, opened]) (decide_eq_true (by omega))
    have hroom : (p.queue ++ [unit]).length + rest.length ≤ p.total := by
      rw [List.length_append, List.length_singleton]
      omega
    rw [List.map_cons, performAll_cons esubmit,
      ih { p with unsubmitted := rest, queue := p.queue ++ [unit] } rfl opened hroom]
    simp

theorem performAll_openingMoves (poolSize : Nat) (gauge : Gauge) (units : List BuildUnit) :
    (start poolSize gauge units).performAll (Compilation.openingMoves units) =
      { start poolSize gauge units with
        unsubmitted := [], queue := units, accepting := false } := by
  have hsubmit := performAll_submit (start poolSize gauge units) units rfl rfl
    (Nat.le_of_eq (Nat.zero_add _))
  rw [Compilation.openingMoves, performAll, List.foldl_append]
  exact congrArg (List.foldl perform · [.close]) hsubmit

/-- At first all units are in the queue, and every worker waits. -/
theorem attended_start (poolSize : Nat) (gauge : Gauge) (units : List BuildUnit) :
    Attended units []
      ((start poolSize gauge units).performAll (Compilation.openingMoves units)) := by
  have sound := (sound_start poolSize gauge units).steps
    (steps_performAll _ (Compilation.openingMoves units))
  rw [performAll_openingMoves] at sound ⊢
  refine ⟨sound, rfl, rfl, List.nodup_nil, nofun, ?_⟩
  intro i w hw _
  exact List.eq_of_mem_replicate (List.mem_of_getElem? hw)

/-- What is collected stays so. -/
theorem Effect.collected_stays {move : Move} (e : Effect p move q) :
    p.collected <+: q.collected := by
  cases e with
  | collect hc ha more => exact List.prefix_append _ _
  | _ => exact List.prefix_rfl

theorem Steps.collected_stays (h : Steps p q) : p.collected <+: q.collected := by
  induction h with
  | refl => exact List.prefix_rfl
  | step _ hs ih =>
    obtain ⟨move, e⟩ := step_iff.mp hs
    exact ih.trans e.collected_stays

end Pool

namespace Compilation

open Pool (Attended)

variable {units : List BuildUnit} {s t : Compilation}

/-- The workers whose jobs wait. -/
def busy (s : Compilation) : List Nat := s.jobs.map Job.worker

theorem attended_takeOn (job : Job) (activity : Activity JobRun)
    (h : s.pool.Attended units (job.worker :: s.busy)) :
    (takeOn job activity s).pool.Attended units (takeOn job activity s).busy := by
  -- A job that has to wait again is the last of those that wait.
  have postponed : ∀ {t : Compilation}, t.pool.Attended units (job.worker :: t.busy) →
      ∀ waiting, (t.postpone job waiting).pool.Attended units (t.postpone job waiting).busy := by
    intro t ht waiting
    have hbusy : (t.postpone job waiting).busy = t.busy ++ [job.worker] := List.map_append
    rw [hbusy]
    exact ht.perm (List.perm_append_singleton job.worker t.busy).symm
  induction activity generalizing s with
  | done run => exact h.finish run.outcome
  | look next ih => exact ih s.machine.files h
  | createDirectories path next ih =>
    rw [takeOn]
    exact ih _ h
  | copy source target next ih =>
    rw [takeOn]
    exact ih _ h
  | pause span next ih => exact postponed h _
  | watch command directory next ih =>
    have hlaunched := h.launch List.mem_cons_self
    simp only [takeOn]
    split
    · exact ih _ hlaunched
    · exact postponed hlaunched _

theorem getElem?_of_findIdx?_isIdle {workers : List Worker} {i : Nat}
    (h : workers.findIdx? isIdle = some i) : workers[i]? = some .waiting := by
  obtain ⟨hlt, hidle, -⟩ := List.findIdx?_eq_some_iff_getElem.mp h
  rw [List.getElem?_eq_getElem hlt]
  cases hworker : workers[i] with
  | waiting => rfl
  | _ => simp [hworker, isIdle] at hidle

theorem attended_assign? (h : s.pool.Attended units s.busy) (ha : s.assign? = some t) :
    t.pool.Attended units t.busy := by
  unfold assign? at ha
  split at ha
  · rename_i unit rest worker hq hw
    rw [← Option.some.inj ha]
    exact attended_takeOn _ _ (h.assign hq (getElem?_of_findIdx?_isIdle hw))
  · cases ha

theorem attended_resume {job : Job} (h : s.pool.Attended units (job.worker :: s.busy)) :
    (s.resume job).pool.Attended units (s.resume job).busy := by
  unfold resume
  split
  · exact attended_takeOn job _ h
  · exact attended_takeOn job _ h

theorem waitFor_eq (s : Compilation) (moment : Nat) :
    ∃ machine, s.waitFor moment = { s with machine } := by
  unfold waitFor
  split
  · split
    · exact ⟨_, rfl⟩
    · exact ⟨_, rfl⟩
  · exact ⟨_, rfl⟩

theorem perm_of_due? {m : Machine} {jobs others : List Job} {job : Job}
    (h : due? m jobs = some (job, others)) : jobs.Perm (job :: others) := by
  induction jobs generalizing job others with
  | nil => cases h
  | cons first rest ih =>
    rw [due?] at h
    split at h
    · cases h
      exact .refl _
    · obtain ⟨⟨other, left⟩, hdue, heq⟩ := Option.map_eq_some_iff.mp h
      cases heq
      exact ((ih hdue).cons first).trans (.swap _ _ _)

theorem attended_next? (h : s.pool.Attended units s.busy) (hn : s.next? = some t) :
    t.pool.Attended units t.busy := by
  unfold next? at hn
  split at hn
  · rename_i ha
    cases hn
    exact attended_assign? h ha
  · split at hn
    · rename_i job others hdue
      cases hn
      exact attended_resume (h.perm ((perm_of_due? hdue).map Job.worker))
    · obtain ⟨moment, -, rfl⟩ := Option.map_eq_some_iff.mp hn
      obtain ⟨machine, heq⟩ := waitFor_eq s moment
      rw [heq]
      exact h

/-- A compilation stops only where no job waits and no unit is left. -/
theorem eq_nil_of_next?_eq_none (h : s.pool.Attended units s.busy) (hn : s.next? = none) :
    s.jobs = [] ∧ s.pool.queue = [] := by
  unfold next? at hn
  split at hn
  · cases hn
  · rename_i hassign
    split at hn
    · cases hn
    · have hjobs : s.jobs = [] := by
        cases hlist : s.jobs with
        | nil => rfl
        | cons job rest => simp [hlist, latest?] at hn
      refine ⟨hjobs, ?_⟩
      cases hq : s.pool.queue with
      | nil => rfl
      | cons unit rest =>
        -- All workers are idle, so the first one would have taken the unit.
        exfalso
        obtain ⟨w, hw⟩ := List.exists_mem_of_length_pos h.sound.manned
        obtain ⟨i, hi⟩ := List.mem_iff_getElem?.mp hw
        rw [h.idle i w hi (by simp [busy, hjobs])] at hw
        have hfound : (s.pool.workers.findIdx? isIdle).isSome :=
          List.findIdx?_isSome.trans (List.any_eq_true.mpr ⟨_, hw, rfl⟩)
        obtain ⟨worker, hworker⟩ := Option.isSome_iff_exists.mp hfound
        simp [assign?, hq, hworker] at hassign

/-! ## Giving up -/

/-- The jobs that are given up are done, and no unit is taken meanwhile. -/
theorem attended_stop (jobs : List Job) (h : s.pool.Attended units (jobs.map Job.worker)) :
    let stopped := jobs.foldl (fun s job => s.finish job.worker (s.givenUp job.unit)) s
    stopped.pool.Attended units [] := by
  induction jobs generalizing s with
  | nil => exact h
  | cons job rest ih => exact ih (h.finish (s.givenUp job.unit).outcome)

/-- Every unit that is left is given up by the first worker. -/
theorem attended_clear (queue : List BuildUnit) (h : s.pool.Attended units [])
    (hq : s.pool.queue = queue) :
    let cleared := queue.foldl
      (fun s unit => (s.move [.acquire 0, .take 0]).finish 0 (s.givenUp unit)) s
    cleared.pool.Attended units [] ∧ cleared.pool.queue = [] := by
  induction queue generalizing s with
  | nil => exact ⟨h, hq⟩
  | cons unit rest ih =>
    have hidle := h.first_waiting
    have hassigned := h.assign hq hidle
    refine ih (hassigned.finish (s.givenUp unit).outcome) ?_
    refine (hassigned.queue_finish (s.givenUp unit).outcome).trans ?_
    rw [h.performAll_assign hq hidle]
    rfl

theorem attended_giveUp (h : s.pool.Attended units s.busy) :
    s.giveUp.pool.Attended units [] ∧ s.giveUp.pool.queue = [] :=
  attended_clear _ (attended_stop s.jobs h) rfl

/-! ## Whole compilations -/

theorem attended_run (steps : Nat) (h : s.pool.Attended units s.busy) :
    (run steps s).pool.Attended units [] ∧ (run steps s).pool.queue = [] := by
  induction steps generalizing s with
  | zero => exact attended_giveUp h
  | succ steps ih =>
    rw [run]
    split
    · rename_i hn
      obtain ⟨hjobs, hq⟩ := eq_nil_of_next?_eq_none h hn
      rw [busy, hjobs] at h
      exact ⟨h, hq⟩
    · exact ih (attended_next? h ‹_›)

end Compilation

/-- Everything is collected before the workers are sent home. -/
theorem total_le_collected_compilePool (c : Compiler) (gauge : Gauge) (units : List BuildUnit)
    (m : Machine) :
    (compilePool c gauge units m).pool.total ≤
      (compilePool c gauge units m).pool.collected.length := by
  have hsound := (Pool.sound_start _ gauge units).steps (steps_compilePool c gauge units m)
  let done := (Compilation.begun c gauge units m).run Compilation.stepLimit
  obtain ⟨hattended, hqueue⟩ : done.pool.Attended units [] ∧ done.pool.queue = [] :=
    Compilation.attended_run Compilation.stepLimit
      (Pool.attended_start c.config.poolSize gauge units)
  calc (compilePool c gauge units m).pool.total
    _ = done.pool.total := hsound.total.trans hattended.sound.total.symm
    _ = done.pool.collected.length := (hattended.length_collected hqueue).symm
    _ ≤ (compilePool c gauge units m).pool.collected.length :=
      (Pool.steps_performAll done.pool _).collected_stays.length_le

/-- Compiling gives exactly one result for each unit, whatever the machine does. -/
theorem perm_compileAll (c : Compiler) (gauge : Gauge) (units : List BuildUnit) (m : Machine) :
    ((compileAll c gauge units m).1.results.map CompileResult.unit).Perm units := by
  unfold compileAll
  split
  · rename_i hempty
    rw [List.isEmpty_iff.mp hempty]
    exact .nil
  · have hsound := (Pool.sound_start _ gauge units).steps (steps_compilePool c gauge units m)
    refine hsound.collected_perm (Nat.le_antisymm ?_ ?_)
    · have hlength := hsound.length_eq
      omega
    · exact total_le_collected_compilePool c gauge units m

end CompositionGen
