import CompositionGen.Proofs.Pool.Accounting

/-!
# Completion of runs

A run ends: each move leaves less to be done. It does not end before the results are returned, as
some move that is not a job's is possible wherever no job is running. What is returned is one
result for each unit.
-/

namespace CompositionGen

/-- Whether a worker is running a job. -/
def Worker.isBusy : Worker → Bool
  | preparing _ => true
  | counting _ _ => true
  | compiling _ => true
  | _ => false

/-- How many moves a worker and the unit that it has may still take. -/
def Worker.work : Worker → Nat
  | preparing _ => 7
  | counting _ _ => 6
  | compiling _ => 5
  | finished _ => 4
  | waiting => 2
  | receiving => 1
  | stopped => 0

namespace Pool

/-- Whether a move is made by a running job. -/
def Move.isJob : Move → Bool
  | enter _ => true
  | record _ => true
  | finish _ _ => true
  | _ => false

/-- How many moves there may still be. A unit that is submitted or taken counts for one less than
before, and a worker that gets hold of the queue for one less as well. -/
def work (p : Pool) : Nat :=
  8 * p.unsubmitted.length + 7 * p.queue.length + (p.workers.map Worker.work).sum +
    p.channel.length + p.accepting.toNat + (p.workers.length - p.told) + (!p.returned).toNat

variable {units : List BuildUnit} {p q : Pool} {move : Move}

theorem Effect.length_workers (e : Effect p move q) : q.workers.length = p.workers.length := by
  cases e <;> simp [setWorker]

theorem Steps.length_workers (h : Steps p q) : q.workers.length = p.workers.length := by
  induction h with
  | refl => rfl
  | step _ hs ih =>
    obtain ⟨move, e⟩ := step_iff.mp hs
    rw [e.length_workers, ih]

theorem work_setWorker {i : Nat} {w w' : Worker} {queue : List BuildUnit}
    {channel : List CompileResult} {gauge : Gauge} (hw : p.workers[i]? = some w)
    (less : 7 * queue.length + w'.work + channel.length <
      7 * p.queue.length + w.work + p.channel.length) :
    ({ p with queue, channel, gauge }.setWorker i w').work < p.work := by
  have hsum := sum_map_set Worker.work w' hw
  simp only [work, setWorker, List.length_set]
  omega

/-- Every move leaves less to be done, so that no run goes on for ever. -/
theorem Effect.work_lt (e : Effect p move q) : q.work < p.work := by
  -- A unit weighs less in each state of a worker than in the one before, and what is collected
  -- weighs nothing.
  cases e with
  | lose hu closed => simp [work, hu]
  | submit hu opened room =>
    simp only [work, hu, List.length_append, List.length_cons, List.length_nil]
    omega
  | close hu ha => simp [work, ha]
  | acquire hw free => exact work_setWorker hw (by simp only [Worker.work]; omega)
  | take hw hq =>
    exact work_setWorker hw (by simp only [hq, Worker.work, List.length_cons]; omega)
  | enter hw => exact work_setWorker hw (by simp only [Worker.work]; omega)
  | record hw => exact work_setWorker hw (by simp only [Worker.work]; omega)
  | giveUp hw => exact work_setWorker hw (by simp only [Worker.work]; omega)
  | finish hw => exact work_setWorker hw (by simp only [Worker.work]; omega)
  | abandon hw closed => exact work_setWorker hw (by simp only [Worker.work]; omega)
  | deliver hw opened room =>
    refine work_setWorker hw ?_
    simp only [Worker.work, List.length_append, List.length_cons, List.length_nil]
    omega
  | collect hc ha more =>
    simp only [work, hc, List.length_cons]
    omega
  | tell ha drained ht =>
    simp only [work]
    omega
  | quit hw may =>
    rcases idle_of_mayQuit may with rfl | rfl
    · exact work_setWorker hw (by simp only [Worker.work]; omega)
    · exact work_setWorker hw (by simp only [Worker.work]; omega)
  | conclude ht hs hr => simp [work, hr]

/-- Once the queue is closed, a worker that has no unit goes on with it. -/
theorem worker_progress (ha : p.accepting = false) {w : Worker} (hw : w ∈ p.workers)
    (hi : w = .waiting ∨ w = .receiving) : ∃ move q, move.isJob = false ∧ Effect p move q := by
  by_cases hrec : Worker.receiving ∈ p.workers
  · obtain ⟨i, hi⟩ := List.mem_iff_getElem?.mp hrec
    rcases hq : p.queue with _ | ⟨unit, rest⟩
    · exact ⟨_, _, rfl, .quit hi (by simp [mayQuit, hq, ha])⟩
    · exact ⟨_, _, rfl, .take hi hq⟩
  · obtain rfl : w = .waiting := hi.resolve_right fun he => hrec (he ▸ hw)
    obtain ⟨i, hi⟩ := List.mem_iff_getElem?.mp hw
    refine ⟨_, _, rfl, .acquire hi ?_⟩
    rw [List.any_eq_false]
    intro v hv
    cases v with
    | receiving => exact absurd hv hrec
    | _ => simp [Worker.isReceiving]

namespace Sound

/-- Each unit that was submitted is at one place. -/
theorem exists_submitted (h : Sound units p) :
    ∃ submitted, units = submitted ++ p.unsubmitted ∧ p.held.Perm submitted := by
  obtain ⟨submitted, hs⟩ := h.submitted
  refine ⟨submitted, hs.symm, ?_⟩
  have := h.perm
  rw [← hs] at this
  exact (List.perm_append_right_iff _).mp this

/-- When everything is collected, there is one result for each unit. -/
theorem collected_perm (h : Sound units p) (hc : p.collected.length = p.total) :
    (p.collected.map CompileResult.unit).Perm units := by
  have hlen := h.length_eq
  have hq : p.queue = [] := List.length_eq_zero_iff.mp (by omega)
  have hw : p.workers.filterMap Worker.unit? = [] := List.length_eq_zero_iff.mp (by omega)
  have hr : p.channel = [] := List.length_eq_zero_iff.mp (by omega)
  have hu : p.unsubmitted = [] := List.length_eq_zero_iff.mp (by omega)
  have := h.perm
  rwa [held, hq, hw, hr, hu, List.map_nil, List.append_nil, List.append_nil, List.nil_append,
    List.nil_append] at this

theorem collected_of_told (h : Sound units p) (ht : 0 < p.told) :
    (p.collected.map CompileResult.unit).Perm units :=
  h.collected_perm (h.told ht).2

theorem told_pos (h : Sound units p) (hr : p.returned = true) : 0 < p.told := by
  rw [(h.returned hr).1]
  exact h.manned

/-- What is submitted fits into the queue, and somebody can read it. -/
theorem submit_ready (h : Sound units p) (hu : p.unsubmitted ≠ []) :
    p.queueIsOpen = true ∧ p.hasRoom p.queue.length = true := by
  constructor
  · cases hr : p.returned with
    | false => simp [queueIsOpen, hr]
    | true => exact absurd (h.closed (h.told (h.told_pos hr)).1) hu
  · have hlen := h.length_eq
    have := List.length_pos_iff.mpr hu
    exact decide_eq_true (by omega)

/-- What a worker hands over fits into the channel, and the pool can read it. -/
theorem deliver_ready (h : Sound units p) {result : CompileResult}
    (hw : Worker.finished result ∈ p.workers) :
    p.channelIsOpen = true ∧ p.hasRoom p.channel.length = true := by
  constructor
  · simp [channelIsOpen, h.not_returned hw rfl]
  · have hlen := h.length_eq
    have : 0 < (p.workers.filterMap Worker.unit?).length :=
      List.length_pos_of_mem (List.mem_filterMap.mpr ⟨_, hw, rfl⟩)
    exact decide_eq_true (by omega)

/-- When all workers have stopped, each of them is still told to, and then the pool returns. -/
theorem stopped_progress (h : Sound units p) (hr : p.returned = false) (ha : p.accepting = false)
    (hc : p.channel = []) (hs : ∀ w ∈ p.workers, w.isStopped = true) :
    ∃ move q, move.isJob = false ∧ Effect p move q := by
  rcases Nat.lt_or_eq_of_le h.told_le with ht | ht
  · refine ⟨_, _, rfl, .tell ha ?_ ht⟩
    simpa [isDrained, hc] using .inr hs
  · exact ⟨_, _, rfl, .conclude ht (List.all_eq_true.mpr hs) hr⟩

/-- Where no job is running and the results are not returned, something else happens. -/
theorem progress (h : Sound units p) (hr : p.returned = false)
    (idle : ∀ w ∈ p.workers, w.isBusy = false) :
    ∃ move q, move.isJob = false ∧ Effect p move q := by
  rcases hu : p.unsubmitted with _ | ⟨unit, rest⟩
  · rcases Bool.eq_false_or_eq_true p.accepting with ha | ha
    · exact ⟨_, _, rfl, .close hu ha⟩
    by_cases hf : ∃ result, Worker.finished result ∈ p.workers
    · obtain ⟨result, hf⟩ := hf
      obtain ⟨i, hi⟩ := List.mem_iff_getElem?.mp hf
      obtain ⟨opened, room⟩ := h.deliver_ready hf
      exact ⟨_, _, rfl, .deliver hi opened room⟩
    rcases hc : p.channel with _ | ⟨result, rest⟩
    · -- Nothing is on its way back, so it is for a worker at the queue to go on.
      by_cases hq : ∃ w ∈ p.workers, w = .waiting ∨ w = .receiving
      · obtain ⟨w, hw, hi⟩ := hq
        exact worker_progress ha hw hi
      · refine h.stopped_progress hr ha hc fun w hw => ?_
        cases w with
        | waiting => exact absurd ⟨_, hw, .inl rfl⟩ hq
        | receiving => exact absurd ⟨_, hw, .inr rfl⟩ hq
        | finished result => exact absurd ⟨result, hw⟩ hf
        | stopped => rfl
        | _ => cases idle _ hw
    · have hlen := h.length_eq
      rw [hc, List.length_cons] at hlen
      exact ⟨_, _, rfl, .collect hc ha (by omega)⟩
  · obtain ⟨opened, room⟩ := h.submit_ready (by simp [hu])
    exact ⟨_, _, rfl, .submit hu opened room⟩

end Sound

/-- A running job can go on. -/
theorem exists_effect_of_isBusy {w : Worker} (hw : w ∈ p.workers) (busy : w.isBusy = true) :
    ∃ move q, Effect p move q := by
  obtain ⟨i, hi⟩ := List.mem_iff_getElem?.mp hw
  cases w with
  | preparing unit => exact ⟨_, _, .enter hi⟩
  | counting unit seen => exact ⟨_, _, .record hi⟩
  | compiling unit => exact ⟨.finish i (.error (.panicked "")), _, .finish hi⟩
  | _ => cases busy

/-- Wherever a run is, it can go on until the results are returned. -/
theorem Sound.exists_returned (h : Sound units p) : ∃ q, Steps p q ∧ q.returned = true := by
  -- Each move leaves less work, so the induction is on the work that is left.
  induction hn : p.work using Nat.strongRecOn generalizing p with
  | _ n ih =>
    rcases Bool.eq_false_or_eq_true p.returned with hr | hr
    · exact ⟨p, .refl p, hr⟩
    have hnext : ∃ move q, Effect p move q := by
      by_cases busy : ∃ w ∈ p.workers, w.isBusy = true
      · obtain ⟨w, hw, hb⟩ := busy
        exact exists_effect_of_isBusy hw hb
      · obtain ⟨move, q, -, e⟩ := h.progress hr (by simpa using busy)
        exact ⟨move, q, e⟩
    obtain ⟨move, q, e⟩ := hnext
    obtain ⟨r, hqr, hret⟩ := ih q.work (hn ▸ e.work_lt) (h.effect e) rfl
    exact ⟨r, (Steps.step (.refl p) (step_iff.mpr ⟨move, e⟩)).trans hqr, hret⟩

/-- Under every schedule each unit has exactly one result: no unit is ever lost or at two places, no
worker or pool waits for a channel, nobody is told to stop early, and no run is stuck before it
returns. -/
theorem one_result_per_unit (poolSize : Nat) (gauge : Gauge) (units : List BuildUnit) (p : Pool)
    (run : Steps (start poolSize gauge units) p) :
    p.workers.length = max poolSize 1 ∧
    (∃ submitted, units = submitted ++ p.unsubmitted ∧ p.held.Perm submitted) ∧
    (p.unsubmitted ≠ [] → p.queueIsOpen = true ∧ p.hasRoom p.queue.length = true) ∧
    (∀ result, Worker.finished result ∈ p.workers →
      p.channelIsOpen = true ∧ p.hasRoom p.channel.length = true) ∧
    (0 < p.told → (p.collected.map CompileResult.unit).Perm units) ∧
    (p.returned = false → (∀ w ∈ p.workers, w.isBusy = false) →
      ∃ move q, move.isJob = false ∧ p.next? move = some q) ∧
    (∃ q, Steps p q ∧ q.returned = true) ∧
    (p.returned = true → (p.collected.map CompileResult.unit).Perm units) := by
  have h : Sound units p := (sound_start poolSize gauge units).steps run
  refine ⟨?_, h.exists_submitted, h.submit_ready, fun _ => h.deliver_ready, h.collected_of_told, ?_,
    h.exists_returned, fun hr => h.collected_of_told (h.told_pos hr)⟩
  · rw [run.length_workers, start, List.length_replicate, workerCount]
  · intro hr idle
    obtain ⟨move, q, hj, e⟩ := h.progress hr idle
    exact ⟨move, q, hj, e.next?_eq⟩

/-! Two workers on a unit that is given twice; its second compilation fails before the program of
the first one has ended. -/

def sampleUnit : BuildUnit := ⟨⟨"compositions/a"⟩, "a"⟩

def sampleMoves : List Move := [
  .submit, .acquire 1, .take 1, .submit, .enter 1, .acquire 0, .record 1, .take 0,
  .finish 0 (.error (.panicked "no command")), .deliver 0, .close, .acquire 0,
  .finish 1 (.ok ⟨"plugins/a.so"⟩), .collect, .quit 0, .deliver 1, .collect,
  .tell, .tell, .quit 1, .conclude]

theorem one_result_per_unit_sample :
    ((start 2 {} [sampleUnit, sampleUnit]).performAll sampleMoves).returned = true ∧
      (((start 2 {} [sampleUnit, sampleUnit]).performAll sampleMoves).collected.map
        CompileResult.unit).Perm [sampleUnit, sampleUnit] := by
  have hr : ((start 2 {} [sampleUnit, sampleUnit]).performAll sampleMoves).returned = true := by
    decide +kernel
  obtain ⟨-, -, -, -, -, -, -, hp⟩ :=
    one_result_per_unit 2 {} [sampleUnit, sampleUnit] _ (steps_performAll _ sampleMoves)
  exact ⟨hr, hp hr⟩

end Pool

end CompositionGen
