import CompositionGen.Proofs.Pool.Moves
import Mathlib.Algebra.Ring.Nat

/-!
# Accounting for units

Wherever a run has led a pool, each unit that was submitted is at one place: in the queue, with a
worker, in the channel or collected. What makes this hold of every schedule is an invariant of the
moves, which also says when workers are told to stop and when they do.
-/

namespace CompositionGen

/-- How many copies of a unit a worker has in hand. -/
def Worker.copies (unit : BuildUnit) (w : Worker) : Nat := w.unit?.toList.count unit

theorem sum_map_set (f : Worker → Nat) {ws : List Worker} {i : Nat} {w : Worker} (w' : Worker)
    (h : ws[i]? = some w) : ((ws.set i w').map f).sum + f w = (ws.map f).sum + f w' := by
  induction ws generalizing i with
  | nil => cases h
  | cons v ws ih =>
    cases i with
    | zero =>
      cases h
      simp only [List.set_cons_zero, List.map_cons, List.sum_cons]
      omega
    | succ i =>
      have := ih h
      simp only [List.set_cons_succ, List.map_cons, List.sum_cons]
      omega

theorem count_filterMap_unit? (unit : BuildUnit) (ws : List Worker) :
    (ws.filterMap Worker.unit?).count unit = (ws.map (Worker.copies unit)).sum := by
  induction ws with
  | nil => rfl
  | cons w ws ih =>
    rw [List.map_cons, List.sum_cons, ← ih, Worker.copies, List.filterMap_cons]
    cases w.unit? with
    | none => simp
    | some v =>
      simp only [Option.toList_some, List.count_cons, List.count_nil]
      omega

namespace Pool

/-- The units that are somewhere in the pool: queued, with a worker, in the channel or collected. -/
def held (p : Pool) : List BuildUnit :=
  p.queue ++ p.workers.filterMap Worker.unit? ++ p.channel.map CompileResult.unit ++
    p.collected.map CompileResult.unit

theorem count_held (p : Pool) (unit : BuildUnit) :
    p.held.count unit = p.queue.count unit + (p.workers.map (Worker.copies unit)).sum +
      (p.channel.map CompileResult.unit).count unit +
      (p.collected.map CompileResult.unit).count unit := by
  simp only [held, List.count_append, count_filterMap_unit?]

/-- What holds of a pool at work on some units, whatever has happened so far. -/
structure Sound (units : List BuildUnit) (p : Pool) : Prop where
  total : p.total = units.length
  manned : 0 < p.workers.length
  /-- The first units are submitted first. -/
  submitted : p.unsubmitted <:+ units
  accounted : ∀ unit, p.held.count unit + p.unsubmitted.count unit = units.count unit
  closed : p.accepting = false → p.unsubmitted = []
  told : 0 < p.told → p.accepting = false ∧ p.collected.length = p.total
  told_le : p.told ≤ p.workers.length
  stopped : ∀ w ∈ p.workers, w.isStopped = true → p.accepting = false ∧ p.queue = []
  returned : p.returned = true →
    p.told = p.workers.length ∧ ∀ w ∈ p.workers, w.isStopped = true

variable {units : List BuildUnit} {p q : Pool}

theorem sound_start (poolSize : Nat) (gauge : Gauge) (units : List BuildUnit) :
    Sound units (start poolSize gauge units) where
  total := rfl
  manned := by
    rw [start, List.length_replicate]
    exact Nat.le_max_right _ _
  submitted := List.suffix_rfl
  accounted unit := by simp [count_held, start, Worker.copies, Worker.unit?]
  closed h := by simp [start] at h
  told h := by simp [start] at h
  told_le := Nat.zero_le _
  stopped w hw hs := by
    obtain rfl := List.eq_of_mem_replicate hw
    simp [Worker.isStopped] at hs
  returned h := by simp [start] at h

theorem idle_of_mayQuit {i : Nat} {w : Worker} (may : p.mayQuit i w = true) :
    w = .waiting ∨ w = .receiving := by
  cases w with
  | waiting => exact .inl rfl
  | receiving => exact .inr rfl
  | _ => cases may

namespace Sound

theorem perm (h : Sound units p) : (p.held ++ p.unsubmitted).Perm units := by
  rw [List.perm_iff_count]
  intro unit
  rw [List.count_append]
  exact h.accounted unit

theorem length_eq (h : Sound units p) :
    p.queue.length + (p.workers.filterMap Worker.unit?).length + p.channel.length +
      p.collected.length + p.unsubmitted.length = p.total := by
  have := h.perm.length_eq
  simp only [held, List.length_append, List.length_map] at this
  rw [h.total, ← this]

/-- As long as a worker has not stopped, the pool has not returned. -/
theorem not_returned (h : Sound units p) {w : Worker} (hw : w ∈ p.workers)
    (hs : w.isStopped = false) : p.returned = false := by
  by_contra hr
  rw [(h.returned (by simpa using hr)).2 w hw] at hs
  cases hs

/-- A pool in which something was done by one worker, which went on with `w'`. -/
theorem setWorker (h : Sound units p) {i : Nat} {w w' : Worker} {queue : List BuildUnit}
    {channel : List CompileResult} {gauge : Gauge} (hw : p.workers[i]? = some w)
    (hs : w.isStopped = false) (hq : p.queue = [] → queue = [])
    (balance : ∀ unit,
      queue.count unit + w'.copies unit + (channel.map CompileResult.unit).count unit =
        p.queue.count unit + w.copies unit + (p.channel.map CompileResult.unit).count unit)
    (hs' : w'.isStopped = true → p.accepting = false ∧ queue = []) :
    Sound units ({ p with queue, channel, gauge }.setWorker i w') where
  total := h.total
  manned := by simpa [Pool.setWorker] using h.manned
  submitted := h.submitted
  accounted unit := by
    have hsum := sum_map_set (Worker.copies unit) w' hw
    have hb := balance unit
    have ha := h.accounted unit
    rw [count_held] at ha
    simp only [count_held, Pool.setWorker]
    omega
  closed := h.closed
  told := h.told
  told_le := by simpa [Pool.setWorker] using h.told_le
  stopped v hv hsv := by
    rcases List.mem_or_eq_of_mem_set hv with hv | rfl
    · obtain ⟨ha, hqueue⟩ := h.stopped v hv hsv
      exact ⟨ha, hq hqueue⟩
    · exact hs' hsv
  returned hr := by
    have := h.not_returned (List.mem_of_getElem? hw) hs
    simp [Pool.setWorker, this] at hr

/-- A worker that may stop finds no unit in the queue. -/
theorem of_mayQuit (h : Sound units p) {i : Nat} {w : Worker} (may : p.mayQuit i w = true) :
    p.accepting = false ∧ p.queue = [] := by
  have of_told : i < p.told → p.accepting = false ∧ p.queue = [] := by
    intro hi
    obtain ⟨ha, hc⟩ := h.told (by omega)
    have hlen := h.length_eq
    exact ⟨ha, List.length_eq_zero_iff.mp (by omega)⟩
  rcases idle_of_mayQuit may with rfl | rfl
  · exact of_told (by simpa [mayQuit] using may)
  · simp only [mayQuit, Bool.or_eq_true, Bool.and_eq_true, decide_eq_true_iff,
      List.isEmpty_iff, Bool.not_eq_true'] at may
    rcases may with hi | ⟨hq, ha⟩
    · exact of_told hi
    · exact ⟨ha, hq⟩

/-- When nothing more will be collected, everything is. -/
theorem of_isDrained (h : Sound units p) (ha : p.accepting = false) (hd : p.isDrained = true) :
    p.collected.length = p.total := by
  simp only [isDrained, Bool.or_eq_true, beq_iff_eq, Bool.and_eq_true, List.isEmpty_iff,
    List.all_eq_true] at hd
  rcases hd with hd | ⟨hc, hs⟩
  · exact hd
  · obtain ⟨w, hw⟩ := List.exists_mem_of_length_pos h.manned
    have hq := (h.stopped w hw (hs w hw)).2
    have hn : p.workers.filterMap Worker.unit? = [] := by
      rw [List.filterMap_eq_nil_iff]
      intro v hv
      have := hs v hv
      cases v <;> simp_all [Worker.isStopped, Worker.unit?]
    have hlen := h.length_eq
    simp only [hq, hn, hc, h.closed ha, List.length_nil] at hlen
    omega

/-- Every move keeps the invariant. -/
theorem effect {move : Move} (h : Sound units p) (e : Effect p move q) : Sound units q := by
  cases e with
  | lose hu closed =>
    -- the queue is closed only when nothing is left to submit
    have hr : p.returned = true := by
      simp only [queueIsOpen, Bool.or_eq_false_iff, Bool.not_eq_false'] at closed
      exact closed.1
    have hm := h.manned
    have ht := (h.returned hr).1
    rw [h.closed (h.told (by omega)).1] at hu
    cases hu
  | submit hu opened room =>
    have hn : p.accepting = true := by
      by_contra ha
      rw [h.closed (by simpa using ha)] at hu
      cases hu
    refine { h with submitted := ?_, accounted := ?_, closed := ?_, stopped := ?_ }
    · exact (List.suffix_cons _ _).trans (hu ▸ h.submitted)
    · intro unit
      have ha := h.accounted unit
      rw [count_held, hu] at ha
      simp only [count_held, List.count_append, List.count_cons, List.count_nil] at ha ⊢
      omega
    · intro ha
      simp [hn] at ha
    · intro w hw hs
      have := (h.stopped w hw hs).1
      simp [hn] at this
  | close hu ha =>
    refine { h with closed := fun _ => hu, told := ?_, stopped := ?_ }
    · intro ht
      exact ⟨rfl, (h.told ht).2⟩
    · intro w hw hs
      exact ⟨rfl, (h.stopped w hw hs).2⟩
  | acquire hw free =>
    exact h.setWorker hw rfl id (fun _ => rfl) (by simp [Worker.isStopped])
  | take hw hq =>
    refine h.setWorker hw rfl (by simp [hq]) ?_ (by simp [Worker.isStopped])
    intro unit
    simp only [hq, Worker.copies, Worker.unit?, Option.toList_some, Option.toList_none,
      List.count_cons, List.count_nil]
    omega
  | enter hw => exact h.setWorker hw rfl id (fun _ => rfl) (by simp [Worker.isStopped])
  | record hw => exact h.setWorker hw rfl id (fun _ => rfl) (by simp [Worker.isStopped])
  | giveUp hw => exact h.setWorker hw rfl id (fun _ => rfl) (by simp [Worker.isStopped])
  | finish hw => exact h.setWorker hw rfl id (fun _ => rfl) (by simp [Worker.isStopped])
  | abandon hw closed =>
    -- the pool returns only after the worker has stopped
    have := h.not_returned (List.mem_of_getElem? hw) rfl
    simp [channelIsOpen, this] at closed
  | deliver hw opened room =>
    refine h.setWorker hw rfl id ?_ (by simp [Worker.isStopped])
    intro unit
    simp only [Worker.copies, Worker.unit?, Option.toList_some, Option.toList_none,
      List.map_append, List.map_cons, List.map_nil, List.count_append, List.count_cons,
      List.count_nil]
    omega
  | collect hc ha more =>
    refine { h with accounted := ?_, told := ?_ }
    · intro unit
      have hb := h.accounted unit
      rw [count_held, hc] at hb
      simp only [count_held, List.map_append, List.map_cons, List.map_nil, List.count_append,
        List.count_cons, List.count_nil] at hb ⊢
      omega
    · intro ht
      have := (h.told ht).2
      omega
  | tell ha drained ht =>
    refine { h with told := ?_, told_le := ht, returned := ?_ }
    · intro _
      exact ⟨ha, h.of_isDrained ha drained⟩
    · intro hr
      have := (h.returned hr).1
      omega
  | quit hw may =>
    have hquit := h.of_mayQuit may
    rcases idle_of_mayQuit may with rfl | rfl
    · exact h.setWorker hw rfl id (fun _ => rfl) (fun _ => hquit)
    · exact h.setWorker hw rfl id (fun _ => rfl) (fun _ => hquit)
  | conclude ht hs hr =>
    refine { h with returned := fun _ => ⟨ht, ?_⟩ }
    simpa using hs

theorem steps (h : Sound units p) (hs : Steps p q) : Sound units q := by
  induction hs with
  | refl => exact h
  | step _ hs ih =>
    obtain ⟨move, e⟩ := step_iff.mp hs
    exact ih.effect e

end Sound

end Pool

end CompositionGen
