import CompositionGen.Compile.Pool
import Mathlib.Tactic.SplitIfs

/-!
# What a move does

The moves of a pool as rules: one for each way in which a move is possible, with what it needs and
the pool that it leads to. Whatever is claimed of every schedule is proved rule by rule.
-/

namespace CompositionGen.Pool

/-- A move is possible in a pool and leads to another one. -/
inductive Effect (p : Pool) : Move → Pool → Prop where
  | lose {unit : BuildUnit} {rest : List BuildUnit} (hu : p.unsubmitted = unit :: rest)
      (closed : p.queueIsOpen = false) : Effect p .submit { p with unsubmitted := [] }
  | submit {unit : BuildUnit} {rest : List BuildUnit} (hu : p.unsubmitted = unit :: rest)
      (opened : p.queueIsOpen = true) (room : p.hasRoom p.queue.length = true) :
      Effect p .submit { p with unsubmitted := rest, queue := p.queue ++ [unit] }
  | close (hu : p.unsubmitted = []) (ha : p.accepting = true) :
      Effect p .close { p with accepting := false }
  | acquire {i : Nat} (hw : p.workers[i]? = some .waiting)
      (free : p.workers.any Worker.isReceiving = false) :
      Effect p (.acquire i) (p.setWorker i .receiving)
  | take {i : Nat} {unit : BuildUnit} {rest : List BuildUnit}
      (hw : p.workers[i]? = some .receiving) (hq : p.queue = unit :: rest) :
      Effect p (.take i) ({ p with queue := rest }.setWorker i (.preparing unit))
  | enter {i : Nat} {unit : BuildUnit} (hw : p.workers[i]? = some (.preparing unit)) :
      Effect p (.enter i)
        ({ p with gauge := { p.gauge with active := p.gauge.active + 1 } }.setWorker i
          (.counting unit (p.gauge.active + 1)))
  | record {i : Nat} {unit : BuildUnit} {seen : Nat}
      (hw : p.workers[i]? = some (.counting unit seen)) :
      Effect p (.record i)
        ({ p with gauge := { p.gauge with peak := max p.gauge.peak seen } }.setWorker i
          (.compiling unit))
  | giveUp {i : Nat} {unit : BuildUnit} {outcome : Except CompileError Path}
      (hw : p.workers[i]? = some (.preparing unit)) :
      Effect p (.finish i outcome) (p.setWorker i (.finished ⟨unit, outcome⟩))
  | finish {i : Nat} {unit : BuildUnit} {outcome : Except CompileError Path}
      (hw : p.workers[i]? = some (.compiling unit)) :
      Effect p (.finish i outcome)
        ({ p with gauge := { p.gauge with active := p.gauge.active - 1 } }.setWorker i
          (.finished ⟨unit, outcome⟩))
  | abandon {i : Nat} {result : CompileResult} (hw : p.workers[i]? = some (.finished result))
      (closed : p.channelIsOpen = false) : Effect p (.deliver i) (p.setWorker i .stopped)
  | deliver {i : Nat} {result : CompileResult} (hw : p.workers[i]? = some (.finished result))
      (opened : p.channelIsOpen = true) (room : p.hasRoom p.channel.length = true) :
      Effect p (.deliver i)
        ({ p with channel := p.channel ++ [result] }.setWorker i .waiting)
  | collect {result : CompileResult} {rest : List CompileResult}
      (hc : p.channel = result :: rest) (ha : p.accepting = false)
      (more : p.collected.length < p.total) :
      Effect p .collect { p with channel := rest, collected := p.collected ++ [result] }
  | tell (ha : p.accepting = false) (drained : p.isDrained = true)
      (ht : p.told < p.workers.length) : Effect p .tell { p with told := p.told + 1 }
  | quit {i : Nat} {w : Worker} (hw : p.workers[i]? = some w) (may : p.mayQuit i w = true) :
      Effect p (.quit i) (p.setWorker i .stopped)
  | conclude (ht : p.told = p.workers.length) (hs : p.workers.all Worker.isStopped = true)
      (hr : p.returned = false) : Effect p .conclude { p with returned := true }

variable {p q : Pool} {move : Move}

theorem Effect.of_next? (h : p.next? move = some q) : Effect p move q := by
  unfold next? at h
  -- What a move asks for before it is made picks its rule; where that fails there is no next pool.
  cases move with
  | submit =>
    dsimp only at h
    split at h
    · cases h
    · rename_i hu
      split_ifs at h with ho hr
      · cases h
        exact .lose hu (by simpa using ho)
      · cases h
        exact .submit hu (by simpa using ho) hr
  | close =>
    dsimp only at h
    split_ifs at h with hc
    cases h
    rw [Bool.and_eq_true, List.isEmpty_iff] at hc
    exact .close hc.1 hc.2
  | acquire i =>
    dsimp only at h
    split at h
    · split_ifs at h with hf
      cases h
      exact .acquire ‹_› (by simpa using hf)
    · cases h
  | take i =>
    dsimp only at h
    split at h
    · cases h
      exact .take ‹_› ‹_›
    · cases h
  | enter i =>
    dsimp only at h
    split at h
    · cases h
      exact .enter ‹_›
    · cases h
  | record i =>
    dsimp only at h
    split at h
    · cases h
      exact .record ‹_›
    · cases h
  | finish i outcome =>
    dsimp only at h
    split at h
    · cases h
      exact .giveUp ‹_›
    · cases h
      exact .finish ‹_›
    · cases h
  | deliver i =>
    dsimp only at h
    split at h
    · split_ifs at h with ho hr
      · cases h
        exact .abandon ‹_› (by simpa using ho)
      · cases h
        exact .deliver ‹_› (by simpa using ho) hr
    · cases h
  | collect =>
    dsimp only at h
    split at h
    · cases h
    · split_ifs at h with hc
      cases h
      rw [Bool.and_eq_true, Bool.not_eq_true', decide_eq_true_iff] at hc
      exact .collect ‹_› hc.1 hc.2
  | tell =>
    dsimp only at h
    split_ifs at h with hc
    cases h
    rw [Bool.and_eq_true, Bool.and_eq_true, Bool.not_eq_true', decide_eq_true_iff] at hc
    exact .tell hc.1.1 hc.1.2 hc.2
  | quit i =>
    dsimp only at h
    split at h
    · split_ifs at h with hm
      cases h
      exact .quit ‹_› hm
    · cases h
  | conclude =>
    dsimp only at h
    split_ifs at h with hc
    cases h
    rw [Bool.and_eq_true, Bool.and_eq_true, Bool.not_eq_true', beq_iff_eq] at hc
    exact .conclude hc.1.1 hc.1.2 hc.2

theorem Effect.next?_eq (h : Effect p move q) : p.next? move = some q := by
  cases h <;> simp_all [next?]

/-- The rules say what the moves do, neither more nor less. -/
theorem next?_eq_some_iff : p.next? move = some q ↔ Effect p move q :=
  ⟨Effect.of_next?, Effect.next?_eq⟩

theorem step_iff : Step p q ↔ ∃ move, Effect p move q :=
  exists_congr fun _ => next?_eq_some_iff

/-! ## Runs -/

theorem Steps.trans {r : Pool} (h : Steps p q) (h' : Steps q r) : Steps p r := by
  induction h' with
  | refl => exact h
  | step _ hs ih => exact .step ih hs

theorem steps_perform (p : Pool) (move : Move) : Steps p (p.perform move) := by
  unfold perform
  cases h : p.next? move with
  | none => exact .refl p
  | some q => exact .step (.refl p) ⟨move, h⟩

/-- Whatever moves are tried one after another, the pool is led along a run. -/
theorem steps_performAll (p : Pool) (moves : List Move) : Steps p (p.performAll moves) := by
  induction moves generalizing p with
  | nil => exact .refl p
  | cons move moves ih => exact (steps_perform p move).trans (ih (p.perform move))

end CompositionGen.Pool
