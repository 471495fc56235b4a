import CompositionGen.Proofs.Builder.Runs
import CompositionGen.Proofs.Sequences
import Mathlib.Data.List.Basic

/-!
# What a run asks of its writer

A run visits builders in order. Each builder yields what it makes of the files that it finds, and
the writer is called once for each composition that is yielded, until a call fails. What the
builders behind a failed call would have done has no part in the result.
-/

namespace CompositionGen

/-- What comes of a builder that finds these files: a composition, or one of three ways to yield
none. -/
inductive Builder.ComesTo (b : Builder) (fs : FileSystem) :
    Except DropReason Composition → Prop where
  | failed {messages : List String} (build : (b.build fs).2 = .failed messages) :
    ComesTo b fs (.error (.failed messages))
  | panicked (build : (b.build fs).2 = .panicked) : ComesTo b fs (.error .panicked)
  | notFinalized {calls : List DraftCall} {cause : BuildError}
    (build : (b.build fs).2 = .done calls)
    (finalize : (b.draft calls).finalize.2 = .error cause) :
    ComesTo b fs (.error (.notFinalized (b.draft calls).name cause))
  | composed {calls : List DraftCall} {c : Composition} (build : (b.build fs).2 = .done calls)
    (finalize : (b.draft calls).finalize.2 = .ok c) : ComesTo b fs (.ok c)

theorem Builder.comesTo_compose (b : Builder) (fs : FileSystem) :
    b.ComesTo fs (b.compose fs).2 := by
  rcases hbuild : b.build fs with ⟨report, calls | messages | _⟩
  · rcases hfinal : (b.draft calls).finalize with ⟨finalReport, cause | c⟩
    · rw [compose, hbuild]
      simp only [hfinal]
      exact .notFinalized (by rw [hbuild]) (by rw [hfinal])
    · rw [compose, hbuild]
      simp only [hfinal]
      exact .composed (by rw [hbuild]) (by rw [hfinal])
  · rw [compose, hbuild]
    exact .failed (by rw [hbuild])
  · rw [compose, hbuild]
    exact .panicked (by rw [hbuild])

/-- A builder that has been run for a unit, and what it has yielded. -/
structure Visit where
  unit : String
  builder : Builder
  yielded : Except DropReason Composition

namespace Visit

/-- The builder with its unit. -/
def entry (v : Visit) : String × Builder := (v.unit, v.builder)

/-- The call for what was yielded. -/
def call? (v : Visit) : Option (String × String) := v.yielded.toOption.map Composition.call

/-- Whether nothing was yielded. -/
def isDropped (v : Visit) : Bool := !v.yielded.isOk

/-- The calls for what builders have yielded, in order. -/
def calls (visits : List Visit) : List (String × String) := visits.filterMap call?

theorem calls_append (visits visits' : List Visit) :
    calls (visits ++ visits') = calls visits ++ calls visits' :=
  List.filterMap_append

theorem length_calls_add_countP_isDropped (visits : List Visit) :
    (calls visits).length + visits.countP isDropped = visits.length := by
  induction visits with
  | nil => rfl
  | cons v rest ih =>
    obtain ⟨unit, builder, reason | c⟩ := v
    · rw [List.countP_cons_of_pos rfl, List.length_cons, ← ih]
      rfl
    · rw [List.countP_cons_of_neg Bool.false_ne_true, List.length_cons, ← ih, Nat.add_right_comm]
      rfl

end Visit

namespace Writer

variable {σ : Type}

/-- The writer that also remembers the calls that were made. -/
def recording (w : Writer σ) : Writer (σ × List (String × String)) where
  files state := w.files state.1
  write state name text :=
    let (next, result) := w.write state.1 name text
    ((next, state.2 ++ [(name, text)]), result)

/-- What calls leave, whether they fail or not. -/
def after (w : Writer σ) (state : σ) (calls : List (String × String)) : σ :=
  calls.foldl (fun state call => (w.write state call.1 call.2).1) state

/-- No call fails, each being made after those before it. -/
def Accepts (w : Writer σ) (state : σ) (calls : List (String × String)) : Prop :=
  ∀ before call later, calls = before ++ call :: later →
    (w.write (w.after state before) call.1 call.2).2 = .ok ()

/-- Each builder has yielded what it comes to with the files that the calls for the builders before
it have left. -/
def Yields (w : Writer σ) (state : σ) (visits : List Visit) : Prop :=
  ∀ before v later, visits = before ++ v :: later →
    v.builder.ComesTo (w.files (w.after state (Visit.calls before))) v.yielded

variable {w : Writer σ} {state : σ}

theorem after_append (calls calls' : List (String × String)) :
    w.after state (calls ++ calls') = w.after (w.after state calls) calls' :=
  List.foldl_append

theorem accepts_nil : w.Accepts state [] := fun _ _ _ h => absurd h (by simp)

theorem accepts_cons_iff {call : String × String} {calls : List (String × String)} :
    w.Accepts state (call :: calls) ↔ (w.write state call.1 call.2).2 = .ok () ∧
      w.Accepts (w.write state call.1 call.2).1 calls :=
  forall_split_cons

theorem yields_nil : w.Yields state [] := fun _ _ _ h => absurd h (by simp)

theorem yields_cons_iff {v : Visit} {visits : List Visit} :
    w.Yields state (v :: visits) ↔ v.builder.ComesTo (w.files state) v.yielded ∧
      w.Yields (w.after state (Visit.calls [v])) visits := by
  refine (forall_split_cons (P := fun (before : List Visit) (v : Visit) =>
    v.builder.ComesTo (w.files (w.after state (Visit.calls before))) v.yielded)).trans
    (and_congr Iff.rfl (forall_congr' fun before => ?_))
  rw [← List.singleton_append, Visit.calls_append, after_append]

end Writer

/-- The result with calls beside its state. -/
def RunResult.withCalls {σ : Type} (run : RunResult σ) (calls : List (String × String)) :
    RunResult (σ × List (String × String)) :=
  { run with state := (run.state, calls) }

variable {σ : Type} {w : Writer σ} {state : σ} {index : Nat} {start : RunSummary} {unit : String}
  {builder : Builder} {rest later : List (String × Builder)} {visits : List Visit}
  {c : Composition} {reason : DropReason} {cause : List String}

/-! ## How a run ends -/

/-- How a run ends that has begun with a summary and has run these builders, but none of those
behind them: every call was accepted and no builder is left, or the call for the last builder that
was run has failed. -/
inductive Ends (w : Writer σ) (state : σ) (start : RunSummary) (visits : List Visit)
    (later : List (String × Builder)) : Except RunError RunSummary → Prop where
  | through {total : RunSummary} (reached : later = [])
    (accepted : w.Accepts state (Visit.calls visits))
    (written : total.written = start.written + (Visit.calls visits).length)
    (dropped : total.dropped = start.dropped + visits.countP Visit.isDropped) :
    Ends w state start visits later (.ok total)
  | refused (before : List Visit) {unit : String} {builder : Builder} {c : Composition}
    {cause : List String} (last : visits = before ++ [⟨unit, builder, .ok c⟩])
    (accepted : w.Accepts state (Visit.calls before))
    (fails : (w.write (w.after state (Visit.calls before)) c.call.1 c.call.2).2 = .error cause) :
    Ends w state start visits later (.error ⟨c.name, unit, cause⟩)

namespace Ends

variable {outcome : Except RunError RunSummary}

theorem cons_dropped
    (h : Ends w state { start with dropped := start.dropped + 1 } visits later outcome) :
    Ends w state start (⟨unit, builder, .error reason⟩ :: visits) later outcome := by
  cases h with
  | through reached accepted written dropped =>
    refine .through reached accepted written ?_
    rw [dropped, List.countP_cons_of_pos rfl, Nat.add_assoc, Nat.add_comm 1]
  | refused before last accepted fails =>
    exact .refused (⟨unit, builder, .error reason⟩ :: before) (congrArg _ last) accepted fails

theorem cons_written (hw : (w.write state c.call.1 c.call.2).2 = .ok ())
    (h : Ends w (w.write state c.call.1 c.call.2).1 { start with written := start.written + 1 }
      visits later outcome) :
    Ends w state start (⟨unit, builder, .ok c⟩ :: visits) later outcome := by
  cases h with
  | through reached accepted written dropped =>
    refine .through reached (Writer.accepts_cons_iff.mpr ⟨hw, accepted⟩) ?_ dropped
    rw [written, Nat.add_assoc, Nat.add_comm 1]
    rfl
  | refused before last accepted fails =>
    exact .refused (⟨unit, builder, .ok c⟩ :: before) (congrArg _ last)
      (Writer.accepts_cons_iff.mpr ⟨hw, accepted⟩) fails

end Ends

/-! ## All builders -/

/-- What a run does that begins at an index with a summary: the builders that it runs, with what
they yield, and those that it does not reach. -/
structure Course (w : Writer σ) (index : Nat) (start : RunSummary)
    (builders : List (String × Builder)) (state : σ) (visits : List Visit)
    (later : List (String × Builder)) : Prop where
  split : builders = visits.map Visit.entry ++ later
  yields : w.Yields state visits
  leaves : (runFrom w index start builders state).state = w.after state (Visit.calls visits)
  ends : Ends w state start visits later (runFrom w index start builders state).outcome
  /-- The recording writer is called for what was yielded, and the run does not notice it. -/
  recorded : ∀ made, runFrom w.recording index start builders (state, made) =
    (runFrom w index start builders state).withCalls (made ++ Visit.calls visits)
  /-- A run that fails does not depend on the builders that it has not reached. -/
  aborts : ∀ error, (runFrom w index start builders state).outcome = .error error → ∀ others,
    runFrom w index start (visits.map Visit.entry ++ others) state =
      runFrom w index start builders state

namespace Course

theorem nil : Course w index start [] state [] [] where
  split := rfl
  yields := Writer.yields_nil
  leaves := rfl
  ends := .through rfl Writer.accepts_nil rfl rfl
  recorded made := by
    rw [Visit.calls, List.filterMap_nil, List.append_nil]
    rfl
  aborts _ h := nomatch h

theorem cons_dropped (hc : (builder.compose (w.files state)).2 = .error reason)
    (h : Course w (index + 1) { start with dropped := start.dropped + 1 } rest state visits later) :
    Course w index start ((unit, builder) :: rest) state (⟨unit, builder, .error reason⟩ :: visits)
      later where
  split := congrArg _ h.split
  yields := Writer.yields_cons_iff.mpr ⟨hc ▸ builder.comesTo_compose _, h.yields⟩
  leaves := by
    rw [runFrom_dropped hc]
    exact h.leaves
  ends := by
    rw [runFrom_dropped hc]
    exact h.ends.cons_dropped
  recorded made := by
    -- The recording writer shows builders the same files, so the same rule applies to it.
    have hc' : (builder.compose (w.recording.files (state, made))).2 = .error reason := hc
    rw [runFrom_dropped hc, runFrom_dropped hc', h.recorded]
    rfl
  aborts error he others := by
    rw [runFrom_dropped hc] at he ⊢
    rw [← h.aborts error he others]
    exact runFrom_dropped hc

theorem cons_written (hc : (builder.compose (w.files state)).2 = .ok c)
    (hw : (w.write state c.call.1 c.call.2).2 = .ok ())
    (h : Course w (index + 1) { start with written := start.written + 1 } rest
      (w.write state c.call.1 c.call.2).1 visits later) :
    Course w index start ((unit, builder) :: rest) state (⟨unit, builder, .ok c⟩ :: visits)
      later where
  split := congrArg _ h.split
  yields := Writer.yields_cons_iff.mpr ⟨hc ▸ builder.comesTo_compose _, h.yields⟩
  leaves := by
    rw [runFrom_written hc hw]
    exact h.leaves
  ends := by
    rw [runFrom_written hc hw]
    exact h.ends.cons_written hw
  recorded made := by
    have hc' : (builder.compose (w.recording.files (state, made))).2 = .ok c := hc
    have hw' : (w.recording.write (state, made) c.call.1 c.call.2).2 = .ok () := hw
    rw [runFrom_written hc hw, runFrom_written hc' hw']
    refine (congrArg (RunResult.after _) (h.recorded (made ++ [c.call]))).trans ?_
    rw [List.append_assoc]
    rfl
  aborts error he others := by
    rw [runFrom_written hc hw] at he ⊢
    rw [← h.aborts error he others]
    exact runFrom_written hc hw

theorem refused (hc : (builder.compose (w.files state)).2 = .ok c)
    (hw : (w.write state c.call.1 c.call.2).2 = .error cause) :
    Course w index start ((unit, builder) :: rest) state [⟨unit, builder, .ok c⟩] rest where
  split := rfl
  yields := Writer.yields_cons_iff.mpr ⟨hc ▸ builder.comesTo_compose _, Writer.yields_nil⟩
  leaves := by
    rw [runFrom_refused hc hw]
    rfl
  ends := by
    rw [runFrom_refused hc hw]
    exact .refused [] rfl Writer.accepts_nil hw
  recorded made := by
    have hc' : (builder.compose (w.recording.files (state, made))).2 = .ok c := hc
    have hw' : (w.recording.write (state, made) c.call.1 c.call.2).2 = .error cause := hw
    rw [runFrom_refused hc hw, runFrom_refused hc' hw']
    rfl
  aborts _ _ others := by
    rw [runFrom_refused hc hw]
    exact runFrom_refused hc hw

end Course

theorem exists_course (w : Writer σ) (index : Nat) (start : RunSummary)
    (builders : List (String × Builder)) (state : σ) :
    ∃ visits later, Course w index start builders state visits later := by
  induction builders generalizing index start state with
  | nil => exact ⟨[], [], .nil⟩
  | cons entry rest ih =>
    obtain ⟨unit, builder⟩ := entry
    rcases hc : (builder.compose (w.files state)).2 with reason | c
    · obtain ⟨visits, later, h⟩ :=
        ih (index + 1) { start with dropped := start.dropped + 1 } state
      exact ⟨_, later, h.cons_dropped hc⟩
    · rcases hw : (w.write state c.call.1 c.call.2).2 with cause | _
      -- A failed call ends the run, so the builders behind this one are those not reached.
      · exact ⟨_, rest, .refused hc hw⟩
      · obtain ⟨visits, later, h⟩ := ih (index + 1) { start with written := start.written + 1 }
          (w.write state c.call.1 c.call.2).1
        exact ⟨_, later, h.cons_written hc hw⟩

/-- A run that ends well has visited every builder. -/
theorem exists_visits_of_ok {builders : List (String × Builder)} {summary : RunSummary}
    (h : (runBuilders w builders state).outcome = .ok summary) :
    ∃ visits, builders = visits.map Visit.entry ∧ w.Yields state visits ∧
      summary.written = (Visit.calls visits).length ∧
      summary.dropped = visits.countP Visit.isDropped := by
  obtain ⟨visits, later, course⟩ := exists_course w 0 {} builders state
  have ends : Ends w state {} visits later (runBuilders w builders state).outcome := course.ends
  rw [h] at ends
  cases ends with
  | through reached accepted written dropped =>
    rw [Nat.zero_add] at written dropped
    refine ⟨visits, ?_, course.yields, written, dropped⟩
    rw [course.split, reached, List.append_nil]

/-- The builder that comes to this. -/
def fixedBuilder (outcome : BuildOutcome) : Builder :=
  ⟨.ofValue ⟨"example.org", "v1", "XExample"⟩ (.object []), fun _ => ({}, outcome)⟩

end CompositionGen
