import CompositionGen.Build
import CompositionGen.Proofs.Builder.Runs
import CompositionGen.Proofs.Registry.Making

/-!
# What a build does

Apart from compiling, a build calls its writer and removes the compiled units. Both are remembered
beside its state, which changes nothing else. A build that gets as far as compiling ends badly
exactly if one of its calls fails, and removes the compiled units after its calls unless they are
to be kept, whether a call has failed or not. Where a constructor panics, it does neither.
-/

namespace CompositionGen

/-- A call to a writer, with its answer. -/
structure AnsweredCall where
  call : String × String
  answer : Except (List String) Unit

/-- Whether a call was answered by an error. -/
def AnsweredCall.Fails (c : AnsweredCall) : Prop := ∃ cause, c.answer = .error cause

instance (c : AnsweredCall) : Decidable c.Fails :=
  match h : c.answer with
  | .ok () => .isFalse fun ⟨_, hcause⟩ => nomatch h.symm.trans hcause
  | .error cause => .isTrue ⟨cause, h⟩

/-- Something that a build does to what is around it. -/
inductive BuildAct where
  | write (call : AnsweredCall)
  | removePlugins

/-- The call to the writer, if the act is one. -/
def BuildAct.call? : BuildAct → Option AnsweredCall
  | write call => some call
  | removePlugins => none

variable {σ : Type}

/-- The writer that also remembers its calls and their answers. -/
def Writer.observed (w : Writer σ) : Writer (σ × List BuildAct) where
  files state := w.files state.1
  write state name text :=
    let (next, answer) := w.write state.1 name text
    ((next, state.2 ++ [.write ⟨(name, text), answer⟩]), answer)

namespace BuildStages

/-- The stages that also remember what is done. -/
def observed (stages : BuildStages σ) : BuildStages (σ × List BuildAct) where
  discover state := stages.discover state.1
  compile units state :=
    let (results, report, next) := stages.compile units state.1
    (results, report, next, state.2)
  linker state := stages.linker state.1
  writer := stages.writer.observed
  removePlugins state :=
    let (report, next) := stages.removePlugins state.1
    (report, next, state.2 ++ [.removePlugins])

/-- What a build does, in order. -/
def acts (stages : BuildStages σ) (keep : Bool) (state : σ) : List BuildAct :=
  (build stages.observed keep (state, [])).state.2

/-- The calls that a build makes to its writer, in order. -/
def calls (stages : BuildStages σ) (keep : Bool) (state : σ) : List AnsweredCall :=
  (stages.acts keep state).filterMap BuildAct.call?

/-- The act that cleans up, unless the compiled units are kept. -/
def cleaning (keep : Bool) : List BuildAct := if keep then [] else [.removePlugins]

end BuildStages

/-! ## Runs -/

/-- The calls that a run of builders makes, up to the first that fails. -/
def answeredCalls (w : Writer σ) : List (String × Builder) → σ → List AnsweredCall
  | [], _ => []
  | (_, builder) :: rest, state =>
    match (builder.compose (w.files state)).2 with
    | .error _ => answeredCalls w rest state
    | .ok c => match w.write state c.call.1 c.call.2 with
      | (_, .error cause) => [⟨c.call, .error cause⟩]
      | (next, .ok ()) => ⟨c.call, .ok ()⟩ :: answeredCalls w rest next

variable {w : Writer σ} {state : σ} {rest : List (String × Builder)} {unit : String}
  {builder : Builder} {c : Composition}

theorem answeredCalls_dropped {reason : DropReason}
    (hc : (builder.compose (w.files state)).2 = .error reason) :
    answeredCalls w ((unit, builder) :: rest) state = answeredCalls w rest state := by
  rw [answeredCalls, hc]

theorem answeredCalls_written (hc : (builder.compose (w.files state)).2 = .ok c)
    (hw : (w.write state c.call.1 c.call.2).2 = .ok ()) :
    answeredCalls w ((unit, builder) :: rest) state =
      ⟨c.call, .ok ()⟩ :: answeredCalls w rest (w.write state c.call.1 c.call.2).1 := by
  have hwrite : w.write state c.call.1 c.call.2 = (_, .ok ()) := Prod.ext rfl hw
  rw [answeredCalls, hc]
  simp only
  rw [hwrite]

theorem answeredCalls_refused {cause : List String}
    (hc : (builder.compose (w.files state)).2 = .ok c)
    (hw : (w.write state c.call.1 c.call.2).2 = .error cause) :
    answeredCalls w ((unit, builder) :: rest) state = [⟨c.call, .error cause⟩] := by
  have hwrite : w.write state c.call.1 c.call.2 = (_, .error cause) := Prod.ext rfl hw
  rw [answeredCalls, hc]
  simp only
  rw [hwrite]

/-- The result with acts beside its state. -/
def RunResult.withActs (run : RunResult σ) (acts : List BuildAct) :
    RunResult (σ × List BuildAct) :=
  { run with state := (run.state, acts) }

/-- A run does not notice that its calls are remembered. -/
theorem runFrom_observed (w : Writer σ) (index : Nat) (start : RunSummary)
    (builders : List (String × Builder)) (state : σ) (done : List BuildAct) :
    runFrom w.observed index start builders (state, done) =
      (runFrom w index start builders state).withActs
        (done ++ (answeredCalls w builders state).map .write) := by
  induction builders generalizing index start state done with
  | nil => simp [runFrom, RunResult.withActs, answeredCalls]
  | cons entry rest ih =>
    obtain ⟨unit, builder⟩ := entry
    rcases hc : (builder.compose (w.files state)).2 with reason | c
    · have hc' : (builder.compose (w.observed.files (state, done))).2 = .error reason := hc
      rw [runFrom_dropped hc, runFrom_dropped hc', answeredCalls_dropped hc, ih]
      rfl
    · have hc' : (builder.compose (w.observed.files (state, done))).2 = .ok c := hc
      rcases hw : (w.write state c.call.1 c.call.2).2 with cause | _
      · have hw' : (w.observed.write (state, done) c.call.1 c.call.2).2 = .error cause := hw
        rw [runFrom_refused hc hw, runFrom_refused hc' hw', answeredCalls_refused hc hw, ← hw]
        rfl
      · have hw' : (w.observed.write (state, done) c.call.1 c.call.2).2 = .ok () := hw
        rw [runFrom_written hc hw, runFrom_written hc' hw', answeredCalls_written hc hw, ← hw]
        refine (congrArg (RunResult.after _) (ih _ _ _ (done ++ [.write ⟨c.call, _⟩]))).trans ?_
        rw [List.append_assoc]
        rfl

/-- A run ends badly exactly if one of its calls fails. -/
theorem runFrom_error_iff (w : Writer σ) (index : Nat) (start : RunSummary)
    (builders : List (String × Builder)) (state : σ) :
    (∃ error, (runFrom w index start builders state).outcome = .error error) ↔
      ∃ call ∈ answeredCalls w builders state, call.Fails := by
  induction builders generalizing index start state with
  | nil => simp [runFrom, answeredCalls]
  | cons entry rest ih =>
    obtain ⟨unit, builder⟩ := entry
    rcases hc : (builder.compose (w.files state)).2 with reason | c
    · rw [runFrom_dropped hc, answeredCalls_dropped hc]
      exact ih _ _ _
    · rcases hw : (w.write state c.call.1 c.call.2).2 with cause | _
      · rw [runFrom_refused hc hw, answeredCalls_refused hc hw]
        exact iff_of_true ⟨_, rfl⟩ ⟨_, List.mem_cons_self, cause, rfl⟩
      · rw [runFrom_written hc hw, answeredCalls_written hc hw]
        simp only [List.mem_cons, exists_eq_or_imp]
        refine (ih _ _ _).trans (or_iff_right ?_).symm
        rintro ⟨cause, hcause⟩
        cases hcause

/-! ## Builds -/

/-- The result with acts beside its state. -/
def BuildResult.withActs (result : BuildResult σ) (acts : List BuildAct) :
    BuildResult (σ × List BuildAct) :=
  { result with state := (result.state, acts) }

namespace BuildStages

variable {stages : BuildStages σ} {keep : Bool} {units : List BuildUnit}

/-- The state after compiling. -/
def compiled (stages : BuildStages σ) (units : List BuildUnit) (state : σ) : σ :=
  (stages.compile units state).2.2

/-- The builders that are registered after compiling. -/
def registered (stages : BuildStages σ) (units : List BuildUnit) (state : σ) :
    List (String × Builder) :=
  (Registry.loadAll (stages.linker (stages.compiled units state)) ⟨.empty⟩
    (stages.compile units state).1).registry.builders

/-- A constructor that is called after compiling panics. -/
def Panics (stages : BuildStages σ) (units : List BuildUnit) (state : σ) : Prop :=
  ∃ r ∈ (stages.compile units state).1, ∃ panic,
    r.PanicsWith (stages.linker (stages.compiled units state)) panic

theorem cleanUp_observed (state : σ) (done : List BuildAct) :
    stages.observed.cleanUp keep (state, done) =
      ((stages.cleanUp keep state).1, (stages.cleanUp keep state).2, done ++ cleaning keep) := by
  cases keep
  · rfl
  · simp [cleanUp, cleaning]

theorem build_observed_of_error {cause : BuildUnit.DiscoveryError}
    (h : stages.discover state = .error cause) :
    build stages.observed keep (state, []) = (build stages keep state).withActs [] := by
  have h' : stages.observed.discover (state, []) = .error cause := h
  rw [build, h', build, h]
  rfl

/-- What is loaded after compiling. -/
abbrev loading (stages : BuildStages σ) (units : List BuildUnit) (state : σ) :
    Except Panic Unit × Registry.Loading :=
  Registry.loadAllOrPanic (stages.linker (stages.compiled units state)) ⟨.empty⟩
    (stages.compile units state).1

theorem loading_of_not_panics (hreturn : ¬stages.Panics units state) :
    stages.loading units state = (.ok (), Registry.loadAll
      (stages.linker (stages.compiled units state)) ⟨.empty⟩ (stages.compile units state).1) := by
  rcases Registry.loadAllOrPanic_cases (stages.linker (stages.compiled units state)) ⟨.empty⟩
    (stages.compile units state).1 with ⟨-, hloading⟩ | ⟨before, r, rest, panic, hresults, -, hr, -⟩
  · exact hloading
  · refine absurd ⟨r, ?_, panic, hr⟩ hreturn
    rw [hresults]
    exact List.mem_append_right _ List.mem_cons_self

theorem loading_of_panics (hpanics : stages.Panics units state) :
    ∃ panic, (stages.loading units state).1 = .error panic := by
  rcases Registry.loadAllOrPanic_cases (stages.linker (stages.compiled units state)) ⟨.empty⟩
    (stages.compile units state).1 with ⟨hnone, -⟩ | ⟨_, _, _, panic, -, -, -, hloading⟩
  · obtain ⟨r, hr, panic, hpanic⟩ := hpanics
    exact absurd hpanic (hnone r hr panic)
  · exact ⟨panic, congrArg Prod.fst hloading⟩

/-- What a build comes to that has found its units, if all constructors return. -/
theorem build_of_ok (h : stages.discover state = .ok units) (hreturn : ¬stages.Panics units state) :
    build stages keep state =
      let run := runBuilders stages.writer (stages.registered units state)
        (stages.compiled units state)
      let (results, compileReport, compiled) := stages.compile units state
      let loading := Registry.loadAll (stages.linker compiled) ⟨.empty⟩ results
      let (cleanReport, final) := stages.cleanUp keep run.state
      { state := final
        report := compileReport ++ loading.report ++ run.report ++ cleanReport
        outcome := match run.outcome with
          | .error cause => .error (.run cause)
          | .ok summary => .ok {
              units := units.length, compiled := compiledCount results, loaded := loading.loaded
              written := summary.written, dropped := summary.dropped } } := by
  have hloading : Registry.loadAllOrPanic (stages.linker (stages.compile units state).2.2) ⟨.empty⟩
      (stages.compile units state).1 = (.ok (), _) := loading_of_not_panics hreturn
  rw [build, h]
  simp only [hloading]
  rfl

/-- What a build comes to if a constructor panics. -/
theorem build_of_panics (keep : Bool) (h : stages.discover state = .ok units)
    (hpanics : stages.Panics units state) :
    ∃ panic, build stages keep state =
      { state := stages.compiled units state
        report := (stages.compile units state).2.1 ++ (stages.loading units state).2.report
        outcome := .error (.panicked panic) } := by
  obtain ⟨panic, hpanic⟩ := loading_of_panics hpanics
  have hloading : Registry.loadAllOrPanic (stages.linker (stages.compile units state).2.2) ⟨.empty⟩
      (stages.compile units state).1 = (.error panic, (stages.loading units state).2) :=
    Prod.ext hpanic rfl
  refine ⟨panic, ?_⟩
  rw [build, h]
  simp only [hloading]
  rfl

theorem build_observed_of_ok (h : stages.discover state = .ok units)
    (hreturn : ¬stages.Panics units state) :
    build stages.observed keep (state, []) = (build stages keep state).withActs
      ((answeredCalls stages.writer (stages.registered units state)
        (stages.compiled units state)).map .write ++ cleaning keep) := by
  have h' : stages.observed.discover (state, []) = .ok units := h
  have hreturn' : ¬stages.observed.Panics units (state, []) := hreturn
  have hrun : runBuilders stages.observed.writer (stages.observed.registered units (state, []))
        (stages.observed.compiled units (state, [])) =
      (runBuilders stages.writer (stages.registered units state)
        (stages.compiled units state)).withActs
        (([] : List BuildAct) ++ (answeredCalls stages.writer (stages.registered units state)
          (stages.compiled units state)).map .write) :=
    runFrom_observed stages.writer 0 {} (stages.registered units state)
      (stages.compiled units state) []
  rw [build_of_ok h' hreturn', build_of_ok h hreturn, hrun]
  simp only [RunResult.withActs, cleanUp_observed, List.nil_append]
  rfl

theorem build_observed_of_panics (h : stages.discover state = .ok units)
    (hpanics : stages.Panics units state) :
    build stages.observed keep (state, []) = (build stages keep state).withActs [] := by
  have h' : stages.observed.discover (state, []) = .ok units := h
  obtain ⟨panic, hpanic⟩ := loading_of_panics hpanics
  have hloading : Registry.loadAllOrPanic (stages.linker (stages.compile units state).2.2) ⟨.empty⟩
      (stages.compile units state).1 = (.error panic, (stages.loading units state).2) :=
    Prod.ext hpanic rfl
  have hloading' : Registry.loadAllOrPanic
      (stages.observed.linker (stages.observed.compile units (state, [])).2.2) ⟨.empty⟩
      (stages.observed.compile units (state, [])).1 =
        (.error panic, (stages.loading units state).2) := hloading
  rw [build, h', build, h]
  simp only [hloading, hloading']
  rfl

theorem build_error_iff (h : stages.discover state = .ok units)
    (hreturn : ¬stages.Panics units state) :
    (∃ failure, (build stages keep state).outcome = .error failure) ↔
      ∃ call ∈ answeredCalls stages.writer (stages.registered units state)
        (stages.compiled units state), call.Fails := by
  rw [← runFrom_error_iff stages.writer 0 {} (stages.registered units state),
    build_of_ok h hreturn]
  rcases hrun : runFrom stages.writer 0 {} (stages.registered units state)
    (stages.compiled units state) with ⟨final, report, cause | summary⟩
  · simp [runBuilders, hrun]
  · simp [runBuilders, hrun]

/-- Remembering what is done changes nothing else. What is done after compiling is that the writer
is called and then, unless they are kept, the compiled units are removed. -/
theorem acts_of_ok (h : stages.discover state = .ok units) (hreturn : ¬stages.Panics units state) :
    stages.acts keep state = (stages.calls keep state).map .write ++ cleaning keep ∧
      stages.calls keep state = answeredCalls stages.writer (stages.registered units state)
        (stages.compiled units state) := by
  have hacts : stages.acts keep state = (answeredCalls stages.writer
      (stages.registered units state) (stages.compiled units state)).map .write ++
        cleaning keep := by
    rw [acts, build_observed_of_ok h hreturn]
    rfl
  have hcalls : stages.calls keep state = answeredCalls stages.writer
      (stages.registered units state) (stages.compiled units state) := by
    have hclean : (cleaning keep).filterMap BuildAct.call? = [] := by cases keep <;> rfl
    rw [calls, hacts, List.filterMap_append, hclean, List.append_nil, List.filterMap_map]
    exact List.filterMap_some
  exact ⟨hcalls ▸ hacts, hcalls⟩

theorem acts_of_error {cause : BuildUnit.DiscoveryError}
    (h : stages.discover state = .error cause) :
    stages.acts keep state = [] := by
  rw [acts, build_observed_of_error h]
  rfl

/-- A panic leaves everything as it is after compiling. -/
theorem acts_of_panics (h : stages.discover state = .ok units)
    (hpanics : stages.Panics units state) : stages.acts keep state = [] := by
  rw [acts, build_observed_of_panics h hpanics]
  rfl

theorem build_observed (stages : BuildStages σ) (keep : Bool) (state : σ) :
    build stages.observed keep (state, []) =
      (build stages keep state).withActs (stages.acts keep state) := by
  rcases h : stages.discover state with cause | units
  · rw [acts, build_observed_of_error h]
    rfl
  · by_cases hpanics : stages.Panics units state
    · rw [acts, build_observed_of_panics h hpanics]
      rfl
    · rw [acts, build_observed_of_ok h hpanics]
      rfl

/-- A build ends badly exactly if its units cannot be found, a constructor panics or one of its
calls fails. -/
theorem error_iff (stages : BuildStages σ) (keep : Bool) (state : σ) :
    (∃ failure, (build stages keep state).outcome = .error failure) ↔
      (∃ cause, stages.discover state = .error cause) ∨
        (∃ units, stages.discover state = .ok units ∧ stages.Panics units state) ∨
        ∃ call ∈ stages.calls keep state, call.Fails := by
  rcases h : stages.discover state with cause | units
  · refine iff_of_true ⟨.discovery cause, ?_⟩ (.inl ⟨cause, rfl⟩)
    rw [build, h]
  · by_cases hpanics : stages.Panics units state
    · obtain ⟨panic, hbuild⟩ := build_of_panics keep h hpanics
      refine iff_of_true ⟨.panicked panic, ?_⟩ (.inr (.inl ⟨units, rfl, hpanics⟩))
      rw [hbuild]
    · rw [build_error_iff h hpanics, (acts_of_ok h hpanics).2]
      refine ⟨fun hfails => .inr (.inr hfails), ?_⟩
      rintro (⟨cause, hcause⟩ | ⟨units', hunits, hpanics'⟩ | hfails)
      · cases hcause
      · cases hunits
        exact absurd hpanics' hpanics
      · exact hfails

end BuildStages

end CompositionGen
