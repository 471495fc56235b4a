import CompositionGen.Proofs.Compile.Polling
import CompositionGen.Proofs.Files.Paths
import Mathlib.Data.List.Nodup

/-!
# Stages of a job

A job makes a directory, prepares a command, starts it, waits until it is over, looks at how it has
ended, and then polls for the artifact. The first of these stages that fails says what the job comes
to, whatever is the case with the later ones. So each stage is taken at most once, and only the poll
asks for the same thing again.
-/

namespace CompositionGen

/-- What an exchange is about. -/
inductive Exchange.Kind where
  | look
  | createDirectories
  | watch
  | copy
  | pause
  deriving DecidableEq

/-- What an exchange is about. -/
def Exchange.kind : Exchange → Kind
  | looked _ => .look
  | createdDirectories _ _ => .createDirectories
  | watched _ _ _ => .watch
  | copied _ _ _ => .copy
  | paused _ => .pause

/-- A program has not ended, or one of its streams was not read to its end or to a fault. -/
def Child.Unfinished (child : Child) : Prop :=
  child.exit = none ∨ child.stdout.isOver = false ∨ child.stderr.isOver = false

section

variable (c : Compiler) (unit : BuildUnit) (artifact : Path)

/-- What a job asks for until the directory of its artifact is there. -/
inductive Opens : List Exchange → Prop
  | atOnce : artifact.parent? = none → Opens []
  | inDirectory {above : Path} : artifact.parent? = some above →
    Opens [.createdDirectories above (.ok ())]

/-- What a job asks for before it starts its program, with the command that it comes to. -/
inductive Prepares : List Exchange → Except Panic Command → Prop
  | intro {made : List Exchange} {files : FileSystem} {prepared : Except Panic Command} :
    Opens artifact made → c.toolchain.command files unit artifact = prepared →
    Prepares (made ++ [.looked files]) prepared

/-- What a program that was started leads to: an outcome at once, or a poll for the library that
was announced. -/
inductive LeadsTo (child : Child) : List Exchange → Except CompileError Path → Prop
  | late : child.Unfinished → LeadsTo child [] (.error (.timeout c.config.timeout))
  | unknown {cause : FileError} : ¬child.Unfinished → child.exit = some (.error cause) →
    LeadsTo child [] (.error (.wait cause))
  | failed {status : ExitStatus} : ¬child.Unfinished → child.exit = some (.ok status) →
    status ≠ .code 0 → LeadsTo child [] (.error (.failed status))
  | polled {poll : List Exchange} {outcome : Except CompileError Path} :
    ¬child.Unfinished → child.exit = some (.ok (.code 0)) →
    (awaitArtifact c.config artifact (child.stdout.read.announced? c.toolchain.interpret)
      c.config.pollAttempts).Course poll outcome →
    LeadsTo child poll outcome

/-- What a job asks for and what it comes to, by the first stage that fails. -/
inductive ComesTo : List Exchange → Except CompileError Path → Prop
  | noDirectory {above : Path} {cause : FileError} : artifact.parent? = some above →
    ComesTo [.createdDirectories above (.error cause)] (.error (.io above cause))
  | notStarted {before : List Exchange} {command : Command} {cause : FileError} :
    Prepares c unit artifact before (.ok command) →
    ComesTo (before ++ [.watched command unit.sourcePath (.error cause)])
      (.error (.spawn command.shown.program cause))
  | started {before poll : List Exchange} {command : Command} {child : Child}
      {outcome : Except CompileError Path} :
    Prepares c unit artifact before (.ok command) → LeadsTo c artifact child poll outcome →
    ComesTo (before ++ .watched command unit.sourcePath (.ok child) :: poll) outcome

end

section

variable {c : Compiler} {unit : BuildUnit} {artifact : Path} {command : Command} {child : Child}
  {es before poll : List Exchange} {outcome : Except CompileError Path}

/-! ## One stage after another -/

theorem course_makeParent_iff {made : Except CompileError Unit} :
    (makeParent artifact).Course es made ↔
      (∃ above cause, artifact.parent? = some above ∧
        es = [.createdDirectories above (.error cause)] ∧ made = .error (.io above cause)) ∨
      (Opens artifact es ∧ made = .ok ()) := by
  unfold makeParent
  constructor
  · intro h
    split at h
    · next hnone =>
      obtain ⟨rfl, rfl⟩ := Activity.course_done_iff.mp h
      exact .inr ⟨.atOnce hnone, rfl⟩
    · next above habove =>
      obtain ⟨answer, later, rfl, hlast⟩ := Activity.course_createDirectories_iff.mp h
      obtain ⟨rfl, rfl⟩ := Activity.course_done_iff.mp hlast
      cases answer with
      | error cause => exact .inl ⟨above, cause, habove, rfl, rfl⟩
      | ok => exact .inr ⟨.inDirectory habove, rfl⟩
  · rintro (⟨above, cause, habove, rfl, rfl⟩ | ⟨hopens, rfl⟩)
    · rw [habove]
      exact Activity.course_createDirectories_iff.mpr ⟨.error cause, [], rfl, .refl _⟩
    · cases hopens with
      | atOnce hnone =>
        rw [hnone]
        exact .refl _
      | inDirectory habove =>
        rw [habove]
        exact Activity.course_createDirectories_iff.mpr ⟨.ok (), [], rfl, .refl _⟩

theorem classify_of_unfinished (config : CompileConfig) (h : child.Unfinished) :
    classify config child = .error (.timeout config.timeout) := by
  unfold classify
  rcases h with h | h | h
  · rw [h]
  · rw [h, Bool.false_and]
    split <;> first | rfl | contradiction
  · rw [h, Bool.and_false]
    split <;> first | rfl | contradiction

theorem classify_of_not_unfinished (config : CompileConfig) (h : ¬child.Unfinished) :
    classify config child = match child.exit with
      | some (.ok status) => if status.success then .ok () else .error (.failed status)
      | some (.error cause) => .error (.wait cause)
      | none => .error (.timeout config.timeout) := by
  have hover : (child.stdout.isOver && child.stderr.isOver) = true := by
    simp only [Child.Unfinished, not_or, Bool.not_eq_false] at h
    rw [h.2.1, h.2.2, Bool.and_self]
  unfold classify
  rw [hover]
  rcases child.exit with _ | cause | status <;> rfl

theorem success_iff {status : ExitStatus} : status.success = true ↔ status = .code 0 := by
  rw [ExitStatus.success, beq_iff_eq]

/-- A program leads on to the poll, or to what is wrong with its end. -/
theorem leadsTo_iff : LeadsTo c artifact child es outcome ↔
    (∃ cause, classify c.config child = .error cause ∧ es = [] ∧ outcome = .error cause) ∨
    (classify c.config child = .ok () ∧
      (awaitArtifact c.config artifact (child.stdout.read.announced? c.toolchain.interpret)
        c.config.pollAttempts).Course es outcome) := by
  constructor
  · intro h
    cases h with
    | late hlate => exact .inl ⟨_, classify_of_unfinished _ hlate, rfl, rfl⟩
    | @unknown cause hover hexit =>
      refine .inl ⟨.wait cause, ?_, rfl, rfl⟩
      rw [classify_of_not_unfinished _ hover, hexit]
    | @failed status hover hexit hstatus =>
      refine .inl ⟨.failed status, ?_, rfl, rfl⟩
      rw [classify_of_not_unfinished _ hover, hexit]
      exact if_neg (mt success_iff.mp hstatus)
    | polled hover hexit hpoll =>
      refine .inr ⟨?_, hpoll⟩
      rw [classify_of_not_unfinished _ hover, hexit]
      rfl
  · intro h
    -- The questions come in the order of the stages: over in time, waited for, and with which
    -- status.
    by_cases hover : child.Unfinished
    · rw [classify_of_unfinished _ hover] at h
      obtain ⟨cause, heq, rfl, rfl⟩ | ⟨heq, -⟩ := h
      · cases heq
        exact .late hover
      · cases heq
    rw [classify_of_not_unfinished _ hover] at h
    rcases hexit : child.exit with _ | cause | status
    · exact absurd (.inl hexit) hover
    · rw [hexit] at h
      obtain ⟨cause, heq, rfl, rfl⟩ | ⟨heq, -⟩ := h
      · cases heq
        exact .unknown hover hexit
      · cases heq
    · rw [hexit] at h
      by_cases hstatus : status = .code 0
      · subst hstatus
        obtain ⟨cause, heq, -⟩ | ⟨-, hpoll⟩ := h
        · cases heq
        · exact .polled hover hexit hpoll
      · simp only [success_iff, if_neg hstatus] at h
        obtain ⟨cause, heq, rfl, rfl⟩ | ⟨heq, -⟩ := h
        · cases heq
          exact .failed hover hexit hstatus
        · cases heq

theorem course_seeThrough_iff {run : JobRun} :
    (seeThrough c unit artifact command).Course es run ↔
      (∃ cause, es = [.watched command unit.sourcePath (.error cause)] ∧
        run = ⟨.error (.spawn command.shown.program cause), {}⟩) ∨
      ∃ child poll outcome, es = .watched command unit.sourcePath (.ok child) :: poll ∧
        LeadsTo c artifact child poll outcome ∧
        run = ⟨outcome, reportOutput c.toolchain unit child⟩ := by
  simp only [seeThrough, Activity.course_watch_iff]
  constructor
  · rintro ⟨answer, later, rfl, h⟩
    rcases answer with cause | child
    · obtain ⟨rfl, rfl⟩ := Activity.course_done_iff.mp h
      exact .inl ⟨cause, rfl, rfl⟩
    · simp only [leadsTo_iff]
      cases hend : classify c.config child with
      | error cause =>
        simp only [hend] at h
        obtain ⟨rfl, rfl⟩ := Activity.course_done_iff.mp h
        exact .inr ⟨child, [], _, rfl, .inl ⟨cause, hend, rfl, rfl⟩, rfl⟩
      | ok =>
        simp only [hend] at h
        obtain ⟨poll, last, outcome, rfl, hpoll, hlast⟩ := Activity.course_andThen_iff.mp h
        obtain ⟨rfl, rfl⟩ := Activity.course_done_iff.mp hlast
        rw [List.append_nil]
        exact .inr ⟨child, poll, outcome, rfl, .inr ⟨hend, hpoll⟩, rfl⟩
  · rintro (⟨cause, rfl, rfl⟩ | ⟨child, poll, outcome, rfl, hleads, rfl⟩)
    · exact ⟨.error cause, [], rfl, .refl _⟩
    · refine ⟨.ok child, poll, rfl, ?_⟩
      rcases leadsTo_iff.mp hleads with ⟨cause, hend, rfl, rfl⟩ | ⟨hend, hpoll⟩
      · simp only [hend]
        exact .refl _
      · simp only [hend]
        exact Activity.course_andThen_iff.mpr
          ⟨poll, [], outcome, (List.append_nil poll).symm, hpoll, .refl _⟩

/-- A job fails in making its directory, or panics in preparing its command, or goes on to start
it. -/
theorem course_runStages_iff {result : Except Panic JobRun} :
    (runStages c unit artifact).Course es result ↔
      (∃ above cause, artifact.parent? = some above ∧
        es = [.createdDirectories above (.error cause)] ∧
        result = .ok ⟨.error (.io above cause), {}⟩) ∨
      (∃ panic, Prepares c unit artifact es (.error panic) ∧ result = .error panic) ∨
      ∃ before command after run, Prepares c unit artifact before (.ok command) ∧
        es = before ++ after ∧ (seeThrough c unit artifact command).Course after run ∧
        result = .ok run := by
  unfold runStages
  rw [Activity.course_andThen_iff]
  -- The exchanges are cut where the directory has been made, and again where the command is known.
  constructor
  · rintro ⟨made, rest, answer, rfl, hmade, h⟩
    obtain ⟨above, cause, habove, rfl, rfl⟩ | ⟨hopens, rfl⟩ := course_makeParent_iff.mp hmade
    · obtain ⟨rfl, rfl⟩ := Activity.course_done_iff.mp h
      exact .inl ⟨above, cause, habove, rfl, rfl⟩
    · obtain ⟨files, later, rfl, hlater⟩ := Activity.course_look_iff.mp h
      cases hcommand : c.toolchain.command files unit artifact with
      | error panic =>
        simp only [hcommand] at hlater
        obtain ⟨rfl, rfl⟩ := Activity.course_done_iff.mp hlater
        exact .inr (.inl ⟨panic, .intro hopens hcommand, rfl⟩)
      | ok command =>
        simp only [hcommand] at hlater
        obtain ⟨after, last, run, rfl, hafter, hlast⟩ := Activity.course_andThen_iff.mp hlater
        obtain ⟨rfl, rfl⟩ := Activity.course_done_iff.mp hlast
        refine .inr (.inr ⟨_, command, after, run, .intro hopens hcommand, ?_, hafter, rfl⟩)
        rw [List.append_nil, List.append_assoc, List.singleton_append]
  · rintro (⟨above, cause, habove, rfl, rfl⟩ | ⟨panic, hprepares, rfl⟩ |
      ⟨before, command, after, run, hprepares, rfl, hafter, rfl⟩)
    · exact ⟨_, [], _, (List.append_nil _).symm,
        course_makeParent_iff.mpr (.inl ⟨above, cause, habove, rfl, rfl⟩), .refl _⟩
    · cases hprepares with
      | @intro made files _ hopens hcommand =>
        refine ⟨made, [.looked files], .ok (), rfl, course_makeParent_iff.mpr (.inr ⟨hopens, rfl⟩),
          Activity.course_look_iff.mpr ⟨files, [], rfl, ?_⟩⟩
        simp only [hcommand]
        exact .refl _
    · cases hprepares with
      | @intro made files _ hopens hcommand =>
        refine ⟨made, .looked files :: after, .ok (), List.append_assoc ..,
          course_makeParent_iff.mpr (.inr ⟨hopens, rfl⟩),
          Activity.course_look_iff.mpr ⟨files, after, rfl, ?_⟩⟩
        simp only [hcommand]
        exact Activity.course_andThen_iff.mpr
          ⟨after, [], run, (List.append_nil after).symm, hafter, .refl _⟩

/-- A job comes to what its first failing stage says. -/
theorem exists_course_iff_comesTo :
    (∃ report, (runStages c unit artifact).Course es (.ok ⟨outcome, report⟩)) ↔
      ComesTo c unit artifact es outcome := by
  simp only [course_runStages_iff, course_seeThrough_iff]
  constructor
  · rintro ⟨report, ⟨above, cause, habove, rfl, heq⟩ | ⟨panic, -, heq⟩ |
      ⟨before, command, after, run, hprepares, rfl,
        ⟨cause, rfl, rfl⟩ | ⟨child, poll, _, rfl, hleads, rfl⟩, heq⟩⟩
    · cases heq
      exact .noDirectory habove
    · cases heq
    · cases heq
      exact .notStarted hprepares
    · cases heq
      exact .started hprepares hleads
  · intro h
    cases h with
    | @noDirectory above cause habove => exact ⟨{}, .inl ⟨above, cause, habove, rfl, rfl⟩⟩
    | @notStarted before command cause hprepares =>
      exact ⟨{}, .inr (.inr ⟨before, command, _, _, hprepares, rfl,
        .inl ⟨cause, rfl, rfl⟩, rfl⟩)⟩
    | @started before poll command child outcome hprepares hleads =>
      exact ⟨_, .inr (.inr ⟨before, command, _, _, hprepares, rfl,
        .inr ⟨child, poll, outcome, rfl, hleads, rfl⟩, rfl⟩)⟩

theorem course_error_iff_prepares {panic : Panic} :
    (runStages c unit artifact).Course es (.error panic) ↔
      Prepares c unit artifact es (.error panic) := by
  rw [course_runStages_iff]
  constructor
  · rintro (⟨above, cause, -, -, heq⟩ | ⟨_, hprepares, heq⟩ |
      ⟨before, command, after, run, -, -, -, heq⟩)
    · cases heq
    · cases heq
      exact hprepares
    · cases heq
  · exact fun hprepares => .inr (.inl ⟨panic, hprepares, rfl⟩)

/-! ## What is asked for again -/

namespace Attempt

theorem kind_of_mem_exchanges {announced : Option Path} {a : Attempt} {e : Exchange}
    (he : e ∈ a.exchanges artifact announced) : e.kind = .look ∨ e.kind = .copy := by
  have hplacing : ∀ e ∈ (a.placing artifact announced).1, e.kind = .look ∨ e.kind = .copy := by
    intro e he
    by_cases h : ∃ library, a.Offers artifact announced library
    · obtain ⟨library, hoffers⟩ := h
      rw [placing_of_offers hoffers] at he
      simp only [List.mem_cons, List.not_mem_nil, or_false] at he
      rcases he with rfl | rfl
      · exact .inl rfl
      · exact .inr rfl
    · rw [(placing_of_not_offers (not_exists.mp h)).2 e he]
      exact .inl rfl
  unfold exchanges at he
  split at he
  · next asked cause h =>
    rw [h] at hplacing
    exact hplacing e he
  · next asked h =>
    rw [h] at hplacing
    rcases List.mem_append.mp he with he | he
    · exact hplacing e he
    · rw [List.mem_singleton.mp he]
      exact .inl rfl

end Attempt

/-- A poll makes no directory and starts nothing. -/
theorem kind_of_mem_poll {announced : Option Path} {left : Nat} {e : Exchange}
    (h : (awaitArtifact c.config artifact announced left).Course poll outcome) (he : e ∈ poll) :
    e.kind ≠ .createDirectories ∧ e.kind ≠ .watch := by
  have hkind : e.kind = .look ∨ e.kind = .copy ∨ e.kind = .pause := by
    obtain ⟨attempts, made, -, rfl⟩ := exists_decided_of_course h
    have hattempt : ∀ i, e ∈ (attempts i).exchanges artifact announced →
        e.kind = .look ∨ e.kind = .copy ∨ e.kind = .pause := fun i hi =>
      (Attempt.kind_of_mem_exchanges hi).imp_right .inl
    -- Between two attempts there is a pause.
    cases made with
    | zero => cases he
    | succ earlier =>
      rcases List.mem_append.mp he with he | he
      · obtain ⟨i, -, he⟩ := List.mem_flatMap.mp he
        rcases List.mem_append.mp he with he | he
        · exact hattempt i he
        · rw [List.mem_singleton.mp he]
          exact .inr (.inr rfl)
      · exact hattempt earlier he
  rcases hkind with hkind | hkind | hkind <;> rw [hkind] <;> exact ⟨nofun, nofun⟩

theorem poll_outcome {announced : Option Path} {left : Nat}
    (h : (awaitArtifact c.config artifact announced left).Course poll outcome) :
    outcome = .ok artifact ∨
      outcome = .error (.artifactMissing artifact c.config.pollAttempts) ∨
      ∃ cause, outcome = .error (.io artifact cause) := by
  obtain ⟨attempts, made, hdecided, -⟩ := exists_decided_of_course h
  cases hdecided with
  | exhausted => exact .inr (.inl rfl)
  | conclusive i outcome _ _ hverdict =>
    rcases Attempt.verdict?_eq_some_iff.mp hverdict with ⟨cause, -, rfl⟩ | ⟨-, -, rfl⟩
    · exact .inr (.inr ⟨cause, rfl⟩)
    · exact .inl rfl

theorem Prepares.kinds {prepared : Except Panic Command}
    (h : Prepares c unit artifact before prepared) :
    before.map Exchange.kind = [.look] ∨
      before.map Exchange.kind = [.createDirectories, .look] := by
  cases h with
  | intro hopens _ =>
    cases hopens with
    | atOnce => exact .inl rfl
    | inDirectory => exact .inr rfl

/-- An outcome that speaks of the artifact. -/
inductive ConcernsArtifact (artifact : Path) : Except CompileError Path → Prop
  | found (path : Path) : ConcernsArtifact artifact (.ok path)
  | missing (path : Path) (attempts : Nat) :
    ConcernsArtifact artifact (.error (.artifactMissing path attempts))
  | notPlaced (cause : FileError) : ConcernsArtifact artifact (.error (.io artifact cause))

namespace ComesTo

/-- A job asks for each thing once until it polls, and it polls at the end. -/
theorem exists_once_poll (h : ComesTo c unit artifact es outcome) : ∃ once poll, es = once ++ poll ∧
    (once.map Exchange.kind).Nodup ∧
    (poll ≠ [] → ∃ announced, (awaitArtifact c.config artifact announced
      c.config.pollAttempts).Course poll outcome) := by
  cases h with
  | @noDirectory above cause => exact ⟨_, [], (List.append_nil _).symm, by simp, absurd rfl⟩
  | @notStarted before command cause hprepares =>
    refine ⟨_, [], (List.append_nil _).symm, ?_, absurd rfl⟩
    rw [List.map_append]
    rcases hprepares.kinds with hkinds | hkinds <;> rw [hkinds] <;> simp [Exchange.kind]
  | @started before poll command child outcome hprepares hleads =>
    refine ⟨before ++ [.watched command unit.sourcePath (.ok child)], poll,
      List.append_cons .., ?_, fun hne => ?_⟩
    · rw [List.map_append]
      rcases hprepares.kinds with hkinds | hkinds <;> rw [hkinds] <;> simp [Exchange.kind]
    · cases hleads with
      | polled _ _ hpoll => exact ⟨_, hpoll⟩
      | _ => exact absurd rfl hne

/-- The same answers lead to the same outcome. -/
theorem unique {outcome' : Except CompileError Path} (h : ComesTo c unit artifact es outcome)
    (h' : ComesTo c unit artifact es outcome') : outcome = outcome' := by
  obtain ⟨report, hcourse⟩ := exists_course_iff_comesTo.mpr h
  obtain ⟨report', hcourse'⟩ := exists_course_iff_comesTo.mpr h'
  exact congrArg JobRun.outcome (Except.ok.inj (hcourse.unique hcourse'))

theorem count_watch_le_one (h : ComesTo c unit artifact es outcome) :
    (es.map Exchange.kind).count .watch ≤ 1 := by
  obtain ⟨once, poll, rfl, honce, hpoll⟩ := h.exists_once_poll
  have hnone : (poll.map Exchange.kind).count .watch = 0 := by
    rw [List.count_eq_zero]
    intro hmem
    obtain ⟨e, he, hkind⟩ := List.mem_map.mp hmem
    obtain ⟨announced, hcourse⟩ := hpoll (List.ne_nil_of_mem he)
    exact (kind_of_mem_poll hcourse he).2 hkind
  rw [List.map_append, List.count_append, hnone]
  exact List.nodup_iff_count_le_one.mp honce _

/-- What speaks of the artifact comes from the poll, after the program has succeeded. -/
theorem exists_success (h : ComesTo c unit artifact es outcome)
    (hconcerns : ConcernsArtifact artifact outcome) : ∃ before command child poll,
      es = before ++ .watched command unit.sourcePath (.ok child) :: poll ∧
      ¬child.Unfinished ∧ child.exit = some (.ok (.code 0)) ∧
      (awaitArtifact c.config artifact (child.stdout.read.announced? c.toolchain.interpret)
        c.config.pollAttempts).Course poll outcome := by
  cases h with
  | noDirectory habove =>
    -- A directory that could not be made is not the artifact.
    cases hconcerns with
    | notPlaced => exact absurd rfl (Path.parent?_ne habove)
  | notStarted => cases hconcerns
  | @started before poll command child outcome _ hleads =>
    cases hleads with
    | polled hover hexit hpoll => exact ⟨before, command, child, poll, rfl, hover, hexit, hpoll⟩
    | _ => cases hconcerns

theorem eq_artifact {path : Path} (h : ComesTo c unit artifact es (.ok path)) :
    path = artifact := by
  obtain ⟨_, _, _, _, -, -, -, hpoll⟩ := h.exists_success (.found path)
  rcases poll_outcome hpoll with heq | heq | ⟨cause, heq⟩
  · exact Except.ok.inj heq
  · cases heq
  · cases heq

end ComesTo

theorem course_compileUnit_iff {run : JobRun} :
    (compileUnit c unit artifact).Course es run ↔
      ∃ stages, (runStages c unit artifact).Course es stages ∧ run = .ofStages unit stages := by
  unfold compileUnit
  rw [Activity.course_andThen_iff]
  constructor
  · rintro ⟨first, later, stages, rfl, hstages, hlater⟩
    obtain ⟨rfl, rfl⟩ := Activity.course_done_iff.mp hlater
    rw [List.append_nil]
    exact ⟨stages, hstages, rfl⟩
  · rintro ⟨stages, hstages, rfl⟩
    exact ⟨es, [], stages, (List.append_nil es).symm, hstages, .refl _⟩

end

end CompositionGen
