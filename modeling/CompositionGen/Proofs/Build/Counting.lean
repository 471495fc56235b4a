import CompositionGen.Program
import CompositionGen.Proofs.Build.Acts
import CompositionGen.Proofs.BuildUnit.Naming
import CompositionGen.Proofs.Pool.Schedule
import CompositionGen.Proofs.Registry.Loading

/-!
# What a build counts

A build counts its units, those that were compiled, those that were loaded, and the builders that
came to a written composition or to none. Every count is at most the one before. A builder that is
registered under the name of another takes its place, so that what has been loaded is run exactly
if the names of what has been loaded differ.
-/

namespace CompositionGen

open Registry (additions)

variable {σ : Type} {stages : BuildStages σ} {state : σ} {keep : Bool} {linker : Linker}
  {units : List BuildUnit} {results : List CompileResult} {visits : List Visit}
  {report : BuildReport}

/-- No unit has more results than it was given times. -/
def BuildStages.AnswersOnce (stages : BuildStages σ) : Prop :=
  ∀ units state, ((stages.compile units state).1.map CompileResult.unit).Subperm units

/-- How the counts of a build come about: from the results for its units and from the run of all
builders that are registered in the end. -/
structure Account (linker : Linker) (units : List BuildUnit) (results : List CompileResult)
    (visits : List Visit) (report : BuildReport) : Prop where
  answered : (results.map CompileResult.unit).Subperm units
  visited : visits.map Visit.entry = (Registry.loadAll linker ⟨.empty⟩ results).registry.builders
  units : report.units = units.length
  compiled : report.compiled = compiledCount results
  loaded : report.loaded = (additions linker results).length
  written : report.written = (Visit.calls visits).length
  dropped : report.dropped = visits.countP Visit.isDropped

/-! ## From one count to the next -/

theorem length_additions_le (linker : Linker) (results : List CompileResult) :
    (additions linker results).length ≤ compiledCount results := by
  induction results with
  | nil => exact Nat.le_refl 0
  | cons r rest ih =>
    rcases h : r.loaded? linker with _ | ⟨name, builder⟩
    · rw [Registry.additions_cons_of_none h]
      exact Nat.le_trans ih (List.sublist_cons_self r rest).countP_le
    · rw [Registry.additions_cons_of_some h]
      obtain ⟨-, artifact, houtcome, -⟩ := CompileResult.loaded?_eq_some_iff.mp h
      have hcount : compiledCount (r :: rest) = compiledCount rest + 1 :=
        List.countP_cons_of_pos (by rw [houtcome]; rfl)
      rw [hcount]
      exact Nat.succ_le_succ ih

namespace Account

theorem compiled_le (h : Account linker units results visits report) :
    report.compiled ≤ report.units := by
  rw [h.compiled, h.units]
  calc compiledCount results
    _ ≤ results.length := List.countP_le_length
    _ = (results.map CompileResult.unit).length := (List.length_map _).symm
    _ ≤ units.length := h.answered.length_le

theorem loaded_le (h : Account linker units results visits report) :
    report.loaded ≤ report.compiled := by
  rw [h.loaded, h.compiled]
  exact length_additions_le linker results

/-- One builder of each name is run. -/
theorem units_visits (h : Account linker units results visits report) :
    (visits.map Visit.unit).Perm ((additions linker results).map (·.1)).dedup := by
  have hunits : visits.map Visit.unit = (visits.map Visit.entry).map (·.1) := by
    rw [List.map_map]
    rfl
  rw [hunits, h.visited, Registry.units_builders, Registry.registry_loadAll]
  exact Dictionary.names_insertAll_empty

theorem written_add_dropped (h : Account linker units results visits report) :
    report.written + report.dropped = ((additions linker results).map (·.1)).dedup.length := by
  rw [h.written, h.dropped, Visit.length_calls_add_countP_isDropped, ← h.units_visits.length_eq,
    List.length_map]

theorem written_add_dropped_eq_iff (h : Account linker units results visits report) :
    report.written + report.dropped = report.loaded ↔
      ((additions linker results).map (·.1)).Nodup := by
  have hlength : report.loaded = ((additions linker results).map (·.1)).length := by
    rw [h.loaded, List.length_map]
  rw [h.written_add_dropped, hlength, ← List.dedup_eq_self]
  constructor
  · exact (List.dedup_sublist _).eq_of_length
  · exact congrArg List.length

/-- Units of different names are enough. -/
theorem nodup_additions (h : Account linker units results visits report)
    (nodup : (units.map BuildUnit.artifactName).Nodup) :
    ((additions linker results).map (·.1)).Nodup := by
  obtain ⟨answered, hperm, hsublist⟩ := h.answered
  have hanswered : (answered.map BuildUnit.artifactName).Nodup := (hsublist.map _).nodup nodup
  have hresults : (results.map (·.unit.artifactName)).Nodup := by
    have hnames := (hperm.map BuildUnit.artifactName).nodup hanswered
    rwa [List.map_map] at hnames
  exact (Registry.names_additions_sublist linker results).nodup hresults

end Account

/-! ## Builds -/

/-- What a build that returns a report has done. -/
theorem exists_run_of_outcome (h : (build stages keep state).outcome = .ok report) :
    ∃ units summary, stages.discover state = .ok units ∧
      let (results, _, compiled) := stages.compile units state
      let loading := Registry.loadAll (stages.linker compiled) ⟨.empty⟩ results
      (runBuilders stages.writer loading.registry.builders compiled).outcome = .ok summary ∧
        ⟨units.length, compiledCount results, loading.loaded, summary.written,
          summary.dropped⟩ = report := by
  rcases hunits : stages.discover state with cause | units
  · rw [build, hunits] at h
    cases h
  · by_cases hpanics : stages.Panics units state
    · obtain ⟨panic, hbuild⟩ := BuildStages.build_of_panics keep hunits hpanics
      rw [hbuild] at h
      cases h
    · rw [BuildStages.build_of_ok hunits hpanics] at h
      rcases hrun : (runBuilders stages.writer (stages.registered units state)
        (stages.compiled units state)).outcome with cause | summary
      · simp only [hrun] at h
        cases h
      · simp only [hrun] at h
        exact ⟨units, summary, rfl, hrun, Except.ok.inj h⟩

theorem exists_account (once : stages.AnswersOnce)
    (h : (build stages keep state).outcome = .ok report) :
    ∃ units visits, stages.discover state = .ok units ∧
      stages.writer.Yields (stages.compile units state).2.2 visits ∧
      Account (stages.linker (stages.compile units state).2.2) units
        (stages.compile units state).1 visits report := by
  obtain ⟨units, summary, hunits, hrun, rfl⟩ := exists_run_of_outcome h
  obtain ⟨visits, hvisits, yields, written, dropped⟩ := exists_visits_of_ok hrun
  exact ⟨units, visits, hunits, yields, {
    answered := once units state
    visited := hvisits.symm
    units := rfl
    compiled := rfl
    loaded := Registry.loaded_loadAll _ _ _
    written := written
    dropped := dropped }⟩

theorem answersOnce_buildStages (options : CommandLine.BuildOptions) (cargo : String) :
    (buildStages options cargo).AnswersOnce :=
  fun units m => subperm_compileAll ⟨options.config, _⟩ {} units m

/-- The counts of a build, whatever its libraries and its writer are. There are at most as many
compiled as found units and at most as many loaded as compiled ones. Of all that was loaded under
one name, one builder is run, once, and is then written or dropped. So everything that was loaded is
run exactly if all names of what was loaded differ, as they do if those of the units differ. -/
theorem build_counts (options : CommandLine.BuildOptions) (cargo : String)
    (linker : Machine → Linker) (writer : Writer Machine) (keep : Bool) (m : Machine)
    (report : BuildReport)
    (h : (build { buildStages options cargo with linker := linker, writer := writer } keep
      m).outcome = .ok report) :
    ∃ units visits, (buildStages options cargo).discover m = .ok units ∧
      let (results, _, compiled) := (buildStages options cargo).compile units m
      let names := (additions (linker compiled) results).map (·.1)
      Account (linker compiled) units results visits report ∧ writer.Yields compiled visits ∧
      (visits.map Visit.unit).Perm names.dedup ∧
      report.compiled ≤ report.units ∧ report.loaded ≤ report.compiled ∧
      report.written + report.dropped = names.dedup.length ∧
      (report.written + report.dropped = report.loaded ↔ names.Nodup) ∧
      ((units.map BuildUnit.artifactName).Nodup →
        report.written + report.dropped = report.loaded) := by
  have once : BuildStages.AnswersOnce
      { buildStages options cargo with linker := linker, writer := writer } :=
    answersOnce_buildStages options cargo
  obtain ⟨units, visits, hunits, yields, account⟩ := exists_account once h
  refine ⟨units, visits, hunits, account, yields, account.units_visits, account.compiled_le,
    account.loaded_le, account.written_add_dropped, account.written_add_dropped_eq_iff, ?_⟩
  intro nodup
  exact account.written_add_dropped_eq_iff.mpr (account.nodup_additions nodup)

/-! ## Two units of one name -/

/-- The toolchain does nothing, and both units have the same library, which is there already and
whose builder finds no templates. -/
def collidingMachine : Machine where
  files := {
    root := .directory [
      ("cargo", .file (.ofText "#!/bin/sh\n") true),
      ("compositions", .directory [
        ("a", .directory [("b", BuildUnit.markedDirectory)]),
        ("a_b", BuildUnit.markedDirectory)]),
      ("plugins", .directory [
        ("a_b.so", .file [.library (some ⟨hostAbi, hostVersion, "pipelineexample"⟩)] false)])]
    cwd := [] }

def collidingOptions : CommandLine.BuildOptions where
  source := {}
  release := false
  keepPlugins := false
  config := { poolSize := 1 }

theorem discover_collidingMachine :
    (buildStages collidingOptions "/cargo").discover collidingMachine =
      .ok BuildUnit.collidingUnits := by
  have hfound : BuildUnit.found collidingMachine.files ⟨"compositions"⟩ "Cargo.toml"
      [⟨"target"⟩] = .ok BuildUnit.collidingUnits := by
    decide +kernel
  have hsorted : BuildUnit.collidingUnits.Pairwise fun a b => BuildUnit.mayPrecede a b = true := by
    decide +kernel
  simp only [buildStages, collidingOptions]
  rw [BuildUnit.discover, hfound]
  exact congrArg Except.ok (List.mergeSort_of_pairwise hsorted)

/-- Two builders are loaded and one is run. -/
theorem outcome_collidingMachine :
    (build (buildStages collidingOptions "/cargo") false collidingMachine).outcome =
      .ok ⟨2, 2, 2, 0, 1⟩ := by
  simp only [build, discover_collidingMachine]
  decide +kernel

/-- Not every build runs what it has loaded. -/
theorem build_not_all_run : ¬ ∀ options cargo keep m report,
    (build (buildStages options cargo) keep m).outcome = .ok report →
      report.compiled ≤ report.units ∧ report.loaded ≤ report.compiled ∧
        report.written + report.dropped = report.loaded := by
  intro h
  obtain ⟨-, -, hrun⟩ := h _ _ _ _ _ outcome_collidingMachine
  exact absurd hrun (by decide)

theorem build_counts_collidingMachine : ∃ linker results visits,
    Account linker BuildUnit.collidingUnits results visits ⟨2, 2, 2, 0, 1⟩ ∧
      ¬((additions linker results).map (·.1)).Nodup := by
  obtain ⟨units, visits, hunits, account, -, -, -, -, -, hiff, -⟩ :=
    build_counts collidingOptions "/cargo" _ _ false collidingMachine _ outcome_collidingMachine
  cases discover_collidingMachine.symm.trans hunits
  exact ⟨_, _, visits, account, fun nodup => absurd (hiff.mpr nodup) (by decide)⟩

end CompositionGen
