import CompositionGen.Program
import CompositionGen.Proofs.Build.Acts
import CompositionGen.Proofs.BuildUnit.Naming
import CompositionGen.Proofs.Pool.Delivery
import CompositionGen.Proofs.Registry.Loading

/-!
# Failures do not spread

What becomes of each unit, and what the writer answers, is decided outside of a build. Given that,
the calls of a build are those for its units one after another in the order of their names, however
the compile jobs were scheduled. A unit that fails at any stage has no part in them, so that they
are the calls of a build that has only found the others.
-/

namespace CompositionGen

open Registry (additions)

/-! ## What is decided outside of a build -/

/-- What becomes of a unit. -/
inductive Fate where
  | notCompiled (cause : CompileError)
  | notLoaded (cause : LoadError)
  /-- The constructor of its builder panics. -/
  | notConstructed (panic : Panic)
  /-- Its builder is loaded. What that yields depends on the files that the calls made so far have
  left. -/
  | loaded (yielded : (made : List (String × String)) → Except DropReason Composition)

/-- The composition of a unit whose turn comes after some calls, if it has one. -/
def Fate.composition? (made : List (String × String)) : Fate → Option Composition
  | notCompiled _ => none
  | notLoaded _ => none
  | notConstructed _ => none
  | loaded yielded => (yielded made).toOption

/-- What becomes of every unit, and what the writer answers to a call after some calls. -/
structure Fates where
  fate : BuildUnit → Fate
  answer : (made : List (String × String)) → (call : String × String) → Except (List String) Unit

namespace Fates

/-- The calls for units one after another, up to the first that fails. -/
def calls (f : Fates) : List BuildUnit → (made : List (String × String)) → List AnsweredCall
  | [], _ => []
  | unit :: rest, made =>
    match (f.fate unit).composition? made with
    | none => f.calls rest made
    | some c => match f.answer made c.call with
      | .error cause => [⟨c.call, .error cause⟩]
      | .ok () => ⟨c.call, .ok ()⟩ :: f.calls rest (made ++ [c.call])

/-- Every unit that does not remain fails when it is its turn: it is not compiled, not loaded, or
its builder yields nothing. -/
def FailOutside (f : Fates) (units : List BuildUnit) (made : List (String × String))
    (remains : BuildUnit → Bool) : Prop :=
  ∀ before unit later, units = before ++ unit :: later → remains unit = false →
    (f.fate unit).composition? (made ++ (f.calls before made).map AnsweredCall.call) = none

variable {f : Fates} {unit : BuildUnit} {rest units : List BuildUnit}
  {made : List (String × String)} {c : Composition} {remains : BuildUnit → Bool}

theorem calls_cons_of_none (h : (f.fate unit).composition? made = none) :
    f.calls (unit :: rest) made = f.calls rest made := by
  rw [calls, h]

theorem calls_cons_of_error {cause : List String} (h : (f.fate unit).composition? made = some c)
    (ha : f.answer made c.call = .error cause) :
    f.calls (unit :: rest) made = [⟨c.call, .error cause⟩] := by
  rw [calls, h]
  simp only
  rw [ha]

theorem calls_cons_of_ok (h : (f.fate unit).composition? made = some c)
    (ha : f.answer made c.call = .ok ()) :
    f.calls (unit :: rest) made = ⟨c.call, .ok ()⟩ :: f.calls rest (made ++ [c.call]) := by
  rw [calls, h]
  simp only
  rw [ha]

theorem failOutside_cons_iff :
    f.FailOutside (unit :: rest) made remains ↔
      (remains unit = false → (f.fate unit).composition? made = none) ∧
        ∀ before other later, rest = before ++ other :: later → remains other = false →
          (f.fate other).composition?
            (made ++ (f.calls (unit :: before) made).map AnsweredCall.call) = none := by
  refine (forall_split_cons (P := fun before other => remains other = false →
    (f.fate other).composition? (made ++ (f.calls before made).map AnsweredCall.call) =
      none)).trans ?_
  rw [calls, List.map_nil, List.append_nil]

/-- Units fail when it is their turn if they never have a composition. -/
theorem failOutside_of_forall
    (h : ∀ unit ∈ units, remains unit = false → ∀ made, (f.fate unit).composition? made = none) :
    f.FailOutside units made remains := by
  rintro before unit later rfl hout
  exact h unit (List.mem_append_right _ List.mem_cons_self) hout _

/-- Units that fail leave no trace in the calls. -/
theorem calls_filter (units : List BuildUnit) (made : List (String × String))
    (h : f.FailOutside units made remains) :
    f.calls (units.filter remains) made = f.calls units made := by
  -- Each call moves on what the later units find, so the calls made so far are general.
  induction units generalizing made with
  | nil => rfl
  | cons unit rest ih =>
    obtain ⟨hunit, hrest⟩ := failOutside_cons_iff.mp h
    rcases hc : (f.fate unit).composition? made with _ | c
    · simp only [calls_cons_of_none hc] at hrest
      rw [List.filter_cons, calls_cons_of_none hc, ← ih made hrest]
      -- Whether the unit remains or not, nothing is called for it.
      split
      · exact calls_cons_of_none hc
      · rfl
    · have hremains : remains unit = true := by
        rw [← Bool.not_eq_false]
        intro hout
        rw [hunit hout] at hc
        cases hc
      rw [List.filter_cons_of_pos hremains]
      rcases ha : f.answer made c.call with cause | _
      · rw [calls_cons_of_error hc ha, calls_cons_of_error hc ha]
      · simp only [calls_cons_of_ok hc ha, List.map_cons] at hrest
        rw [calls_cons_of_ok hc ha, calls_cons_of_ok hc ha, ih]
        intro before other later hsplit hout
        rw [List.append_assoc]
        exact hrest before other later hsplit hout

end Fates

/-! ## Units in the order of their names -/

namespace BuildUnit

/-- Whether a unit's name may stand before another's. -/
def nameLE (a b : BuildUnit) : Bool := decide (a.artifactName ≤ b.artifactName)

/-- Units in the order of their names, which is that of their builders in a registry. -/
def byName (units : List BuildUnit) : List BuildUnit := units.mergeSort nameLE

variable {units units' : List BuildUnit} {remains : BuildUnit → Bool}

theorem nameLE_trans (a b c : BuildUnit) (hab : nameLE a b = true) (hbc : nameLE b c = true) :
    nameLE a c = true :=
  decide_eq_true (String.le_trans (of_decide_eq_true hab) (of_decide_eq_true hbc))

theorem nameLE_total (a b : BuildUnit) : (nameLE a b || nameLE b a) = true := by
  rw [Bool.or_eq_true, nameLE, nameLE, decide_eq_true_eq, decide_eq_true_eq]
  exact String.le_total _ _

theorem sorted_byName (units : List BuildUnit) :
    (byName units).Pairwise fun a b => nameLE a b = true :=
  List.pairwise_mergeSort nameLE_trans nameLE_total units

/-- Of units of different names, there is only one list in the order of the names. -/
theorem eq_of_sorted (perm : units.Perm units') (nodup : (units.map artifactName).Nodup)
    (sorted : units.Pairwise fun a b => nameLE a b = true)
    (sorted' : units'.Pairwise fun a b => nameLE a b = true) : units = units' := by
  refine perm.eq_of_pairwise ?_ sorted sorted'
  intro a b ha hb hab hba
  exact List.inj_on_of_nodup_map nodup ha (perm.mem_iff.mpr hb)
    (String.le_antisymm (of_decide_eq_true hab) (of_decide_eq_true hba))

theorem nodup_of_perm_filter (perm : units'.Perm (units.filter remains))
    (nodup : (units.map artifactName).Nodup) : (units'.map artifactName).Nodup :=
  (perm.map artifactName).nodup_iff.mpr ((List.filter_sublist.map artifactName).nodup nodup)

theorem byName_filter (perm : units'.Perm (units.filter remains))
    (nodup : (units.map artifactName).Nodup) : byName units' = (byName units).filter remains := by
  have hperm : (byName units').Perm ((byName units).filter remains) :=
    ((List.mergeSort_perm units' _).trans perm).trans
      ((List.mergeSort_perm units _).symm.filter remains)
  have hnodup : ((byName units').map artifactName).Nodup :=
    ((List.mergeSort_perm units' _).map artifactName).nodup_iff.mpr
      (nodup_of_perm_filter perm nodup)
  exact eq_of_sorted hperm hnodup (sorted_byName units') ((sorted_byName units).filter _)

end BuildUnit

/-! ## How a build fares -/

variable {σ : Type}

/-- What becomes of a unit by its result and what is done with it in a build. -/
def CompileResult.fate (linker : Linker) (w : Writer σ) (compiled : σ) (r : CompileResult) : Fate :=
  match r.outcome with
  | .error cause => .notCompiled cause
  | .ok artifact =>
    match (linker.loadWith Declaration.construct artifact : Except Panic _) with
    | .error panic => .notConstructed panic
    | .ok (.error cause) => .notLoaded cause
    | .ok (.ok loaded) => .loaded fun made =>
      (loaded.builder.compose (w.files (w.after compiled made))).2

/-- Either nothing is loaded for a result and its unit never has a composition, or a constructor
panics, or a builder is loaded and the unit has what that yields. -/
theorem CompileResult.fate_cases (linker : Linker) (w : Writer σ) (compiled : σ)
    (r : CompileResult) :
    (r.loaded? linker = none ∧ (∀ panic, ¬r.PanicsWith linker panic) ∧
        (∀ panic, r.fate linker w compiled ≠ .notConstructed panic) ∧
        ∀ made, (r.fate linker w compiled).composition? made = none) ∨
      (∃ panic, r.PanicsWith linker panic ∧ r.fate linker w compiled = .notConstructed panic) ∨
      ∃ loaded, r.loaded? linker = some (r.unit.artifactName, loaded) ∧
        (∀ panic, ¬r.PanicsWith linker panic) ∧
        r.fate linker w compiled = .loaded fun made =>
          (loaded.builder.compose (w.files (w.after compiled made))).2 := by
  rw [loaded?, fate]
  unfold PanicsWith accepted?
  rcases r.outcome with _ | artifact
  · refine .inl ⟨rfl, fun panic h => ?_, fun panic h => ?_, fun _ => rfl⟩
    · obtain ⟨d, hd, -⟩ := h
      cases hd
    · cases h
  -- Compiled: the library is refused, or its declaration is accepted and its constructor called.
  · rcases linker.load_cases artifact with
      ⟨cause, haccepted, hload, hwith⟩ | ⟨d, haccepted, hload, hwith⟩
    · refine .inl ⟨?_, fun panic h => ?_, ?_, ?_⟩
      · simp [Except.toOption, hload]
      · obtain ⟨d, hd, -⟩ := h
        cases haccepted.symm.trans hd
      · simp [hwith, pure, Except.pure]
      · simp [hwith, pure, Except.pure, Fate.composition?]
    · rcases hpanic : d.panic with _ | panic
      · refine .inr (.inr ⟨⟨d.create, artifact⟩, ?_, fun panic h => ?_, ?_⟩)
        · simp [Except.toOption, hload]
        · obtain ⟨d', hd, hpanic'⟩ := h
          cases haccepted.symm.trans hd
          cases hpanic.symm.trans hpanic'
        · simp [hwith, Declaration.construct, hpanic, bind, Except.bind, pure, Except.pure]
      · refine .inr (.inl ⟨panic, ⟨d, haccepted, hpanic⟩, ?_⟩)
        simp [hwith, Declaration.construct, hpanic, bind, Except.bind]

theorem CompileResult.fate_eq_notConstructed_iff (linker : Linker) (w : Writer σ) (compiled : σ)
    (r : CompileResult) :
    (∃ panic, r.fate linker w compiled = .notConstructed panic) ↔
      ∃ panic, r.PanicsWith linker panic := by
  rcases r.fate_cases linker w compiled with
    ⟨-, hreturns, hfate, -⟩ | ⟨panic, hpanics, hfate⟩ | ⟨loaded, -, hreturns, hfate⟩
  · exact iff_of_false (fun ⟨panic, h⟩ => hfate panic h) fun ⟨panic, h⟩ => hreturns panic h
  · exact iff_of_true ⟨panic, hfate⟩ ⟨panic, hpanics⟩
  · refine iff_of_false (fun ⟨panic, h⟩ => ?_) fun ⟨panic, h⟩ => hreturns panic h
    cases hfate.symm.trans h

/-- A loaded builder with the name of its unit, as a run is given it. -/
def LoadedBuilder.entry (e : String × LoadedBuilder) : String × Builder := (e.1, e.2.builder)

namespace BuildStages

/-- Compiling gives one result for each unit. -/
def AnswersAll (stages : BuildStages σ) : Prop :=
  ∀ units state, ((stages.compile units state).1.map CompileResult.unit).Perm units

/-- A build of these units fares as it was decided. -/
structure Fares (stages : BuildStages σ) (units : List BuildUnit) (state : σ) (fates : Fates) :
    Prop where
  fate : ∀ r ∈ (stages.compile units state).1,
    r.fate (stages.linker (stages.compiled units state)) stages.writer
      (stages.compiled units state) = fates.fate r.unit
  answer : ∀ made call, (stages.writer.write
    (stages.writer.after (stages.compiled units state) made) call.1 call.2).2 =
      fates.answer made call

end BuildStages

/-- The calls of a run whose builders were loaded from results, in the order of the results. -/
theorem answeredCalls_additions {linker : Linker} {w : Writer σ} {state : σ} {fates : Fates}
    {results : List CompileResult} (made : List (String × String))
    (returns : ∀ r ∈ results, ∀ panic, ¬r.PanicsWith linker panic)
    (fate : ∀ r ∈ results, r.fate linker w state = fates.fate r.unit)
    (answer : ∀ made call,
      (w.write (w.after state made) call.1 call.2).2 = fates.answer made call) :
    answeredCalls w ((additions linker results).map LoadedBuilder.entry) (w.after state made) =
      fates.calls (results.map CompileResult.unit) made := by
  -- A builder finds the files that the calls before it have left, so the induction is for any calls
  -- made before.
  induction results generalizing made with
  | nil => rfl
  | cons r rest ih =>
    obtain ⟨hfate, hrest⟩ := List.forall_mem_cons.mp fate
    obtain ⟨hreturns, hothers⟩ := List.forall_mem_cons.mp returns
    rw [List.map_cons]
    rcases r.fate_cases linker w state with
      ⟨hnone, -, -, hfails⟩ | ⟨panic, hpanics, -⟩ | ⟨loaded, hsome, -, hyields⟩
    · rw [hfate] at hfails
      rw [Registry.additions_cons_of_none hnone, Fates.calls_cons_of_none (hfails made)]
      exact ih made hothers hrest
    · exact absurd hpanics (hreturns panic)
    · rw [hfate] at hyields
      have hcomposition : (fates.fate r.unit).composition? made =
          (loaded.builder.compose (w.files (w.after state made))).2.toOption :=
        congrArg (Fate.composition? made) hyields
      rw [Registry.additions_cons_of_some hsome, List.map_cons, LoadedBuilder.entry]
      rcases hc : (loaded.builder.compose (w.files (w.after state made))).2 with reason | c
      · rw [hc] at hcomposition
        rw [answeredCalls_dropped hc, Fates.calls_cons_of_none hcomposition]
        exact ih made hothers hrest
      · rw [hc] at hcomposition
        rcases hw : (w.write (w.after state made) c.call.1 c.call.2).2 with cause | _
        · rw [answeredCalls_refused hc hw,
            Fates.calls_cons_of_error hcomposition ((answer made c.call).symm.trans hw)]
        · rw [answeredCalls_written hc hw,
            Fates.calls_cons_of_ok hcomposition ((answer made c.call).symm.trans hw),
            ← ih (made ++ [c.call]) hothers hrest, Writer.after_append]
          rfl

/-- Results of different names, in the order of the names, are registered one after another. -/
theorem Registry.builders_loadAll {linker : Linker} {results sorted : List CompileResult}
    (perm : sorted.Perm results)
    (order : (sorted.map CompileResult.unit).Pairwise fun a b => BuildUnit.nameLE a b = true)
    (nodup : (sorted.map (·.unit.artifactName)).Nodup) :
    (loadAll linker ⟨.empty⟩ results).registry.builders =
      (additions linker sorted).map LoadedBuilder.entry := by
  -- In strict order the additions are the entries of a dictionary, and there is no other one.
  have hstrict : (sorted.map (·.unit.artifactName)).Pairwise (· < ·) := by
    rw [List.pairwise_map] at order ⊢
    rw [List.Nodup, List.pairwise_map] at nodup
    refine (order.and nodup).imp fun {a b} h => ?_
    by_contra hlt
    exact h.2 (String.le_antisymm (decide_eq_true_eq.mp h.1) (String.not_lt.mp hlt))
  have hsorted : (additions linker sorted).Pairwise fun a b => a.1 < b.1 :=
    List.pairwise_map.mp (hstrict.sublist (names_additions_sublist linker sorted))
  have hadditions : (additions linker sorted).Perm (additions linker results) := perm.filterMap _
  have hnodup : ((additions linker results).map (·.1)).Nodup :=
    (hadditions.map _).nodup_iff.mp
      ((names_additions_sublist linker sorted).nodup nodup)
  have hentries : (loadAll linker ⟨.empty⟩ results).registry.loaded =
      ⟨additions linker sorted, hsorted⟩ := by
    refine Dictionary.eq_of_perm ?_
    rw [registry_loadAll]
    exact (Dictionary.perm_insertAll_empty hnodup).trans hadditions.symm
  rw [builders, hentries]
  rfl

namespace BuildStages

variable {stages : BuildStages σ} {units : List BuildUnit} {state : σ} {fates : Fates}
  {keep : Bool}

/-- Once a build has found units of different names and no constructor panics, its calls are those
that were decided for the units in the order of their names. -/
theorem calls_eq (answers : stages.AnswersAll) (h : stages.discover state = .ok units)
    (hreturn : ¬stages.Panics units state) (nodup : (units.map BuildUnit.artifactName).Nodup)
    (fares : stages.Fares units state fates) :
    stages.calls keep state = fates.calls (BuildUnit.byName units) [] := by
  let sorted := (stages.compile units state).1.mergeSort fun a b => BuildUnit.nameLE a.unit b.unit
  have hperm : sorted.Perm (stages.compile units state).1 := List.mergeSort_perm _ _
  have hmap : sorted.map CompileResult.unit =
      BuildUnit.byName ((stages.compile units state).1.map CompileResult.unit) :=
    List.map_mergeSort fun _ _ _ _ => rfl
  have horder : (sorted.map CompileResult.unit).Pairwise fun a b => BuildUnit.nameLE a b = true :=
    hmap ▸ BuildUnit.sorted_byName _
  have hunits : (sorted.map CompileResult.unit).Perm units :=
    (hperm.map _).trans (answers units state)
  have hnodup : ((sorted.map CompileResult.unit).map BuildUnit.artifactName).Nodup :=
    (hunits.map _).nodup_iff.mpr nodup
  have hbyName : sorted.map CompileResult.unit = BuildUnit.byName units :=
    BuildUnit.eq_of_sorted (hunits.trans (List.mergeSort_perm units _).symm) hnodup horder
      (BuildUnit.sorted_byName units)
  rw [List.map_map] at hnodup
  have hreturns : ∀ r ∈ sorted, ∀ panic,
      ¬r.PanicsWith (stages.linker (stages.compiled units state)) panic :=
    fun r hr panic hpanics => hreturn ⟨r, hperm.mem_iff.mp hr, panic, hpanics⟩
  rw [(acts_of_ok h hreturn).2, registered, Registry.builders_loadAll hperm horder hnodup,
    ← hbyName]
  exact answeredCalls_additions [] hreturns (fun r hr => fares.fate r (hperm.mem_iff.mp hr))
    fares.answer

/-- A constructor panics exactly if that is what becomes of one of the units. -/
theorem panics_iff (answers : stages.AnswersAll) (fares : stages.Fares units state fates) :
    stages.Panics units state ↔
      ∃ unit ∈ units, ∃ panic, fates.fate unit = .notConstructed panic := by
  constructor
  · rintro ⟨r, hr, hpanics⟩
    refine ⟨r.unit, (answers units state).mem_iff.mp (List.mem_map_of_mem hr), ?_⟩
    rw [← fares.fate r hr]
    exact (CompileResult.fate_eq_notConstructed_iff _ _ _ r).mpr hpanics
  · rintro ⟨unit, hunit, hfate⟩
    obtain ⟨r, hr, rfl⟩ := List.mem_map.mp ((answers units state).mem_iff.mpr hunit)
    rw [← fares.fate r hr] at hfate
    exact ⟨r, hr, (CompileResult.fate_eq_notConstructed_iff _ _ _ r).mp hfate⟩

/-- Something is decided by every build that finds units of different names. -/
theorem exists_fares (answers : stages.AnswersAll)
    (nodup : (units.map BuildUnit.artifactName).Nodup) :
    ∃ fates, stages.Fares units state fates := by
  let results := (stages.compile units state).1
  let compiled := stages.compiled units state
  let fateOf (r : CompileResult) : Fate := r.fate (stages.linker compiled) stages.writer compiled
  have hunits : (results.map CompileResult.unit).Nodup :=
    (answers units state).nodup_iff.mpr (List.Nodup.of_map _ nodup)
  refine ⟨{
    fate := fun unit => ((results.find? (·.unit == unit)).map fateOf).getD (.notCompiled default)
    answer := fun made call =>
      (stages.writer.write (stages.writer.after compiled made) call.1 call.2).2 }, ?_, ?_⟩
  · intro r hr
    show fateOf r = ((results.find? (·.unit == r.unit)).map fateOf).getD _
    rw [find?_of_nodup_map CompileResult.unit hunits hr]
    rfl
  · exact fun _ _ => rfl

end BuildStages

/-! ## Builds of the program -/

/-- A build of the program, whatever its libraries and its writer are. -/
structure BuildSetting where
  options : CommandLine.BuildOptions
  cargo : String
  linker : Machine → Linker
  writer : Writer Machine

namespace BuildSetting

/-- The stages of a build on a machine. -/
def stages (b : BuildSetting) : BuildStages Machine :=
  { buildStages b.options b.cargo with linker := b.linker, writer := b.writer }

/-- Whether the compiled units are kept. -/
def keep (b : BuildSetting) : Bool := b.options.keepPlugins

/-- How a build ends. -/
def run (b : BuildSetting) (m : Machine) : BuildResult Machine := build b.stages b.keep m

/-- What a build does, in order. -/
def acts (b : BuildSetting) (m : Machine) : List BuildAct := b.stages.acts b.keep m

/-- The calls that a build makes to its writer, in order. -/
def calls (b : BuildSetting) (m : Machine) : List AnsweredCall := b.stages.calls b.keep m

theorem answersAll (b : BuildSetting) : b.stages.AnswersAll :=
  fun units m => perm_compileAll ⟨b.options.config, _⟩ {} units m

theorem run_error_iff (b : BuildSetting) {m : Machine} {units : List BuildUnit}
    (h : b.stages.discover m = .ok units) (hreturn : ¬b.stages.Panics units m) :
    (∃ failure, (b.run m).outcome = .error failure) ↔ ∃ call ∈ b.calls m, call.Fails := by
  refine (b.stages.error_iff b.keep m).trans ?_
  rw [h]
  refine ⟨?_, fun hfails => .inr (.inr hfails)⟩
  rintro (⟨cause, hcause⟩ | ⟨units', hunits, hpanics⟩ | hfails)
  · cases hcause
  · cases hunits
    exact absurd hpanics hreturn
  · exact hfails

/-- How far failures are isolated. A build that is watched is the same build. It ends badly exactly
if its units cannot be found, where nothing is done, or a constructor panics, or one of its calls to
the writer fails. A constructor that panics takes all other units with it: no call is made, and the
compiled units are not removed. If all constructors return, a build that has found units makes its
calls and then removes the compiled units unless they are to be kept, also if a call has failed.
Where the names of the units differ, something is decided for each unit and each call, whichever
units are not compiled, not loaded or yield nothing. A constructor panics exactly if that is what
becomes of some unit. Otherwise the calls are those of the units in the order of their names, so
that any other build that finds only the units that remain when some that fail are left out, and
that fares alike, makes the same calls, with the same answers and the same end. -/
theorem failures_isolated (b : BuildSetting) (m : Machine) :
    build b.stages.observed b.keep (m, []) = (b.run m).withActs (b.acts m) ∧
    ((∃ failure, (b.run m).outcome = .error failure) ↔
      (∃ cause, b.stages.discover m = .error cause) ∨
        (∃ units, b.stages.discover m = .ok units ∧ b.stages.Panics units m) ∨
        ∃ call ∈ b.calls m, call.Fails) ∧
    (∀ cause, b.stages.discover m = .error cause → b.acts m = []) ∧
    ∀ units, b.stages.discover m = .ok units →
      (b.stages.Panics units m →
        b.acts m = [] ∧ ∃ panic, (b.run m).outcome = .error (.panicked panic)) ∧
      (¬b.stages.Panics units m →
        b.acts m = (b.calls m).map .write ++ (if b.keep then [] else [.removePlugins])) ∧
      ((units.map BuildUnit.artifactName).Nodup →
        (∃ fates, b.stages.Fares units m fates) ∧
        ∀ fates, b.stages.Fares units m fates →
          (b.stages.Panics units m ↔
            ∃ unit ∈ units, ∃ panic, fates.fate unit = .notConstructed panic) ∧
          (¬b.stages.Panics units m →
            b.calls m = fates.calls (BuildUnit.byName units) [] ∧
            ∀ (b' : BuildSetting) (m' : Machine) (units' : List BuildUnit)
              (remains : BuildUnit → Bool),
              fates.FailOutside (BuildUnit.byName units) [] remains →
              b'.stages.discover m' = .ok units' → units'.Perm (units.filter remains) →
              b'.stages.Fares units' m' fates →
              ¬b'.stages.Panics units' m' ∧ b'.calls m' = b.calls m ∧
              ((∃ failure, (b'.run m').outcome = .error failure) ↔
                ∃ failure, (b.run m).outcome = .error failure))) := by
  refine ⟨b.stages.build_observed b.keep m, b.stages.error_iff b.keep m,
    fun _ h => BuildStages.acts_of_error h, fun units h => ⟨fun hpanics => ?_,
      fun hreturn => (BuildStages.acts_of_ok h hreturn).1,
      fun nodup => ⟨BuildStages.exists_fares b.answersAll nodup, fun fates fares =>
        ⟨BuildStages.panics_iff b.answersAll fares, fun hreturn => ?_⟩⟩⟩⟩
  · obtain ⟨panic, hbuild⟩ := BuildStages.build_of_panics b.keep h hpanics
    exact ⟨BuildStages.acts_of_panics h hpanics, panic, congrArg BuildResult.outcome hbuild⟩
  have hcalls : b.calls m = fates.calls (BuildUnit.byName units) [] :=
    BuildStages.calls_eq b.answersAll h hreturn nodup fares
  refine ⟨hcalls, fun b' m' units' remains fail h' perm fares' => ?_⟩
  have nodup' := BuildUnit.nodup_of_perm_filter perm nodup
  -- The units of the other build are some of this one, and the fates are the same.
  have hreturn' : ¬b'.stages.Panics units' m' := by
    intro hpanics
    obtain ⟨unit, hunit, hfate⟩ := (BuildStages.panics_iff b'.answersAll fares').mp hpanics
    have hmem : unit ∈ units := List.mem_of_mem_filter (perm.mem_iff.mp hunit)
    exact hreturn ((BuildStages.panics_iff b.answersAll fares).mpr ⟨unit, hmem, hfate⟩)
  -- What is left out never yields a composition, so the calls that the fates give do not change.
  have hcalls' : b'.calls m' = b.calls m :=
    calc b'.calls m'
      _ = fates.calls (BuildUnit.byName units') [] :=
        BuildStages.calls_eq b'.answersAll h' hreturn' nodup' fares'
      _ = fates.calls ((BuildUnit.byName units).filter remains) [] := by
        rw [BuildUnit.byName_filter perm nodup]
      _ = fates.calls (BuildUnit.byName units) [] := Fates.calls_filter _ _ fail
      _ = b.calls m := hcalls.symm
  refine ⟨hreturn', hcalls', ?_⟩
  rw [b'.run_error_iff h' hreturn', b.run_error_iff h hreturn, hcalls']

end BuildSetting

/-! ## Units that fail in different ways

The toolchain does nothing, so that a unit without a library is not compiled. One library was made
for another host, the builder of another one panics, and so does the constructor of a third. The
disk is full. -/

def libraries : List (String × Declaration) := [
  ("/plugins/b.so", ⟨2, hostVersion, fixedBuilder .panicked, none⟩),
  ("/plugins/c.so", ⟨hostAbi, hostVersion, fixedBuilder .panicked, none⟩),
  ("/plugins/d.so", ⟨hostAbi, hostVersion, fixedBuilder (.done [.withName "first"]), none⟩),
  ("/plugins/e.so", ⟨hostAbi, hostVersion, default, some (.text "no credentials")⟩)]

def fullDisk : Writer Machine where
  files := (·.files)
  write m _ _ := (m, .error ["disk full"])

theorem answer_fullDisk (m : Machine) (call : String × String) :
    (fullDisk.write m call.1 call.2).2 = .error ["disk full"] := rfl

def fullDiskSetting : BuildSetting where
  options := { source := {}, release := false, keepPlugins := false, config := { poolSize := 2 } }
  cargo := "/cargo"
  linker _ path := (lookup? path.text libraries).map fun d => ⟨some d⟩
  writer := fullDisk

/-- A machine that holds these units. -/
def unitMachine (names : List String) : Machine where
  files := {
    root := .directory [
      ("cargo", .file (.ofText "#!/bin/sh\n") true),
      ("compositions", .directory (names.map fun name => (name, BuildUnit.markedDirectory))),
      ("plugins", .directory (["b.so", "c.so", "d.so", "e.so"].map fun name =>
        (name, .file [] false)))]
    cwd := [] }

/-- The unit of a name. -/
def namedUnit (name : String) : BuildUnit := ⟨⟨"compositions/" ++ name⟩, name⟩

theorem discover_named {names : List String}
    (hfound : BuildUnit.found (unitMachine names).files ⟨"compositions"⟩ "Cargo.toml"
      [⟨"target"⟩] = .ok (names.map namedUnit))
    (hsorted : (names.map namedUnit).Pairwise fun a b => BuildUnit.mayPrecede a b = true) :
    fullDiskSetting.stages.discover (unitMachine names) = .ok (names.map namedUnit) := by
  simp only [BuildSetting.stages, fullDiskSetting, buildStages, BuildUnit.discover, hfound]
  exact congrArg Except.ok (List.mergeSort_of_pairwise hsorted)

def fourUnits : List BuildUnit := ["a", "b", "c", "d"].map namedUnit

theorem discover_fourUnits :
    fullDiskSetting.stages.discover (unitMachine ["a", "b", "c", "d"]) = .ok fourUnits :=
  discover_named (by decide +kernel) (by decide +kernel)

theorem discover_oneUnit :
    fullDiskSetting.stages.discover (unitMachine ["d"]) = .ok [namedUnit "d"] :=
  discover_named (by decide +kernel) (by decide +kernel)

theorem discover_twoUnits :
    fullDiskSetting.stages.discover (unitMachine ["d", "e"]) =
      .ok [namedUnit "d", namedUnit "e"] :=
  discover_named (by decide +kernel) (by decide +kernel)

/-- Only the first unit is not compiled. -/
theorem outcomes_fourUnits : ∀ r ∈
    (fullDiskSetting.stages.compile fourUnits (unitMachine ["a", "b", "c", "d"])).1,
    r.outcome.toOption = if r.unit = namedUnit "a" then none else
      some ⟨"/plugins/" ++ r.unit.artifactName ++ ".so"⟩ := by
  decide +kernel

theorem outcomes_oneUnit : ∀ r ∈
    (fullDiskSetting.stages.compile [namedUnit "d"] (unitMachine ["d"])).1,
    r.outcome.toOption = some ⟨"/plugins/d.so"⟩ := by
  decide +kernel

theorem outcomes_twoUnits : ∀ r ∈
    (fullDiskSetting.stages.compile [namedUnit "d", namedUnit "e"] (unitMachine ["d", "e"])).1,
    r.outcome.toOption = some ⟨"/plugins/" ++ r.unit.artifactName ++ ".so"⟩ := by
  decide +kernel

variable {r : CompileResult} {compiled : Machine}

theorem fate_missing (h : r.outcome.toOption = none) : ∃ cause,
    r.fate (fullDiskSetting.linker compiled) fullDisk compiled = .notCompiled cause := by
  rw [CompileResult.fate]
  rcases houtcome : r.outcome with cause | artifact
  · exact ⟨cause, rfl⟩
  · rw [houtcome] at h
    cases h

theorem fate_foreign (h : r.outcome.toOption = some ⟨"/plugins/b.so"⟩) : ∃ cause,
    r.fate (fullDiskSetting.linker compiled) fullDisk compiled = .notLoaded cause := by
  rw [CompileResult.fate, Outcome.toOption_eq_some_iff.mp h]
  exact ⟨_, rfl⟩

theorem fate_panicking (h : r.outcome.toOption = some ⟨"/plugins/c.so"⟩) :
    r.fate (fullDiskSetting.linker compiled) fullDisk compiled =
      .loaded fun _ => .error .panicked := by
  rw [CompileResult.fate, Outcome.toOption_eq_some_iff.mp h]
  rfl

theorem fate_composed (h : r.outcome.toOption = some ⟨"/plugins/d.so"⟩) :
    r.fate (fullDiskSetting.linker compiled) fullDisk compiled =
      .loaded fun _ => ((fixedBuilder (.done [.withName "first"])).compose default).2 := by
  rw [CompileResult.fate, Outcome.toOption_eq_some_iff.mp h]
  rfl

theorem fate_unconstructed (h : r.outcome.toOption = some ⟨"/plugins/e.so"⟩) :
    r.fate (fullDiskSetting.linker compiled) fullDisk compiled =
      .notConstructed (.text "no credentials") := by
  rw [CompileResult.fate, Outcome.toOption_eq_some_iff.mp h]
  rfl

variable {fates : Fates} {units : List BuildUnit} {m : Machine} {unit : BuildUnit}

/-- What becomes of a unit is what becomes of its result. -/
theorem exists_result (fares : fullDiskSetting.stages.Fares units m fates) (hunit : unit ∈ units) :
    ∃ r ∈ (fullDiskSetting.stages.compile units m).1, r.unit = unit ∧
      ∃ compiled, r.fate (fullDiskSetting.linker compiled) fullDisk compiled = fates.fate unit := by
  obtain ⟨r, hr, rfl⟩ :=
    List.mem_map.mp ((fullDiskSetting.answersAll units m).mem_iff.mpr hunit)
  exact ⟨r, hr, rfl, _, fares.fate r hr⟩

/-- What becomes of the four units: the last one has its composition, and the others fail. -/
theorem fate_fourUnits
    (fares : fullDiskSetting.stages.Fares fourUnits (unitMachine ["a", "b", "c", "d"]) fates) :
    fates.fate (namedUnit "d") =
        .loaded (fun _ => ((fixedBuilder (.done [.withName "first"])).compose default).2) ∧
      ∀ unit ∈ fourUnits, (∀ panic, fates.fate unit ≠ .notConstructed panic) ∧
        (unit ≠ namedUnit "d" → ∀ made, (fates.fate unit).composition? made = none) := by
  constructor
  · obtain ⟨r, hr, hunit, compiled, hfate⟩ :=
      exists_result fares (show namedUnit "d" ∈ fourUnits by decide)
    have houtcome := outcomes_fourUnits r hr
    rw [hunit] at houtcome
    exact hfate.symm.trans (fate_composed houtcome)
  · intro unit hmem
    obtain ⟨r, hr, rfl, compiled, hfate⟩ := exists_result fares hmem
    have houtcome := outcomes_fourUnits r hr
    rw [← hfate]
    simp only [fourUnits, List.map_cons, List.map_nil, List.mem_cons, List.not_mem_nil,
      or_false] at hmem
    rcases hmem with hunit | hunit | hunit | hunit
    · rw [hunit] at houtcome
      obtain ⟨cause, hmissing⟩ := fate_missing houtcome
      rw [hmissing]
      exact ⟨nofun, fun _ _ => rfl⟩
    · rw [hunit] at houtcome
      obtain ⟨cause, hforeign⟩ := fate_foreign houtcome
      rw [hforeign]
      exact ⟨nofun, fun _ _ => rfl⟩
    · rw [hunit] at houtcome
      rw [fate_panicking houtcome]
      exact ⟨nofun, fun _ _ => rfl⟩
    · rw [hunit] at houtcome
      rw [fate_composed houtcome]
      exact ⟨nofun, fun hne => absurd hunit hne⟩

theorem fate_twoUnits (fares : fullDiskSetting.stages.Fares [namedUnit "d", namedUnit "e"]
      (unitMachine ["d", "e"]) fates) :
    fates.fate (namedUnit "d") =
        .loaded (fun _ => ((fixedBuilder (.done [.withName "first"])).compose default).2) ∧
      fates.fate (namedUnit "e") = .notConstructed (.text "no credentials") := by
  constructor
  · obtain ⟨r, hr, hunit, compiled, hfate⟩ := exists_result fares List.mem_cons_self
    have houtcome := outcomes_twoUnits r hr
    rw [hunit] at houtcome
    exact hfate.symm.trans (fate_composed houtcome)
  · obtain ⟨r, hr, hunit, compiled, hfate⟩ :=
      exists_result fares (List.mem_cons_of_mem _ List.mem_cons_self)
    have houtcome := outcomes_twoUnits r hr
    rw [hunit] at houtcome
    exact hfate.symm.trans (fate_unconstructed houtcome)

theorem failOutside_fourUnits
    (fares : fullDiskSetting.stages.Fares fourUnits (unitMachine ["a", "b", "c", "d"]) fates) :
    fates.FailOutside (BuildUnit.byName fourUnits) [] (· = namedUnit "d") := by
  refine Fates.failOutside_of_forall fun unit hmem hout made => ?_
  have hunit : unit ∈ fourUnits := (List.mergeSort_perm _ _).mem_iff.mp hmem
  exact ((fate_fourUnits fares).2 unit hunit).2 (of_decide_eq_false hout) made

/-- A build of the unit that remains fares alike. -/
theorem fares_oneUnit {fates : Fates} (hfate : fates.fate (namedUnit "d") =
      .loaded fun _ => ((fixedBuilder (.done [.withName "first"])).compose default).2)
    (hanswer : ∀ made call, fates.answer made call = .error ["disk full"]) :
    fullDiskSetting.stages.Fares [namedUnit "d"] (unitMachine ["d"]) fates where
  fate r hr := by
    have hperm := fullDiskSetting.answersAll [namedUnit "d"] (unitMachine ["d"])
    have hunit : r.unit = namedUnit "d" :=
      List.mem_singleton.mp (hperm.mem_iff.mp (List.mem_map_of_mem hr))
    rw [hunit, hfate]
    exact fate_composed (outcomes_oneUnit r hr)
  answer made call := (answer_fullDisk _ call).trans (hanswer made call).symm

theorem answer_fares (fares : fullDiskSetting.stages.Fares units m fates)
    (made : List (String × String)) (call : String × String) :
    fates.answer made call = .error ["disk full"] :=
  (fares.answer made call).symm.trans (answer_fullDisk _ call)

theorem not_panics_oneUnit :
    ¬fullDiskSetting.stages.Panics [namedUnit "d"] (unitMachine ["d"]) := by
  rintro ⟨r, hr, panic, hpanics⟩
  obtain ⟨panic, hfate⟩ :=
    (CompileResult.fate_eq_notConstructed_iff _ fullDisk default r).mpr ⟨panic, hpanics⟩
  cases (fate_composed (outcomes_oneUnit r hr)).symm.trans hfate

theorem calls_oneUnit : (fullDiskSetting.calls (unitMachine ["d"])).map (·.call.1) = ["first"] ∧
    ∃ call ∈ fullDiskSetting.calls (unitMachine ["d"]), call.Fails := by
  rw [BuildSetting.calls, (BuildStages.acts_of_ok discover_oneUnit not_panics_oneUnit).2]
  decide +kernel

theorem failures_isolated_fourUnits :
    fullDiskSetting.calls (unitMachine ["d"]) =
        fullDiskSetting.calls (unitMachine ["a", "b", "c", "d"]) ∧
      (fullDiskSetting.calls (unitMachine ["d"])).map (·.call.1) = ["first"] ∧
      (∃ failure, (fullDiskSetting.run (unitMachine ["a", "b", "c", "d"])).outcome =
        .error failure) ∧
      .removePlugins ∈ fullDiskSetting.acts (unitMachine ["a", "b", "c", "d"]) := by
  obtain ⟨-, -, -, hfound⟩ :=
    BuildSetting.failures_isolated fullDiskSetting (unitMachine ["a", "b", "c", "d"])
  obtain ⟨-, hacts, hfates⟩ := hfound fourUnits discover_fourUnits
  obtain ⟨⟨fates, fares⟩, hsame⟩ := hfates (by decide)
  obtain ⟨hpanics, hother⟩ := hsame fates fares
  have hreturn : ¬fullDiskSetting.stages.Panics fourUnits (unitMachine ["a", "b", "c", "d"]) := by
    rw [hpanics]
    rintro ⟨unit, hunit, panic, hfate⟩
    exact ((fate_fourUnits fares).2 unit hunit).1 panic hfate
  obtain ⟨-, hcalls, hends⟩ := (hother hreturn).2 fullDiskSetting (unitMachine ["d"])
    [namedUnit "d"] (· = namedUnit "d") (failOutside_fourUnits fares) discover_oneUnit (by decide)
    (fares_oneUnit (fate_fourUnits fares).1 (answer_fares fares))
  refine ⟨hcalls, calls_oneUnit.1, ?_, ?_⟩
  · exact hends.mp
      ((fullDiskSetting.run_error_iff discover_oneUnit not_panics_oneUnit).mpr calls_oneUnit.2)
  · rw [hacts hreturn]
    exact List.mem_append_right _ List.mem_cons_self

/-- A constructor that panics is not isolated. Neither is the other unit written, nor is what was
compiled removed. -/
theorem panic_spreads : ¬∀ (b : BuildSetting) (m m' : Machine) (units units' : List BuildUnit)
    (fates : Fates) (remains : BuildUnit → Bool),
    b.stages.discover m = .ok units → (units.map BuildUnit.artifactName).Nodup →
    b.stages.Fares units m fates → fates.FailOutside (BuildUnit.byName units) [] remains →
    b.stages.discover m' = .ok units' → units'.Perm (units.filter remains) →
    b.stages.Fares units' m' fates →
    b.calls m = b.calls m' ∨ (b.keep = false → .removePlugins ∈ b.acts m) := by
  intro h
  have hnodup : ([namedUnit "d", namedUnit "e"].map BuildUnit.artifactName).Nodup := by decide
  obtain ⟨fates, fares⟩ : ∃ fates, fullDiskSetting.stages.Fares _ (unitMachine ["d", "e"]) fates :=
    BuildStages.exists_fares fullDiskSetting.answersAll hnodup
  obtain ⟨hcomposed, hpanicked⟩ := fate_twoUnits fares
  have hpanics : fullDiskSetting.stages.Panics _ (unitMachine ["d", "e"]) :=
    (BuildStages.panics_iff fullDiskSetting.answersAll fares).mpr
      ⟨namedUnit "e", by decide, _, hpanicked⟩
  have hfail : fates.FailOutside (BuildUnit.byName [namedUnit "d", namedUnit "e"]) []
      (· = namedUnit "d") := by
    refine Fates.failOutside_of_forall fun unit hmem hout made => ?_
    have hunit := (List.mergeSort_perm _ _).mem_iff.mp hmem
    rcases List.mem_pair.mp hunit with rfl | rfl
    · exact absurd rfl (of_decide_eq_false hout)
    · rw [hpanicked]
      rfl
  have hacts : fullDiskSetting.acts (unitMachine ["d", "e"]) = [] :=
    BuildStages.acts_of_panics discover_twoUnits hpanics
  rcases h fullDiskSetting (unitMachine ["d", "e"]) (unitMachine ["d"]) _ _ fates
    (· = namedUnit "d") discover_twoUnits hnodup fares hfail discover_oneUnit (by decide)
    (fares_oneUnit hcomposed (answer_fares fares)) with hcalls | hremoved
  · have hnone : fullDiskSetting.calls (unitMachine ["d", "e"]) = [] :=
      congrArg (List.filterMap BuildAct.call?) hacts
    have hfirst := calls_oneUnit.1
    rw [← hcalls, hnone] at hfirst
    cases hfirst
  · have hmem := hremoved rfl
    rw [hacts] at hmem
    cases hmem

end CompositionGen
