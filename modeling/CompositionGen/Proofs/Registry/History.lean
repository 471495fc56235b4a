import CompositionGen.Proofs.Registry.Loading
import CompositionGen.Proofs.Text.Ordering

/-!
# What a registry holds after any batches

Batches are loaded one after another, each when other libraries may be there. A unit is registered
once a result of its name has been loaded, with the builder of the last one that was; what fails
later takes nothing away.
-/

namespace CompositionGen

/-- A result with the libraries that are there when it is loaded. -/
structure LoadAttempt where
  linker : Linker
  result : CompileResult

/-- The attempts of a batch. -/
def Batch.attempts (b : Batch) : List LoadAttempt := b.results.map (⟨b.linker, ·⟩)

namespace LoadAttempt

/-- The name under which a builder would be registered. -/
def unit (a : LoadAttempt) : String := a.result.unit.artifactName

/-- An attempt loads: its unit was compiled, and the library at the artifact declares a builder for
this host, in both parts of the interface. -/
structure Loads (a : LoadAttempt) (artifact : Path) (d : Declaration) : Prop where
  outcome : a.result.outcome = .ok artifact
  library : a.linker artifact = some ⟨some d⟩
  abi : d.abiVersion = hostAbi
  version : d.buildVersion = hostVersion

/-- An attempt loads with some artifact and declaration. -/
def Succeeds (a : LoadAttempt) : Prop := ∃ artifact d, a.Loads artifact d

/-- What an attempt adds to a registry. -/
def added? (a : LoadAttempt) : Option (String × LoadedBuilder) := a.result.loaded? a.linker

variable {a : LoadAttempt} {artifact : Path} {d : Declaration} {name : String}
  {builder : LoadedBuilder}

theorem loads_iff : a.Loads artifact d ↔
    a.result.outcome = .ok artifact ∧ a.linker.accepted? artifact = some d := by
  simp only [Linker.accepted?, Option.bind_eq_some_iff, Option.filter_eq_some_iff,
    Declaration.isCompatible, Bool.and_eq_true, beq_iff_eq]
  constructor
  · rintro ⟨houtcome, hlibrary, habi, hversion⟩
    exact ⟨houtcome, ⟨some d⟩, hlibrary, rfl, habi, hversion⟩
  · rintro ⟨houtcome, ⟨_⟩, hlibrary, rfl, habi, hversion⟩
    exact ⟨houtcome, hlibrary, habi, hversion⟩

theorem accepted?_eq_some_iff :
    a.result.accepted? a.linker = some d ↔ ∃ artifact, a.Loads artifact d := by
  simp only [CompileResult.accepted?, Option.bind_eq_some_iff, Outcome.toOption_eq_some_iff,
    loads_iff]

theorem added?_eq_some_iff : a.added? = some (name, builder) ↔
    a.unit = name ∧ ∃ artifact d, a.Loads artifact d ∧ builder = ⟨d.create, artifact⟩ := by
  rw [added?, CompileResult.loaded?_eq_some_iff]
  simp only [loads_iff, and_assoc, exists_and_left]
  refine and_congr_right fun _ => exists_congr fun artifact => and_congr_right fun _ => ?_
  rcases a.linker.load_cases artifact with ⟨cause, haccepted, hload, -⟩ | ⟨d, haccepted, hload, -⟩
  · simp [haccepted, hload]
  · simp [haccepted, hload, eq_comm]

theorem succeeds_iff_isSome : a.Succeeds ↔ a.added?.isSome = true := by
  simp only [Option.isSome_iff_exists, Prod.exists, added?_eq_some_iff]
  constructor
  · rintro ⟨artifact, d, h⟩
    exact ⟨_, _, rfl, artifact, d, h, rfl⟩
  · rintro ⟨_, _, -, artifact, d, h, -⟩
    exact ⟨artifact, d, h⟩

instance : DecidablePred Succeeds := fun _ => decidable_of_iff _ succeeds_iff_isSome.symm

theorem units_added (attempts : List LoadAttempt) :
    (attempts.filterMap added?).map (·.1) = (attempts.filter (·.Succeeds)).map unit := by
  rw [eq_comm, ← List.forall₂_eq_eq_eq, List.forall₂_map_left_iff, List.forall₂_map_right_iff]
  have h := forall₂_filter_filterMap (fun a => succeeds_iff_isSome (a := a)) attempts
  exact h.imp fun a e he => (added?_eq_some_iff.mp he).1

theorem accepted_loads (attempts : List LoadAttempt) :
    List.Forall₂ (fun a d => ∃ artifact, a.Loads artifact d) (attempts.filter (·.Succeeds))
      (attempts.filterMap fun a => a.result.accepted? a.linker) := by
  have hiff (a : LoadAttempt) : a.Succeeds ↔ (a.result.accepted? a.linker).isSome = true := by
    simp only [Succeeds, Option.isSome_iff_exists, accepted?_eq_some_iff]
    exact exists_comm
  exact (forall₂_filter_filterMap hiff attempts).imp fun a d => accepted?_eq_some_iff.mp

/-- What an attempt adds under a name. -/
def addedUnder? (name : String) (a : LoadAttempt) : Option LoadedBuilder :=
  a.added?.bind fun e => if e.1 = name then some e.2 else none

theorem addedUnder?_eq_some_iff : a.addedUnder? name = some builder ↔
    a.unit = name ∧ ∃ artifact d, a.Loads artifact d ∧ builder = ⟨d.create, artifact⟩ := by
  rw [← added?_eq_some_iff, addedUnder?, Option.bind_eq_some_iff]
  simp only [Option.ite_none_right_eq_some, Option.some_inj]
  constructor
  · rintro ⟨⟨_, _⟩, ha, rfl, rfl⟩
    exact ha
  · intro ha
    exact ⟨_, ha, rfl, rfl⟩

theorem addedUnder?_eq_none_iff : a.addedUnder? name = none ↔ (a.unit = name → ¬ a.Succeeds) := by
  rw [Option.eq_none_iff_forall_ne_some]
  simp only [ne_eq, addedUnder?_eq_some_iff]
  constructor
  · rintro h hunit ⟨artifact, d, hloads⟩
    exact h _ ⟨hunit, artifact, d, hloads, rfl⟩
  · rintro h builder ⟨hunit, artifact, d, hloads, -⟩
    exact h hunit ⟨artifact, d, hloads⟩

end LoadAttempt

namespace Registry

theorem additions_eq (b : Batch) :
    additions b.linker b.results = b.attempts.filterMap LoadAttempt.added? := by
  rw [Batch.attempts, List.filterMap_map]
  rfl

theorem loaded_loadBatches (registry : Registry) (batches : List Batch) :
    (registry.loadBatches batches).loaded = registry.loaded.insertAll
      ((batches.flatMap Batch.attempts).filterMap LoadAttempt.added?) := by
  rw [List.filterMap_flatMap]
  have hstep (registry : Registry) (b : Batch) :
      (loadAll b.linker registry b.results).registry.loaded =
        registry.loaded.insertAll (b.attempts.filterMap LoadAttempt.added?) := by
    rw [registry_loadAll, additions_eq]
  exact foldl_merges hstep batches registry

variable {batches : List Batch} {name : String} {builder : LoadedBuilder}

theorem get?_loadBatches_iff :
    (loadBatches ⟨.empty⟩ batches).loaded.get? name = some builder ↔
      ∃ before a after artifact d, batches.flatMap Batch.attempts = before ++ a :: after ∧
        a.unit = name ∧ a.Loads artifact d ∧ builder = ⟨d.create, artifact⟩ ∧
        ∀ b ∈ after, b.unit = name → ¬ b.Succeeds := by
  rw [loaded_loadBatches, Dictionary.get?_insertAll, List.filterMap_filterMap]
  have hnone : (⟨.empty⟩ : Registry).loaded.get? name = none := rfl
  rw [hnone, Option.or_none, getLast?_filterMap_eq_some_iff]
  constructor
  · rintro ⟨before, a, after, hsplit, ha, hafter⟩
    obtain ⟨hunit, artifact, d, hloads, rfl⟩ := LoadAttempt.addedUnder?_eq_some_iff.mp ha
    exact ⟨before, a, after, artifact, d, hsplit, hunit, hloads, rfl,
      fun b hb => LoadAttempt.addedUnder?_eq_none_iff.mp (hafter b hb)⟩
  · rintro ⟨before, a, after, artifact, d, hsplit, hunit, hloads, rfl, hafter⟩
    exact ⟨before, a, after, hsplit,
      LoadAttempt.addedUnder?_eq_some_iff.mpr ⟨hunit, artifact, d, hloads, rfl⟩,
      fun b hb => LoadAttempt.addedUnder?_eq_none_iff.mpr (hafter b hb)⟩

theorem names_loadBatches :
    (loadBatches ⟨.empty⟩ batches).loaded.names.Perm
      (((batches.flatMap Batch.attempts).filter (·.Succeeds)).map (·.unit)).dedup := by
  rw [loaded_loadBatches, ← LoadAttempt.units_added]
  exact Dictionary.names_insertAll_empty

theorem loaded_loadAll_batch (registry : Registry) (b : Batch) :
    (loadAll b.linker registry b.results).loaded = b.attempts.countP (·.Succeeds) := by
  rw [loaded_loadAll, additions_eq, List.length_filterMap_eq_countP]
  refine List.countP_congr fun a _ => ?_
  rw [decide_eq_true_eq, LoadAttempt.succeeds_iff_isSome]

theorem mem_builders_iff {registry : Registry} {builder : Builder} :
    (name, builder) ∈ registry.builders ↔ registry.get? name = some builder := by
  simp only [builders, get?, Dictionary.get?, List.mem_map, Option.map_eq_some_iff,
    lookup?_eq_some_iff registry.loaded.sorted, Prod.exists, Prod.mk.injEq]
  constructor
  · rintro ⟨_, loaded, hmem, rfl, rfl⟩
    exact ⟨loaded, hmem, rfl⟩
  · rintro ⟨loaded, hmem, rfl⟩
    exact ⟨name, loaded, hmem, rfl, rfl⟩

theorem isSome_get?_iff {registry : Registry} :
    (registry.get? name).isSome = true ↔ name ∈ registry.loaded.names := by
  rw [get?, Option.isSome_map, Option.isSome_iff_exists, Dictionary.mem_names_iff]

/-- The contents of a registry after any batches, loaded into an empty one. The units are those of
which some result was compiled and loaded, each with the builder of the last such result, and they
are listed in the order of their bytes. Builders come from declarations for this host; no other
declaration is asked for one, so that whatever is done where declarations are asked is done for
these, once for each result that loads. A batch counts the results that load, however many of them
share a unit. -/
theorem loadBatches_contents (batches : List Batch) :
    let registry := loadBatches ⟨.empty⟩ batches
    let attempts := batches.flatMap Batch.attempts
    (∀ name, (registry.get? name).isSome = true ↔ ∃ a ∈ attempts, a.unit = name ∧ a.Succeeds) ∧
      (∀ name builder, registry.loaded.get? name = some builder ↔
        ∃ before a after artifact d, attempts = before ++ a :: after ∧ a.unit = name ∧
          a.Loads artifact d ∧ builder = ⟨d.create, artifact⟩ ∧
          ∀ b ∈ after, b.unit = name → ¬ b.Succeeds) ∧
      (∃ asked, (∀ (m : Type → Type) [Monad m] [LawfulMonad m] (act : Declaration → m PUnit),
          loadBatchesM (Declaration.making act) ⟨.empty⟩ batches =
            forM asked act >>= fun _ => pure registry) ∧
        List.Forall₂ (fun a d => ∃ artifact, a.Loads artifact d) (attempts.filter (·.Succeeds))
          asked ∧
        ∀ d ∈ asked, d.abiVersion = hostAbi ∧ d.buildVersion = hostVersion) ∧
      (∀ b : Batch, (loadAll b.linker registry b.results).loaded =
        b.attempts.countP (·.Succeeds)) ∧
      registry.size = ((attempts.filter (·.Succeeds)).map (·.unit)).dedup.length ∧
      (registry.builders.map (·.1)).Pairwise (Utf8.encode · < Utf8.encode ·) ∧
      ∀ name builder, (name, builder) ∈ registry.builders ↔ registry.get? name = some builder := by
  intro registry attempts
  -- A unit has one builder, however many of its results were loaded.
  have hnames : registry.loaded.names.Perm ((attempts.filter (·.Succeeds)).map (·.unit)).dedup :=
    names_loadBatches
  refine ⟨fun name => ?_, fun name builder => get?_loadBatches_iff, ?_,
    fun b => loaded_loadAll_batch registry b, ?_, ?_, fun name builder => mem_builders_iff⟩
  · rw [isSome_get?_iff, hnames.mem_iff]
    simp only [List.mem_dedup, List.mem_map, List.mem_filter, decide_eq_true_eq]
    constructor
    · rintro ⟨a, ⟨ha, hsucceeds⟩, hunit⟩
      exact ⟨a, ha, hunit, hsucceeds⟩
    · rintro ⟨a, ha, hunit, hsucceeds⟩
      exact ⟨a, ⟨ha, hsucceeds⟩, hunit⟩
  -- The declarations that are asked are those accepted, in the order of the attempts.
  · refine ⟨_, fun m _ _ act => ?_, LoadAttempt.accepted_loads attempts, fun d hd => ?_⟩
    · rw [loadBatchesM_making, List.filterMap_flatMap]
      simp only [Batch.attempts, List.filterMap_map]
      rfl
    · obtain ⟨a, -, haccepted⟩ := List.mem_filterMap.mp hd
      obtain ⟨artifact, hloads⟩ := LoadAttempt.accepted?_eq_some_iff.mp haccepted
      exact ⟨hloads.abi, hloads.version⟩
  · rw [← hnames.length_eq, Dictionary.names, List.length_map]
    rfl
  · rw [units_builders, Dictionary.names, List.pairwise_map]
    exact registry.loaded.sorted.imp Utf8.encode_lt

/-! ## A batch loaded twice -/

/-- Opens every library; one has been made for a later interface. -/
def laterLinker : Linker := fun path =>
  let abi := if path = ⟨"plugins/a.so"⟩ then hostAbi + 1 else hostAbi
  some ⟨some ⟨abi, hostVersion, Demo.pipelineBuilder, none⟩⟩

/-- The same results, loaded again after the libraries have changed. -/
def repeatedBatches : List Batch := [⟨partialLinker, unevenResults⟩, ⟨laterLinker, unevenResults⟩]

theorem loadBatches_contents_repeatedBatches :
    let registry := loadBatches ⟨.empty⟩ repeatedBatches
    registry.loaded.get? "a" = some ⟨Demo.exampleBuilder, ⟨"plugins/a.so"⟩⟩ ∧
      (registry.get? "d").isSome = false ∧ registry.size = 3 ∧
      (loadAll laterLinker registry unevenResults).loaded = 2 ∧
      ∃ asked : List Declaration, asked.length = 4 ∧ ∀ d ∈ asked, d.abiVersion = hostAbi := by
  intro registry
  obtain ⟨hunits, hlast, ⟨asked, -, hasked, hcompatible⟩, hcount, hsize, -⟩ :=
    loadBatches_contents repeatedBatches
  refine ⟨?_, ?_, ?_, ?_, asked, ?_, fun d hd => (hcompatible d hd).1⟩
  · -- The first result is the last one of its unit that loads.
    refine (hlast _ _).mpr ⟨[], _, _, ⟨"plugins/a.so"⟩, _, rfl, rfl, ⟨rfl, rfl, rfl, rfl⟩, rfl, ?_⟩
    decide +kernel
  · rw [← Bool.not_eq_true, hunits]
    decide +kernel
  · rw [hsize]
    decide +kernel
  · rw [hcount ⟨laterLinker, unevenResults⟩]
    decide +kernel
  · rw [← hasked.length_eq]
    decide +kernel

end Registry

end CompositionGen
