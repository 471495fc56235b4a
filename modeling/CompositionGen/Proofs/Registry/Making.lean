import CompositionGen.Proofs.Outcome
import CompositionGen.Registry

/-!
# When builders are made

A declaration is asked for its builder after it has been accepted, and not before. Loading does the
same in every monad: whatever is done where a declaration is asked is done for those that are
accepted, once for each result, and for no others. Where that is a panic, loading ends.
-/

namespace CompositionGen

/-! ## Accepted declarations -/

/-- The declaration that is accepted at a path. -/
def Linker.accepted? (linker : Linker) (path : Path) : Option Declaration :=
  (linker path).bind fun library => library.declaration.filter (·.isCompatible)

namespace CompileResult

/-- The declaration that is accepted for a result. -/
def accepted? (linker : Linker) (r : CompileResult) : Option Declaration :=
  r.outcome.toOption.bind linker.accepted?

/-- The constructor of the declaration that is accepted for a result panics. -/
def PanicsWith (linker : Linker) (r : CompileResult) (panic : Panic) : Prop :=
  ∃ d, r.accepted? linker = some d ∧ d.panic = some panic

/-- What a result adds to a registry. -/
def loaded? (linker : Linker) (r : CompileResult) : Option (String × LoadedBuilder) :=
  r.outcome.toOption.bind fun artifact =>
    (linker.load artifact).toOption.map fun builder => (r.unit.artifactName, builder)

end CompileResult

theorem Declaration.check_eq_ok_iff {d : Declaration} {path : Path} :
    d.check path = .ok () ↔ d.isCompatible = true := by
  rw [check, isCompatible]
  by_cases habi : d.abiVersion = hostAbi
  · by_cases hversion : d.buildVersion = hostVersion
    · simp [habi, hversion]
    · simp [habi, hversion]
  · simp [habi]

/-- What loading does at a path: either no declaration is accepted there and it fails, or the one
that is accepted is asked for its builder. -/
theorem Linker.load_cases (linker : Linker) (path : Path) :
    (∃ cause, linker.accepted? path = none ∧ linker.load path = .error cause ∧
        ∀ (m : Type → Type) [Monad m] (make : Declaration → m Builder),
          linker.loadWith make path = pure (.error cause)) ∨
      ∃ d, linker.accepted? path = some d ∧ linker.load path = .ok ⟨d.create, path⟩ ∧
        ∀ (m : Type → Type) [Monad m] (make : Declaration → m Builder),
          linker.loadWith make path = make d >>= fun builder => pure (.ok ⟨builder, path⟩) := by
  simp only [accepted?, load, loadWith]
  rcases linker path with _ | ⟨_ | d⟩
  · exact .inl ⟨_, rfl, rfl, fun m _ make => rfl⟩
  · exact .inl ⟨_, rfl, rfl, fun m _ make => rfl⟩
  · simp only [Option.bind_some, Option.filter_some]
    rcases hcheck : d.check path with cause | _
    · have hnot : ¬ d.isCompatible = true := fun h => by
        rw [Declaration.check_eq_ok_iff.mpr h] at hcheck
        cases hcheck
      exact .inl ⟨cause, if_neg hnot, rfl, fun m _ make => rfl⟩
    · exact .inr ⟨d, if_pos (Declaration.check_eq_ok_iff.mp hcheck), rfl, fun m _ make => rfl⟩

namespace Registry

variable {linker : Linker} {r : CompileResult}

/-- What loading does with a result: either no declaration is accepted for it and nothing is added,
or the one that is accepted is asked for its builder, and that is added. -/
theorem loadResult_cases (linker : Linker) (r : CompileResult) :
    (r.accepted? linker = none ∧ r.loaded? linker = none ∧
      ((∀ index (m : Type → Type) [Monad m] [LawfulMonad m] [MonadStateOf Loading m]
          (make : Declaration → m Builder), loadResult make linker index r = pure ()) ∨
        ∃ cause, ∀ index (m : Type → Type) [Monad m] [LawfulMonad m] [MonadStateOf Loading m]
          (make : Declaration → m Builder),
          loadResult make linker index r = modifyThe Loading (·.refuse index r.unit cause))) ∨
    ∃ artifact d, r.accepted? linker = some d ∧
      r.loaded? linker = some (r.unit.artifactName, ⟨d.create, artifact⟩) ∧
      ∀ index (m : Type → Type) [Monad m] [LawfulMonad m] [MonadStateOf Loading m]
        (make : Declaration → m Builder), loadResult make linker index r =
          make d >>= fun builder => modifyThe Loading (·.accept r.unit ⟨builder, artifact⟩) := by
  simp only [CompileResult.accepted?, CompileResult.loaded?, loadResult]
  rcases r.outcome with cause | artifact
  · exact .inl ⟨rfl, rfl, .inl fun index m _ _ _ make => rfl⟩
  · rcases linker.load_cases artifact with
      ⟨cause, haccepted, hload, hwith⟩ | ⟨d, haccepted, hload, hwith⟩
    · refine .inl ⟨haccepted, ?_, .inr ⟨cause, fun index m _ _ _ make => ?_⟩⟩
      · simp [Except.toOption, hload]
      · simp only [hwith, pure_bind]
    · refine .inr ⟨artifact, d, haccepted, ?_, fun index m _ _ _ make => ?_⟩
      · simp [Except.toOption, hload]
      · simp only [hwith, bind_assoc, pure_bind]

namespace Loading

/-- The loading with the result at an index, if constructors return. -/
def next (linker : Linker) (index : Nat) (l : Loading) (r : CompileResult) : Loading :=
  ((loadResult (fun d => pure d.create) linker index r : StateM Loading Unit).run l).2

/-- The loading with the results from an index on, if constructors return. -/
def after (linker : Linker) (index : Nat) (l : Loading) (results : List CompileResult) : Loading :=
  ((loadResults (fun d => pure d.create) linker index results : StateM Loading Unit).run l).2

theorem after_nil (linker : Linker) (index : Nat) (l : Loading) : l.after linker index [] = l := rfl

theorem after_cons (linker : Linker) (index : Nat) (l : Loading) (r : CompileResult)
    (rest : List CompileResult) :
    l.after linker index (r :: rest) = (l.next linker index r).after linker (index + 1) rest := rfl

end Loading

theorem next_of_none (index : Nat) (l : Loading) (h : r.loaded? linker = none) :
    (l.next linker index r).registry = l.registry ∧ (l.next linker index r).loaded = l.loaded := by
  rw [Loading.next]
  rcases loadResult_cases linker r with
    ⟨-, -, hskip | ⟨cause, hrefuse⟩⟩ | ⟨artifact, d, -, hloaded, -⟩
  · rw [hskip]
    exact ⟨rfl, rfl⟩
  · rw [hrefuse]
    exact ⟨rfl, rfl⟩
  · cases h.symm.trans hloaded

theorem next_of_some {name : String} {builder : LoadedBuilder} (index : Nat) (l : Loading)
    (h : r.loaded? linker = some (name, builder)) :
    (l.next linker index r).registry = l.registry.insert name builder ∧
      (l.next linker index r).loaded = l.loaded + 1 := by
  rw [Loading.next]
  rcases loadResult_cases linker r with ⟨-, hloaded, -⟩ | ⟨artifact, d, -, hloaded, haccept⟩
  · cases h.symm.trans hloaded
  · cases h.symm.trans hloaded
    rw [haccept]
    exact ⟨rfl, rfl⟩

end Registry

/-! ## What is done for declarations -/

section Monadic

variable {m : Type → Type} [Monad m]

/-- A batch of compile results, with the libraries that are there when it is loaded. -/
structure Batch where
  linker : Linker
  results : List CompileResult

namespace Registry

/-- A registry into which batches are loaded, one after another. -/
def loadBatches (registry : Registry) (batches : List Batch) : Registry :=
  batches.foldl (fun registry b => (loadAll b.linker registry b.results).registry) registry

/-- What loading a batch comes to where builders are made in a monad. -/
def loadAllM (make : Declaration → m Builder) (linker : Linker) (registry : Registry)
    (results : List CompileResult) : m Loading := do
  let batch : StateT Loading m Unit := loadBatch (fun d => StateT.lift (make d)) linker results
  let ((), l) ← batch.run { registry }
  pure l

/-- The registry after batches where builders are made in a monad. -/
def loadBatchesM (make : Declaration → m Builder) (registry : Registry) : List Batch → m Registry
  | [] => pure registry
  | b :: rest => do
    let l ← loadAllM make b.linker registry b.results
    loadBatchesM make l.registry rest

end Registry

/-- Makes the builder of a declaration, and does something besides. -/
def Declaration.making (act : Declaration → m PUnit) (d : Declaration) : m Builder := do
  act d
  pure d.create

namespace Registry

theorem run_modifyThe (f : Loading → Loading) (l : Loading) :
    (modifyThe Loading f : StateT Loading m Unit).run l = pure ((), f l) := rfl

variable [LawfulMonad m] (act : Declaration → m PUnit)

theorem run_loadResult_making (linker : Linker) (index : Nat) (l : Loading) (r : CompileResult) :
    (loadResult (fun d => StateT.lift (Declaration.making act d)) linker index r :
        StateT Loading m Unit).run l =
      forM (r.accepted? linker).toList act >>= fun _ => pure ((), l.next linker index r) := by
  rw [Loading.next]
  rcases loadResult_cases linker r with
    ⟨haccepted, -, hskip | ⟨cause, hrefuse⟩⟩ | ⟨artifact, d, haccepted, -, haccept⟩
  · simp only [haccepted, hskip, Option.toList_none, List.forM_nil, pure_bind]
    rfl
  · simp only [haccepted, hrefuse, Option.toList_none, List.forM_nil, pure_bind]
    rfl
  · simp only [haccepted, haccept, Option.toList_some, List.forM_cons, List.forM_nil, bind_assoc,
      pure_bind, StateT.run_bind, StateT.run_lift, Declaration.making, run_modifyThe]
    rfl

theorem run_loadResults_making (linker : Linker) (index : Nat) (l : Loading)
    (results : List CompileResult) :
    (loadResults (fun d => StateT.lift (Declaration.making act d)) linker index results :
        StateT Loading m Unit).run l =
      forM (results.filterMap (·.accepted? linker)) act >>= fun _ =>
        pure ((), l.after linker index results) := by
  induction results generalizing l index with
  | nil =>
    rw [loadResults, List.filterMap_nil, List.forM_nil, pure_bind]
    rfl
  | cons r rest ih =>
    rw [loadResults, StateT.run_bind, run_loadResult_making, Loading.after_cons]
    rcases h : r.accepted? linker with _ | d
    · rw [List.filterMap_cons_none h, Option.toList_none, List.forM_nil, pure_bind, pure_bind, ih]
    · rw [List.filterMap_cons_some h, Option.toList_some]
      simp only [List.forM_cons, List.forM_nil, bind_assoc, pure_bind, ih]

theorem loadAllM_making (linker : Linker) (registry : Registry) (results : List CompileResult) :
    loadAllM (Declaration.making act) linker registry results =
      forM (results.filterMap (·.accepted? linker)) act >>= fun _ =>
        pure (loadAll linker registry results) := by
  simp only [loadAllM, loadBatch, StateT.run_bind, run_loadResults_making, bind_assoc, pure_bind,
    run_modifyThe]
  rfl

/-- What is done where declarations are asked is done for those that are accepted for the results,
once for each of these, in order. -/
theorem loadBatchesM_making (registry : Registry) (batches : List Batch) :
    loadBatchesM (Declaration.making act) registry batches =
      forM (batches.flatMap fun b => b.results.filterMap (·.accepted? b.linker)) act >>= fun _ =>
        pure (registry.loadBatches batches) := by
  induction batches generalizing registry with
  | nil => rw [loadBatchesM, List.flatMap_nil, List.forM_nil, pure_bind, loadBatches,
    List.foldl_nil]
  | cons b rest ih =>
    rw [loadBatchesM, loadAllM_making, List.flatMap_cons, List.forM_append]
    simp only [bind_assoc, pure_bind, ih]
    rfl

end Registry

end Monadic

/-! ## Constructors that panic -/

namespace Registry

variable {linker : Linker} {r : CompileResult}

theorem run_bind_of_ok {first : ExceptT Panic (StateM Loading) Unit} {l l' : Loading}
    (h : first.run.run l = (.ok (), l')) (next : Unit → ExceptT Panic (StateM Loading) Unit) :
    (first >>= next).run.run l = (next ()).run.run l' := by
  rw [ExceptT.run_bind, StateT.run_bind, h]
  rfl

theorem run_bind_of_error {first : ExceptT Panic (StateM Loading) Unit} {l l' : Loading}
    {panic : Panic} (h : first.run.run l = (.error panic, l'))
    (next : Unit → ExceptT Panic (StateM Loading) Unit) :
    (first >>= next).run.run l = (.error panic, l') := by
  rw [ExceptT.run_bind, StateT.run_bind, h]
  rfl

theorem run_loadResult_construct (linker : Linker) (index : Nat) (l : Loading) (r : CompileResult) :
    (loadResult (fun d => liftExcept d.construct) linker index r :
        ExceptT Panic (StateM Loading) Unit).run.run l =
      match (r.accepted? linker).bind (·.panic) with
      | none => (.ok (), l.next linker index r)
      | some panic => (.error panic, l) := by
  rw [Loading.next]
  rcases loadResult_cases linker r with
    ⟨haccepted, -, hskip | ⟨cause, hrefuse⟩⟩ | ⟨artifact, d, haccepted, -, haccept⟩
  · rw [haccepted, hskip, hskip]
    rfl
  · rw [haccepted, hrefuse, hrefuse]
    rfl
  · rw [haccepted, haccept, haccept, Option.bind_some, Declaration.construct]
    rcases d.panic with _ | panic
    · rfl
    · rfl

theorem bind_panic_eq_none_iff :
    (r.accepted? linker).bind (·.panic) = none ↔ ∀ panic, ¬r.PanicsWith linker panic := by
  rw [Option.eq_none_iff_forall_ne_some]
  simp only [ne_eq, Option.bind_eq_some_iff, CompileResult.PanicsWith]

/-- Results are loaded one after another if no constructor panics, and else up to the first that
does. -/
theorem loadResults_construct_cases (linker : Linker) (index : Nat) (l : Loading)
    (results : List CompileResult) :
    ((∀ r ∈ results, ∀ panic, ¬r.PanicsWith linker panic) ∧
        (loadResults (fun d => liftExcept d.construct) linker index results :
          ExceptT Panic (StateM Loading) Unit).run.run l =
          (.ok (), l.after linker index results)) ∨
      ∃ before r rest panic, results = before ++ r :: rest ∧
        (∀ r ∈ before, ∀ panic, ¬r.PanicsWith linker panic) ∧ r.PanicsWith linker panic ∧
        (loadResults (fun d => liftExcept d.construct) linker index results :
          ExceptT Panic (StateM Loading) Unit).run.run l =
          (.error panic, l.after linker index before) := by
  induction results generalizing l index with
  | nil => exact .inl ⟨nofun, rfl⟩
  | cons r rest ih =>
    have hfirst := run_loadResult_construct linker index l r
    rcases hpanic : (r.accepted? linker).bind (·.panic) with _ | panic
    · -- The rest decides, from where this result leaves off.
      rw [hpanic] at hfirst
      have hstep : (loadResults (fun d => liftExcept d.construct) linker index (r :: rest) :
            ExceptT Panic (StateM Loading) Unit).run.run l =
          (loadResults (fun d => liftExcept d.construct) linker (index + 1) rest :
            ExceptT Panic (StateM Loading) Unit).run.run (l.next linker index r) := by
        rw [loadResults]
        exact run_bind_of_ok hfirst _
      have hr : ∀ panic, ¬r.PanicsWith linker panic := bind_panic_eq_none_iff.mp hpanic
      rcases ih (index + 1) (l.next linker index r) with
        ⟨hrest, hrun⟩ | ⟨before, r', later, panic, rfl, hbefore, hr', hrun⟩
      · refine .inl ⟨List.forall_mem_cons.mpr ⟨hr, hrest⟩, ?_⟩
        rw [hstep, hrun, Loading.after_cons]
      · refine .inr ⟨r :: before, r', later, panic, rfl, List.forall_mem_cons.mpr ⟨hr, hbefore⟩,
          hr', ?_⟩
        rw [hstep, hrun, Loading.after_cons]
    · rw [hpanic] at hfirst
      refine .inr ⟨[], r, rest, panic, rfl, nofun, Option.bind_eq_some_iff.mp hpanic, ?_⟩
      rw [loadResults]
      exact run_bind_of_error hfirst _

/-- A batch is loaded whole if no constructor panics, and else up to the first that does. -/
theorem loadAllOrPanic_cases (linker : Linker) (registry : Registry)
    (results : List CompileResult) :
    ((∀ r ∈ results, ∀ panic, ¬r.PanicsWith linker panic) ∧
        loadAllOrPanic linker registry results = (.ok (), loadAll linker registry results)) ∨
      ∃ before r rest panic, results = before ++ r :: rest ∧
        (∀ r ∈ before, ∀ panic, ¬r.PanicsWith linker panic) ∧ r.PanicsWith linker panic ∧
        loadAllOrPanic linker registry results =
          (.error panic, Loading.after linker 0 { registry } before) := by
  rcases loadResults_construct_cases linker 0 { registry } results with
    ⟨hnone, hrun⟩ | ⟨before, r, rest, panic, hresults, hbefore, hr, hrun⟩
  · exact .inl ⟨hnone, run_bind_of_ok hrun _⟩
  · exact .inr ⟨before, r, rest, panic, hresults, hbefore, hr, run_bind_of_error hrun _⟩

end Registry

end CompositionGen
