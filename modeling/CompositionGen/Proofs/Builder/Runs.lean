import CompositionGen.Builder.Run
import CompositionGen.Proofs.Outcome

/-!
# Runs in which everything is written

A run goes on with the next builder after one that yields nothing and after one whose composition is
written. So a run that ends well goes through the builders in order: each one is dropped, or its
composition is written, and nothing else changes what is written to.
-/

namespace CompositionGen

/-- The call that writes a composition: its name and what it is written as. -/
def Composition.call (c : Composition) : String × String := (c.name, Yaml.document c.toJson)

variable {σ : Type} {w : Writer σ} {builders rest : List (String × Builder)} {state final : σ}
  {cs : List Composition} {dropped index : Nat} {start : RunSummary} {unit : String}
  {builder : Builder} {c : Composition}

/-! ## One builder -/

theorem runFrom_dropped {reason : DropReason}
    (hc : (builder.compose (w.files state)).2 = .error reason) :
    runFrom w index start ((unit, builder) :: rest) state =
      (runFrom w (index + 1) { start with dropped := start.dropped + 1 } rest state).after
        ((builder.compose (w.files state)).1 ++ reportDropped unit index reason) := by
  rcases hcomposed : builder.compose (w.files state) with ⟨report, composed⟩
  rw [hcomposed] at hc
  subst hc
  rw [runFrom, hcomposed]

theorem runFrom_composed (hc : (builder.compose (w.files state)).2 = .ok c) :
    runFrom w index start ((unit, builder) :: rest) state =
      match w.write state c.call.1 c.call.2 with
      | (next, .error cause) =>
        ⟨next, (builder.compose (w.files state)).1, .error ⟨c.name, unit, cause⟩⟩
      | (next, .ok ()) =>
        (runFrom w (index + 1) { start with written := start.written + 1 } rest next).after
          ((builder.compose (w.files state)).1 ++ reportWritten unit c) := by
  rcases hcomposed : builder.compose (w.files state) with ⟨report, composed⟩
  rw [hcomposed] at hc
  subst hc
  rw [runFrom, hcomposed]
  rfl

theorem runFrom_written (hc : (builder.compose (w.files state)).2 = .ok c)
    (hw : (w.write state c.call.1 c.call.2).2 = .ok ()) :
    runFrom w index start ((unit, builder) :: rest) state =
      (runFrom w (index + 1) { start with written := start.written + 1 } rest
        (w.write state c.call.1 c.call.2).1).after
        ((builder.compose (w.files state)).1 ++ reportWritten unit c) := by
  have hwrite : w.write state c.call.1 c.call.2 = (_, .ok ()) := Prod.ext rfl hw
  rw [runFrom_composed hc, hwrite]

theorem runFrom_refused {cause : List String} (hc : (builder.compose (w.files state)).2 = .ok c)
    (hw : (w.write state c.call.1 c.call.2).2 = .error cause) :
    runFrom w index start ((unit, builder) :: rest) state =
      ⟨(w.write state c.call.1 c.call.2).1, (builder.compose (w.files state)).1,
        .error ⟨c.name, unit, cause⟩⟩ := by
  have hwrite : w.write state c.call.1 c.call.2 = (_, .error cause) := Prod.ext rfl hw
  rw [runFrom_composed hc, hwrite]

/-! ## Runs that end well -/

/-- A run of builders that ends well: the compositions in the order in which they are written, how
many builders are dropped, and what is there in the end. -/
inductive Runs (w : Writer σ) :
  List (String × Builder) → σ → List Composition → Nat → σ → Prop where
  | done (state : σ) : Runs w [] state [] 0 state
  | dropped {unit : String} {builder : Builder} {rest : List (String × Builder)} {state final : σ}
    {cs : List Composition} {n : Nat} {reason : DropReason}
    (composed : (builder.compose (w.files state)).2 = .error reason)
    (next : Runs w rest state cs n final) : Runs w ((unit, builder) :: rest) state cs (n + 1) final
  | written {unit : String} {builder : Builder} {rest : List (String × Builder)}
    {state mid final : σ} {c : Composition} {cs : List Composition} {n : Nat}
    (composed : (builder.compose (w.files state)).2 = .ok c)
    (writes : w.write state c.name (Yaml.document c.toJson) = (mid, .ok ()))
    (next : Runs w rest mid cs n final) : Runs w ((unit, builder) :: rest) state (c :: cs) n final

theorem runs_of_runFrom {total : RunSummary}
    (h : (runFrom w index start builders state).outcome = .ok total) :
    ∃ cs n, Runs w builders state cs n (runFrom w index start builders state).state ∧
      total = ⟨start.written + cs.length, start.dropped + n⟩ := by
  induction builders generalizing index start state with
  | nil =>
    cases h
    exact ⟨[], 0, .done state, rfl⟩
  | cons entry rest ih =>
    obtain ⟨unit, builder⟩ := entry
    rcases hc : (builder.compose (w.files state)).2 with reason | c
    · rw [runFrom_dropped hc] at h ⊢
      obtain ⟨cs, n, hruns, htotal⟩ := ih h
      refine ⟨cs, n + 1, .dropped hc hruns, ?_⟩
      rw [htotal]
      simp only [RunSummary.mk.injEq, true_and]
      omega
    · rcases hw : (w.write state c.call.1 c.call.2).2 with cause | _
      · rw [runFrom_refused hc hw] at h
        cases h
      · rw [runFrom_written hc hw] at h ⊢
        obtain ⟨cs, n, hruns, htotal⟩ := ih h
        refine ⟨c :: cs, n, .written hc (Prod.ext rfl hw) hruns, ?_⟩
        rw [htotal]
        simp only [List.length_cons, RunSummary.mk.injEq, and_true]
        omega

/-- What every write preserves holds at the end. -/
theorem Runs.preserves {P : σ → Prop}
    (step : ∀ state mid name text, P state → w.write state name text = (mid, .ok ()) → P mid)
    (h : Runs w builders state cs dropped final) (start : P state) : P final := by
  induction h with
  | done state => exact start
  | dropped composed next ih => exact ih start
  | written composed writes next ih => exact ih (step _ _ _ _ start writes)

end CompositionGen
