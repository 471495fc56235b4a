/-!
# Outcomes of steps that can fail

When a sequence of steps succeeds and when it fails, in terms of its steps.
-/

namespace CompositionGen.Outcome

variable {ε δ α β : Type}

theorem bind_ok_iff {x : Except ε α} {f : α → Except ε β} {b : β} :
    (x >>= f) = .ok b ↔ ∃ a, x = .ok a ∧ f a = .ok b := by
  cases x <;> simp [bind, Except.bind]

theorem bind_error_iff {x : Except ε α} {f : α → Except ε β} {e : ε} :
    (x >>= f) = .error e ↔ x = .error e ∨ ∃ a, x = .ok a ∧ f a = .error e := by
  cases x <;> simp [bind, Except.bind]

theorem map_ok_iff {x : Except ε α} {f : α → β} {b : β} :
    x.map f = .ok b ↔ ∃ a, x = .ok a ∧ f a = b := by
  cases x <;> simp [Except.map]

theorem map_error_iff {x : Except ε α} {f : α → β} {e : ε} :
    x.map f = .error e ↔ x = .error e := by
  cases x <;> simp [Except.map]

theorem mapError_ok_iff {x : Except ε α} {f : ε → δ} {a : α} :
    x.mapError f = .ok a ↔ x = .ok a := by
  cases x with
  | ok b =>
    constructor
    · rintro ⟨⟩
      rfl
    · rintro ⟨⟩
      rfl
  | error e => exact iff_of_false (nomatch ·) (nomatch ·)

theorem mapError_error_iff {x : Except ε α} {f : ε → δ} {d : δ} :
    x.mapError f = .error d ↔ ∃ e, x = .error e ∧ f e = d := by
  cases x with
  | ok b => exact iff_of_false (nomatch ·) (fun ⟨_, h, _⟩ => nomatch h)
  | error e =>
    constructor
    · rintro ⟨⟩
      exact ⟨e, rfl, rfl⟩
    · rintro ⟨_, ⟨⟩, rfl⟩
      rfl

theorem toOption_eq_some_iff {x : Except ε α} {a : α} : x.toOption = some a ↔ x = .ok a := by
  cases x <;> simp [Except.toOption]

theorem exists_ok_of_isOk {x : Except ε α} (h : x.isOk = true) : ∃ a, x = .ok a := by
  cases x with
  | ok a => exact ⟨a, rfl⟩
  | error e => cases h

/-- A value that is required, with the error for its absence. -/
theorem elim_ok_iff {o : Option α} {e : ε} {a : α} :
    o.elim (.error e) Except.ok = .ok a ↔ o = some a := by
  cases o <;> simp

theorem elim_error_iff {o : Option α} {e e' : ε} :
    o.elim (.error e) Except.ok = .error e' ↔ o = none ∧ e = e' := by
  cases o <;> simp

/-- A sequence that goes on only where a condition does not hold. -/
theorem guard_ok_iff {c : Prop} [Decidable c] {e : ε} {x : Except ε α} {a : α} :
    (if c then (Except.error e : Except ε PUnit) >>= fun _ => x else x) = .ok a ↔
      ¬ c ∧ x = .ok a := by
  by_cases h : c <;> simp [h, bind, Except.bind]

theorem guard_error_iff {c : Prop} [Decidable c] {e e' : ε} {x : Except ε α} :
    (if c then (Except.error e : Except ε PUnit) >>= fun _ => x else x) = .error e' ↔
      c ∧ e = e' ∨ ¬ c ∧ x = .error e' := by
  by_cases h : c <;> simp [h, bind, Except.bind]

/-! ## Two runs -/

/-- Two outcomes agree: the same error, or values that are related. -/
inductive Agree (R : α → β → Prop) : Except ε α → Except ε β → Prop where
  | ok {a : α} {b : β} (related : R a b) : Agree R (.ok a) (.ok b)
  | error (e : ε) : Agree R (.error e) (.error e)

namespace Agree

variable {γ ζ : Type} {R : α → β → Prop} {x : Except ε α} {y : Except ε β}

theorem map {S : γ → ζ → Prop} {f : α → γ} {g : β → ζ} (h : Agree R x y)
    (hfg : ∀ a b, R a b → S (f a) (g b)) : Agree S (x.map f) (y.map g) := by
  cases h with
  | ok related => exact .ok (hfg _ _ related)
  | error e => exact .error e

theorem bind {S : γ → ζ → Prop} {f : α → Except ε γ} {g : β → Except ε ζ} (h : Agree R x y)
    (hfg : ∀ a b, R a b → Agree S (f a) (g b)) : Agree S (x >>= f) (y >>= g) := by
  cases h with
  | ok related => exact hfg _ _ related
  | error e => exact .error e

theorem cases_iff :
    Agree R x y ↔ (∃ e, x = .error e ∧ y = .error e) ∨
      ∃ a b, x = .ok a ∧ y = .ok b ∧ R a b := by
  constructor
  · intro h
    cases h with
    | ok related => exact Or.inr ⟨_, _, rfl, rfl, related⟩
    | error e => exact Or.inl ⟨e, rfl, rfl⟩
  · rintro (⟨e, rfl, rfl⟩ | ⟨a, b, rfl, rfl, related⟩)
    · exact .error e
    · exact .ok related

end Agree

/-- Two outcomes correspond: values that are related, or errors that are related. -/
inductive Corresponds (R : α → β → Prop) (E : ε → δ → Prop) : Except ε α → Except δ β → Prop
  where
  | ok {a : α} {b : β} (related : R a b) : Corresponds R E (.ok a) (.ok b)
  | error {e : ε} {d : δ} (related : E e d) : Corresponds R E (.error e) (.error d)

namespace Corresponds

variable {γ ζ : Type} {R : α → β → Prop} {E : ε → δ → Prop} {x : Except ε α} {y : Except δ β}

theorem bind {S : γ → ζ → Prop} {f : α → Except ε γ} {g : β → Except δ ζ}
    (h : Corresponds R E x y) (hfg : ∀ a b, R a b → Corresponds S E (f a) (g b)) :
    Corresponds S E (x >>= f) (y >>= g) := by
  cases h with
  | ok related => exact hfg _ _ related
  | error related => exact .error related

theorem mapError {F : γ → ζ → Prop} {f : ε → γ} {g : δ → ζ} (h : Corresponds R E x y)
    (hfg : ∀ e d, E e d → F (f e) (g d)) : Corresponds R F (x.mapError f) (y.mapError g) := by
  cases h with
  | ok related => exact .ok related
  | error related => exact .error (hfg _ _ related)

theorem elim {o : Option α} {o' : Option β} {e : ε} {d : δ} (h : Option.Rel R o o')
    (he : E e d) :
    Corresponds R E (o.elim (.error e) Except.ok) (o'.elim (.error d) Except.ok) := by
  cases h with
  | none => exact .error he
  | some related => exact .ok related

/-- Two sequences that go on only where a condition does not hold, which is the same in both. -/
theorem guard {c : Prop} [Decidable c] {e : ε} {d : δ} (he : E e d) (h : Corresponds R E x y) :
    Corresponds R E
      (if c then (Except.error e : Except ε PUnit) >>= fun _ => x else x)
      (if c then (Except.error d : Except δ PUnit) >>= fun _ => y else y) := by
  by_cases hc : c
  · rw [if_pos hc, if_pos hc]
    exact .error he
  · rw [if_neg hc, if_neg hc]
    exact h

theorem cases_iff :
    Corresponds R E x y ↔ (∃ e d, x = .error e ∧ y = .error d ∧ E e d) ∨
      ∃ a b, x = .ok a ∧ y = .ok b ∧ R a b := by
  constructor
  · intro h
    cases h with
    | ok related => exact Or.inr ⟨_, _, rfl, rfl, related⟩
    | error related => exact Or.inl ⟨_, _, rfl, rfl, related⟩
  · rintro (⟨e, d, rfl, rfl, related⟩ | ⟨a, b, rfl, rfl, related⟩)
    · exact .error related
    · exact .ok related

end Corresponds

end CompositionGen.Outcome
