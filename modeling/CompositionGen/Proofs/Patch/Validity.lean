import CompositionGen.Patch.Validation
import CompositionGen.Proofs.Outcome

/-!
# Valid patches

What a patch has to satisfy, stated apart from the order in which it is checked: its type says
which fields it uses and on which of the two objects each path has to be valid. Checking a patch
accepts exactly the valid ones, and otherwise reports the first condition that does not hold.
-/

namespace CompositionGen

/-! ## Sides -/

namespace Side

/-- A text is valid on a side if it parses and its path matches a registered one or exists on the
side's object. -/
def Valid (side : Side) (raw : String) : Prop :=
  ∃ path, FieldPath.parse raw = .ok path ∧
    ((∃ q ∈ side.registered.paths, q.Matches path = true) ∨
      side.object.schema.resolves path = true)

/-- Why a text is not valid on a side. -/
inductive Refuses (side : Side) (raw : String) : FieldPathError → Prop where
  | unparsable {cause : ParseError} :
      FieldPath.parse raw = .error cause → Refuses side raw (.parse raw cause)
  | unresolved {path : FieldPath} :
      FieldPath.parse raw = .ok path →
      (∀ q ∈ side.registered.paths, q.Matches path = false) →
      side.object.schema.resolves path = false →
      Refuses side raw (.unresolved raw side.object.kind.label)

variable {side : Side} {raw : String}

theorem admits_iff {path : FieldPath} :
    side.admits path = true ↔ (∃ q ∈ side.registered.paths, q.Matches path = true) ∨
      side.object.schema.resolves path = true := by
  simp [admits, PathSet.contains, ObjectRef.resolves]

theorem check_ok_iff {u : Unit} : side.check raw = .ok u ↔ side.Valid raw := by
  unfold check Valid
  cases hp : FieldPath.parse raw with
  | error cause => simp
  | ok path =>
    by_cases ha : side.admits path = true
    · simp [ha, admits_iff.mp ha]
    · have hn := mt admits_iff.mpr ha
      simp only [Bool.not_eq_true] at ha
      simp [ha, hn]

theorem check_error_iff {e : FieldPathError} :
    side.check raw = .error e ↔ side.Refuses raw e := by
  constructor
  · intro h
    unfold check at h
    split at h
    · rename_i cause hp
      cases h
      exact .unparsable hp
    · rename_i path hp
      split at h
      · cases h
      · rename_i ha
        have hn := mt admits_iff.mpr ha
        simp only [not_or, not_exists, not_and, Bool.not_eq_true] at hn
        cases h
        exact .unresolved hp hn.1 hn.2
  · intro h
    cases h with
    | unparsable hp => simp [check, hp]
    | @unresolved path hp hreg hres =>
      have ha : ¬ side.admits path = true := by
        rw [admits_iff]
        rintro (⟨q, hq, hm⟩ | hm)
        · simp [hreg q hq] at hm
        · simp [hres] at hm
      simp [check, hp, ha]

theorem checkVariables_ok_iff {inputs : List CombineVariable} {index : Nat} {u : Unit} :
    side.checkVariables index inputs = .ok u ↔ ∀ v ∈ inputs, side.Valid v.fromFieldPath := by
  induction inputs generalizing index with
  | nil => simp [checkVariables]
  | cons v rest ih =>
    rw [checkVariables, List.forall_mem_cons, ← check_ok_iff (u := u)]
    cases hc : side.check v.fromFieldPath with
    | error cause => simp
    | ok u => simp [ih]

/-- The least variable that is refused is the one that is reported, counted from `index`. -/
theorem checkVariables_error_iff {inputs : List CombineVariable} {index : Nat} {e : PatchError} :
    side.checkVariables index inputs = .error e ↔
      ∃ i v cause, inputs[i]? = some v ∧ (∀ w ∈ inputs.take i, side.Valid w.fromFieldPath) ∧
        side.Refuses v.fromFieldPath cause ∧ e = .combineVariable (index + i) cause := by
  -- The rest of the variables is counted from the next index.
  induction inputs generalizing index with
  | nil => simp [checkVariables]
  | cons v rest ih =>
    rw [checkVariables]
    cases hc : side.check v.fromFieldPath with
    | error cause =>
      have hr := check_error_iff.mp hc
      constructor
      · intro h
        cases h
        exact ⟨0, v, cause, rfl, by simp, hr, rfl⟩
      · rintro ⟨i, w, cause', hw, hbefore, hr', rfl⟩
        cases i with
        | zero =>
          obtain rfl : v = w := by simpa using hw
          rw [← check_error_iff, hc] at hr'
          cases hr'
          rfl
        | succ i =>
          have hv : side.check v.fromFieldPath = .ok () := check_ok_iff.mpr (hbefore v (by simp))
          rw [hc] at hv
          cases hv
    | ok u =>
      have hv := check_ok_iff.mp hc
      refine ih.trans ⟨?_, ?_⟩
      · rintro ⟨i, w, cause, hw, hbefore, hr, rfl⟩
        exact ⟨i + 1, w, cause, by simpa using hw, by simpa [hv] using hbefore, hr,
          by rw [Nat.add_right_comm, Nat.add_assoc]⟩
      · rintro ⟨i, w, cause, hw, hbefore, hr, rfl⟩
        cases i with
        | zero =>
          obtain rfl : v = w := by simpa using hw
          rw [← check_error_iff, hc] at hr
          cases hr
        | succ i =>
          exact ⟨i, w, cause, by simpa using hw,
            fun x hx => hbefore x (by simp [hx]), hr, by rw [Nat.add_right_comm, Nat.add_assoc]⟩

end Side

/-! ## Patches -/

/-- The two objects that a patch lies between. -/
inductive PatchEnd where
  | composite
  | base
  deriving DecidableEq, Repr

namespace PatchEnd

/-- The other object. -/
def opposite : PatchEnd → PatchEnd
  | composite => base
  | base => composite

/-- The side of an object. -/
def side (composite base : Side) : PatchEnd → Side
  | .composite => composite
  | .base => base

end PatchEnd

/-- Two sides that admit, each in its place, all that two others do. -/
def AdmitMore (composite base composite' base' : Side) : Prop :=
  ∀ (place : PatchEnd) raw, (place.side composite base).Valid raw →
    (place.side composite' base').Valid raw

/-- What the type of a patch makes of its fields. -/
inductive PatchReading where
  /-- One field is read from an object and written to the other one. -/
  | direct (source : PatchEnd)
  /-- Fields of an object are combined and written to the other one. -/
  | combine (source : PatchEnd)
  | unsupported (type : PatchType)
  | unknown (name : String)
  deriving DecidableEq, Repr

/-- How a type is read; a patch without a type is one from the composite, and so is one whose type
is empty. -/
def PatchReading.of : Option PatchType → PatchReading
  | none => .direct .composite
  | some .fromCompositeFieldPath => .direct .composite
  | some .toCompositeFieldPath => .direct .base
  | some .combineFromComposite => .combine .composite
  | some .combineToComposite => .combine .base
  | some (.other name) => if name = "" then .direct .composite else .unknown name
  | some .patchSet => .unsupported .patchSet
  | some .fromEnvironmentFieldPath => .unsupported .fromEnvironmentFieldPath
  | some .toEnvironmentFieldPath => .unsupported .toEnvironmentFieldPath
  | some .combineFromEnvironment => .unsupported .combineFromEnvironment
  | some .combineToEnvironment => .unsupported .combineToEnvironment

namespace Patch

/-- The fields of a patch of one field are valid: its source is given and valid, and so is its
destination, which is the source's path unless it is given. -/
def ValidDirect (p : Patch) (source destination : String → Prop) : Prop :=
  ∃ origin, p.fromFieldPath = some origin ∧ source origin ∧
    destination (p.toFieldPath.getD origin)

/-- The fields of a combination are valid: it has variables, all of them valid, and a destination
is given and valid. -/
def ValidCombine (p : Patch) (source destination : String → Prop) : Prop :=
  ∃ c target, p.combine = some c ∧ c.inputs ≠ [] ∧ (∀ v ∈ c.inputs, source v.fromFieldPath) ∧
    p.toFieldPath = some target ∧ destination target

/-- A patch is valid if its type is one of those that are checked and all the paths that it uses are
valid on the object that the type assigns to them. -/
def Valid (p : Patch) (valid : PatchEnd → String → Prop) : Prop :=
  match PatchReading.of p.type with
  | .direct source => p.ValidDirect (valid source) (valid source.opposite)
  | .combine source => p.ValidCombine (valid source) (valid source.opposite)
  | .unsupported _ | .unknown _ => False

theorem Valid.mono {p : Patch} {valid valid' : PatchEnd → String → Prop} (h : p.Valid valid)
    (hv : ∀ place raw, valid place raw → valid' place raw) : p.Valid valid' := by
  unfold Valid at h ⊢
  split at h
  · obtain ⟨origin, hf, hs, hd⟩ := h
    exact ⟨origin, hf, hv _ _ hs, hv _ _ hd⟩
  · obtain ⟨c, target, hc, hn, hs, ht, hd⟩ := h
    exact ⟨c, target, hc, hn, fun v hm => hv _ _ (hs v hm), ht, hv _ _ hd⟩
  · exact h
  · exact h

/-- The first condition on a patch of one field that does not hold. -/
inductive DirectViolation (p : Patch) (source destination : Side) : PatchError → Prop where
  | noOrigin : p.fromFieldPath = none →
      DirectViolation p source destination (.missingField "fromFieldPath")
  | badOrigin {origin : String} {cause : FieldPathError} : p.fromFieldPath = some origin →
      source.Refuses origin cause →
      DirectViolation p source destination (.fromFieldPath cause)
  | badTarget {origin : String} {cause : FieldPathError} : p.fromFieldPath = some origin →
      source.Valid origin → destination.Refuses (p.toFieldPath.getD origin) cause →
      DirectViolation p source destination (.toFieldPath cause)

/-- The first condition on a combination that does not hold. -/
inductive CombineViolation (p : Patch) (source destination : Side) : PatchError → Prop where
  | noCombine : p.combine = none →
      CombineViolation p source destination (.missingField "combine")
  | noInputs {c : Combine} : p.combine = some c → c.inputs = [] →
      CombineViolation p source destination .noVariables
  | badInput {c : Combine} {i : Nat} {v : CombineVariable} {cause : FieldPathError} :
      p.combine = some c → c.inputs[i]? = some v →
      (∀ w ∈ c.inputs.take i, source.Valid w.fromFieldPath) →
      source.Refuses v.fromFieldPath cause →
      CombineViolation p source destination (.combineVariable i cause)
  | noTarget {c : Combine} : p.combine = some c → c.inputs ≠ [] →
      (∀ v ∈ c.inputs, source.Valid v.fromFieldPath) → p.toFieldPath = none →
      CombineViolation p source destination (.missingField "toFieldPath")
  | badTarget {c : Combine} {target : String} {cause : FieldPathError} :
      p.combine = some c → c.inputs ≠ [] →
      (∀ v ∈ c.inputs, source.Valid v.fromFieldPath) → p.toFieldPath = some target →
      destination.Refuses target cause →
      CombineViolation p source destination (.toFieldPath cause)

/-- The first condition on a patch that does not hold. -/
def Violation (p : Patch) (composite base : Side) (e : PatchError) : Prop :=
  match PatchReading.of p.type with
  | .direct source =>
    p.DirectViolation (source.side composite base) (source.opposite.side composite base) e
  | .combine source =>
    p.CombineViolation (source.side composite base) (source.opposite.side composite base) e
  | .unsupported type => e = .unsupported type
  | .unknown name => e = .unknown name

variable {p : Patch} {source destination : Side}

theorem validateDirect_ok_iff :
    p.validateDirect source destination = .ok () ↔
      p.ValidDirect source.Valid destination.Valid := by
  simp only [validateDirect, ValidDirect, Outcome.bind_ok_iff, Outcome.elim_ok_iff,
    Outcome.mapError_ok_iff, Side.check_ok_iff, exists_const]

theorem validateDirect_error_iff {e : PatchError} :
    p.validateDirect source destination = .error e ↔
      p.DirectViolation source destination e := by
  simp only [validateDirect, Outcome.bind_error_iff, Outcome.elim_error_iff, Outcome.elim_ok_iff,
    Outcome.mapError_error_iff, Outcome.mapError_ok_iff, Side.check_ok_iff, Side.check_error_iff,
    exists_const]
  constructor
  · rintro (⟨hf, rfl⟩ | ⟨origin, hf, ⟨cause, hs, rfl⟩ | ⟨hs, cause, hd, rfl⟩⟩)
    · exact .noOrigin hf
    · exact .badOrigin hf hs
    · exact .badTarget hf hs hd
  · intro h
    cases h with
    | noOrigin hf => exact Or.inl ⟨hf, rfl⟩
    | badOrigin hf hs => exact Or.inr ⟨_, hf, Or.inl ⟨_, hs, rfl⟩⟩
    | badTarget hf hs hd => exact Or.inr ⟨_, hf, Or.inr ⟨hs, _, hd, rfl⟩⟩

theorem validateCombine_ok_iff :
    p.validateCombine source destination = .ok () ↔
      p.ValidCombine source.Valid destination.Valid := by
  simp only [validateCombine, ValidCombine, Outcome.bind_ok_iff, Outcome.guard_ok_iff,
    Outcome.elim_ok_iff, Outcome.mapError_ok_iff, Side.check_ok_iff, Side.checkVariables_ok_iff,
    exists_const, List.isEmpty_iff]
  constructor
  · rintro ⟨c, hc, hne, hv, target, ht, hd⟩
    exact ⟨c, target, hc, hne, hv, ht, hd⟩
  · rintro ⟨c, target, hc, hne, hv, ht, hd⟩
    exact ⟨c, hc, hne, hv, target, ht, hd⟩

theorem validateCombine_error_iff {e : PatchError} :
    p.validateCombine source destination = .error e ↔
      p.CombineViolation source destination e := by
  simp only [validateCombine, Outcome.bind_error_iff, Outcome.guard_error_iff,
    Outcome.elim_error_iff, Outcome.elim_ok_iff, Outcome.mapError_error_iff,
    Side.checkVariables_ok_iff, Side.checkVariables_error_iff, Side.check_error_iff,
    exists_const, List.isEmpty_iff, Nat.zero_add]
  constructor
  · rintro (⟨hc, rfl⟩ | ⟨c, hc, ⟨hn, rfl⟩ | ⟨hne, h⟩⟩)
    · exact .noCombine hc
    · exact .noInputs hc hn
    · rcases h with ⟨i, v, cause, hi, hbefore, hr, rfl⟩ | ⟨hv, ⟨ht, rfl⟩ | ⟨target, ht, h⟩⟩
      · exact .badInput hc hi hbefore hr
      · exact .noTarget hc hne hv ht
      · obtain ⟨cause, hd, rfl⟩ := h
        exact .badTarget hc hne hv ht hd
  · intro h
    cases h with
    | noCombine hc => exact Or.inl ⟨hc, rfl⟩
    | noInputs hc hn => exact Or.inr ⟨_, hc, Or.inl ⟨hn, rfl⟩⟩
    | badInput hc hi hbefore hr =>
      have hne := List.ne_nil_of_mem (List.mem_of_getElem? hi)
      exact Or.inr ⟨_, hc, Or.inr ⟨hne, Or.inl ⟨_, _, _, hi, hbefore, hr, rfl⟩⟩⟩
    | noTarget hc hne hv ht =>
      exact Or.inr ⟨_, hc, Or.inr ⟨hne, Or.inr ⟨hv, Or.inl ⟨ht, rfl⟩⟩⟩⟩
    | badTarget hc hne hv ht hd =>
      exact Or.inr ⟨_, hc, Or.inr ⟨hne, Or.inr ⟨hv, Or.inr ⟨_, ht, _, hd, rfl⟩⟩⟩⟩

/-! ## Checking by type -/

variable {composite base : Side}

/-- The check that a reading of the type asks for. -/
theorem validate_eq (p : Patch) (composite base : Side) :
    p.validate composite base = match PatchReading.of p.type with
      | .direct source =>
        p.validateDirect (source.side composite base) (source.opposite.side composite base)
      | .combine source =>
        p.validateCombine (source.side composite base) (source.opposite.side composite base)
      | .unsupported type => .error (.unsupported type)
      | .unknown name => .error (.unknown name) := by
  unfold validate effectiveType
  rcases p.type with _ | type
  · rfl
  · cases type with
    | other name =>
      by_cases h : name = ""
      · subst h
        rfl
      · simp [PatchReading.of, h]
    | _ => rfl

theorem validate_ok_iff :
    p.validate composite base = .ok () ↔
      p.Valid fun place => (place.side composite base).Valid := by
  rw [validate_eq, Valid]
  cases PatchReading.of p.type with
  | direct source => exact validateDirect_ok_iff
  | combine source => exact validateCombine_ok_iff
  | unsupported type => simp
  | unknown name => simp

theorem validate_widened {composite' base' : Side} (hv : AdmitMore composite base composite' base')
    (h : p.validate composite base = .ok ()) : p.validate composite' base' = .ok () :=
  validate_ok_iff.mpr ((validate_ok_iff.mp h).mono hv)

theorem validate_error_iff {e : PatchError} :
    p.validate composite base = .error e ↔ p.Violation composite base e := by
  rw [validate_eq, Violation]
  cases PatchReading.of p.type with
  | direct source => exact validateDirect_error_iff
  | combine source => exact validateCombine_error_iff
  | unsupported type => simp [eq_comm]
  | unknown name => simp [eq_comm]

theorem ofName_eq_other {name : String} (h : name ∉ PatchType.known.map PatchType.name) :
    PatchType.ofName name = .other name := by
  have hnone : PatchType.known.find? (·.name == name) = none := by
    rw [List.find?_eq_none]
    intro type htype hname
    rw [beq_iff_eq] at hname
    exact h (hname ▸ List.mem_map_of_mem htype)
  rw [PatchType.ofName, hnone, Option.getD_none]

/-- Checking a patch accepts exactly the valid ones, and otherwise reports the first condition that
does not hold. A type that is written as none of the known names is reported as it was given. -/
theorem validate_decides_validity (p : Patch) (composite base : Side) :
    (p.validate composite base = .ok () ↔
      p.Valid fun place => (place.side composite base).Valid) ∧
    (∀ e, p.validate composite base = .error e ↔ p.Violation composite base e) ∧
    (∀ name, name ≠ "" → name ∉ PatchType.known.map PatchType.name →
      p.type = some (PatchType.ofName name) →
      p.validate composite base = .error (.unknown name)) := by
  refine ⟨validate_ok_iff, fun _ => validate_error_iff, fun name hne hname htype => ?_⟩
  rw [validate_eq, htype, ofName_eq_other hname]
  simp [PatchReading.of, hne]

end Patch

end CompositionGen
