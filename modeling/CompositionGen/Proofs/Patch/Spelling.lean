import CompositionGen.Proofs.FieldPath.Matching
import CompositionGen.Proofs.Outcome
import CompositionGen.Proofs.Schema.Paths
import CompositionGen.Proofs.Patch.Validity
import Mathlib.Data.List.Forall2
import Mathlib.Data.Option.Basic

/-!
# Spellings of paths in patches

A path may be spelled in several ways: a member by a dot or in brackets, an index with leading
zeros. Neither a set of registered paths nor a schema tells one spelling from another, so a patch
keeps its verdict when its paths, or those that are registered, are spelled otherwise.
-/

namespace CompositionGen

open Outcome (Corresponds)

/-! ## Other spellings -/

/-- Another spelling of a text: the text itself, or a text whose path matches its own. What spells
no path has no other spelling. -/
inductive FieldPath.Respells (raw : String) : String → Prop where
  | same : Respells raw raw
  | matching {raw' : String} {p q : FieldPath} (left : parse raw = .ok p)
    (right : parse raw' = .ok q) (same : p.Matches q = true) : Respells raw raw'

theorem FieldPath.respells_iff {raw raw' : String} :
    Respells raw raw' ↔ raw' = raw ∨ ∃ p ∈ (parse raw).toOption, ∃ q ∈ (parse raw').toOption,
      p.Matches q = true := by
  constructor
  · intro h
    cases h with
    | same => exact Or.inl rfl
    | matching left right same =>
      rw [left, right]
      exact Or.inr ⟨_, rfl, _, rfl, same⟩
  · rintro (rfl | ⟨p, hp, q, hq, same⟩)
    · exact .same
    · exact .matching (Outcome.toOption_eq_some_iff.mp hp) (Outcome.toOption_eq_some_iff.mp hq) same

instance (raw raw' : String) : Decidable (FieldPath.Respells raw raw') :=
  decidable_of_iff _ FieldPath.respells_iff.symm

/-- Two combinations that are equal but for the spelling of their paths. -/
structure Combine.Respells (c c' : Combine) : Prop where
  inputs : List.Forall₂ (fun v v' : CombineVariable =>
    FieldPath.Respells v.fromFieldPath v'.fromFieldPath) c.inputs c'.inputs
  rest : c' = { c with inputs := c'.inputs }

/-- Two patches that are equal but for the spelling of their paths. -/
structure Patch.Respells (p p' : Patch) : Prop where
  fromFieldPath : Option.Rel FieldPath.Respells p.fromFieldPath p'.fromFieldPath
  toFieldPath : Option.Rel FieldPath.Respells p.toFieldPath p'.toFieldPath
  combine : Option.Rel Combine.Respells p.combine p'.combine
  rest : p' = { p with
    fromFieldPath := p'.fromFieldPath
    toFieldPath := p'.toFieldPath
    combine := p'.combine }

/-- Texts that spell the members of a set and no other paths, in whatever order and however
often. -/
structure PathSet.SpelledBy (s : PathSet) (raws : List String) : Prop where
  members : ∀ p ∈ s.paths, ∃ raw ∈ raws, ∃ q, FieldPath.parse raw = .ok q ∧ p.Matches q = true
  texts : ∀ raw ∈ raws, ∃ q, FieldPath.parse raw = .ok q ∧ s.contains q = true

/-- Two errors about the same end of a path: the same fault of a text, or two spellings of a path
that is not there. -/
inductive FieldPathError.Respells : FieldPathError → FieldPathError → Prop where
  | parse (path : String) (cause : ParseError) : Respells (.parse path cause) (.parse path cause)
  | unresolved {path path' : String} (kind : String) (h : FieldPath.Respells path path') :
    Respells (.unresolved path kind) (.unresolved path' kind)

/-- Two errors that are equal but for the spelling of a path. -/
inductive PatchError.Respells : PatchError → PatchError → Prop where
  | same (e : PatchError) : Respells e e
  | combineVariable (index : Nat) {cause cause' : FieldPathError} (h : cause.Respells cause') :
    Respells (.combineVariable index cause) (.combineVariable index cause')
  | fromFieldPath {cause cause' : FieldPathError} (h : cause.Respells cause') :
    Respells (.fromFieldPath cause) (.fromFieldPath cause')
  | toFieldPath {cause cause' : FieldPathError} (h : cause.Respells cause') :
    Respells (.toFieldPath cause) (.toFieldPath cause')

/-! ## Registered paths -/

namespace PathSet

variable {s s' : PathSet} {raws : List String}

theorem contains_congr (s : PathSet) {p q : FieldPath} (h : p.addresses = q.addresses) :
    s.contains p = s.contains q := by
  rw [Bool.eq_iff_iff, contains_iff, contains_iff, h]

theorem SpelledBy.contains_eq (h : s.SpelledBy raws) (hs : parseAll raws = .ok s')
    (p : FieldPath) : s'.contains p = s.contains p := by
  rw [Bool.eq_iff_iff, contains_parseAll hs, contains_iff]
  constructor
  · rintro ⟨raw, hraw, q, hq, hm⟩
    obtain ⟨q', hq', hc⟩ := h.texts raw hraw
    cases hq.symm.trans hq'
    rw [contains_congr s (FieldPath.matches_iff.mp hm)] at hc
    exact contains_iff.mp hc
  · rintro ⟨r, hr, hm⟩
    obtain ⟨raw, hraw, q, hq, hrq⟩ := h.members r hr
    refine ⟨raw, hraw, q, hq, FieldPath.matches_iff.mpr ?_⟩
    exact (FieldPath.matches_iff.mp hrq).symm.trans hm

end PathSet

/-! ## Sides -/

/-- Two sides of the same object on which the same paths are registered. -/
structure Side.Alike (side side' : Side) : Prop where
  object : side'.object = side.object
  registered : ∀ p, side'.registered.contains p = side.registered.contains p

namespace Side

variable {side side' : Side}

theorem Alike.admits_eq (h : side.Alike side') {p q : FieldPath}
    (hpq : p.addresses = q.addresses) : side.admits p = side'.admits q := by
  rw [admits, admits, h.object, h.registered, side.registered.contains_congr hpq]
  exact congrArg _ (side.object.schema.resolves_congr hpq)

theorem Alike.check_respells (h : side.Alike side') {raw raw' : String}
    (hr : FieldPath.Respells raw raw') :
    Corresponds Eq FieldPathError.Respells (side.check raw) (side'.check raw') := by
  -- Either the text is the same, or both texts spell paths.
  have both {p q : FieldPath} (hp : FieldPath.parse raw = .ok p)
      (hq : FieldPath.parse raw' = .ok q) (hpq : p.addresses = q.addresses) :
      Corresponds Eq FieldPathError.Respells (side.check raw) (side'.check raw') := by
    simp only [check, hp, hq, h.object, ← h.admits_eq hpq]
    split
    · exact .ok rfl
    · exact .error (.unresolved _ hr)
  cases hr with
  | same =>
    cases hp : FieldPath.parse raw with
    | error cause =>
      simp only [check, hp]
      exact .error (.parse raw cause)
    | ok p => exact both hp hp rfl
  | matching left right same => exact both left right (FieldPath.matches_iff.mp same)

theorem Alike.checkVariables_respells (h : side.Alike side') {inputs inputs' : List CombineVariable}
    (hi : List.Forall₂ (fun v v' : CombineVariable =>
      FieldPath.Respells v.fromFieldPath v'.fromFieldPath) inputs inputs') (index : Nat) :
    Corresponds Eq PatchError.Respells (side.checkVariables index inputs)
      (side'.checkVariables index inputs') := by
  induction hi generalizing index with
  | nil => exact .ok rfl
  | cons hv _ ih =>
    rw [checkVariables, checkVariables]
    rcases Corresponds.cases_iff.mp (h.check_respells hv) with
      ⟨cause, cause', hc, hc', related⟩ | ⟨_, _, hc, hc', -⟩
    · rw [hc, hc']
      exact .error (.combineVariable index related)
    · rw [hc, hc']
      exact ih (index + 1)

end Side

/-! ## Patches -/

theorem rel_getD {α β : Type} {R : α → β → Prop} {o : Option α} {o' : Option β} {a : α} {b : β}
    (h : Option.Rel R o o') (hab : R a b) : R (o.getD a) (o'.getD b) := by
  cases h with
  | none => exact hab
  | some related => exact related

theorem isEmpty_eq_of_forall₂ {α β : Type} {R : α → β → Prop} {as : List α} {bs : List β}
    (h : List.Forall₂ R as bs) : as.isEmpty = bs.isEmpty := by
  cases h <;> rfl

namespace Patch

variable {p p' : Patch} {source source' destination destination' : Side}

theorem Respells.validateDirect (h : p.Respells p') (hs : source.Alike source')
    (hd : destination.Alike destination') :
    Corresponds Eq PatchError.Respells (p.validateDirect source destination)
      (p'.validateDirect source' destination') := by
  refine Corresponds.bind (Corresponds.elim h.fromFieldPath (.same _)) fun origin origin' ho => ?_
  have htarget : FieldPath.Respells (p.toFieldPath.getD origin) (p'.toFieldPath.getD origin') :=
    rel_getD h.toFieldPath ho
  refine Corresponds.bind ((hs.check_respells ho).mapError fun _ _ => .fromFieldPath) ?_
  rintro _ _ -
  exact (hd.check_respells htarget).mapError fun _ _ => .toFieldPath

theorem Respells.validateCombine (h : p.Respells p') (hs : source.Alike source')
    (hd : destination.Alike destination') :
    Corresponds Eq PatchError.Respells (p.validateCombine source destination)
      (p'.validateCombine source' destination') := by
  refine Corresponds.bind (Corresponds.elim h.combine (.same _)) fun c c' hc => ?_
  rw [isEmpty_eq_of_forall₂ hc.inputs]
  refine Corresponds.guard (.same _) ?_
  refine Corresponds.bind (hs.checkVariables_respells hc.inputs 0) ?_
  rintro _ _ -
  refine Corresponds.bind (Corresponds.elim h.toFieldPath (.same _)) fun target target' ht => ?_
  exact (hd.check_respells ht).mapError fun _ _ => .toFieldPath

/-- The verdict on a patch does not depend on the spelling of paths. -/
theorem validate_respelled (composite base : ObjectRef) {shared own : PathSet}
    {sharedTexts ownTexts : List String} (h : p.Respells p')
    (hshared : shared.SpelledBy sharedTexts) (hown : own.SpelledBy ownTexts) :
    ∃ shared' own', PathSet.parseAll sharedTexts = .ok shared' ∧
      PathSet.parseAll ownTexts = .ok own' ∧
      Corresponds Eq PatchError.Respells (p.validate ⟨composite, shared⟩ ⟨base, own⟩)
        (p'.validate ⟨composite, shared'⟩ ⟨base, own'⟩) := by
  obtain ⟨shared', hs'⟩ := PathSet.exists_parseAll fun raw hraw =>
    (hshared.texts raw hraw).imp fun _ hq => hq.1
  obtain ⟨own', ho'⟩ := PathSet.exists_parseAll fun raw hraw =>
    (hown.texts raw hraw).imp fun _ hq => hq.1
  have hs : Side.Alike ⟨composite, shared⟩ ⟨composite, shared'⟩ := ⟨rfl, hshared.contains_eq hs'⟩
  have ho : Side.Alike ⟨base, own⟩ ⟨base, own'⟩ := ⟨rfl, hown.contains_eq ho'⟩
  refine ⟨shared', own', hs', ho', ?_⟩
  have htype : p'.type = p.type := by rw [h.rest]
  rw [validate_eq, validate_eq, htype]
  cases PatchReading.of p.type with
  | direct source =>
    cases source with
    | composite => exact h.validateDirect hs ho
    | base => exact h.validateDirect ho hs
  | combine source =>
    cases source with
    | composite => exact h.validateCombine hs ho
    | base => exact h.validateCombine ho hs
  | unsupported type => exact .error (.same _)
  | unknown name => exact .error (.same _)

/-! The first variable of a combination is registered in another spelling, and the second one is not
there in any. -/

def describedComposite : ObjectRef :=
  .ofValue ⟨"example.org", "v1", "XThing"⟩ (.object [("spec", .object [("size", .string "small")])])

def describedBase : ObjectRef := .ofValue ⟨"", "v1", "ConfigMap"⟩ (.object [("data", .object [])])

/-- Combines two paths of the composite. -/
def joined (first second target : String) : Patch :=
  .combineFromComposite (.stringFormat [first, second] "%s-%s") target

theorem respells_joined : (joined "status.hosts[0].name" "spec.color" "data.host").Respells
    (joined "status.hosts[00][name]" "spec[color]" "data[host]") where
  fromFieldPath := .none
  toFieldPath := .some (by decide +kernel)
  combine := .some {
    inputs := .cons (by decide +kernel) (.cons (by decide +kernel) .nil)
    rest := rfl }
  rest := rfl

theorem spelledBy_host : PathSet.SpelledBy
    ⟨[⟨[.field "status", .field "hosts", .index 0, .field "name"]⟩]⟩
    ["status.hosts[000].name", "status[hosts][0][name]"] where
  members := List.forall_mem_singleton.mpr ⟨_, List.mem_cons_self,
    ⟨[.field "status", .field "hosts", .index 0, .field "name"]⟩, by decide +kernel, by decide⟩
  texts := List.forall_mem_cons.mpr ⟨⟨⟨[.field "status", .field "hosts", .index 0, .field "name"]⟩,
      by decide +kernel, by decide⟩,
    List.forall_mem_singleton.mpr ⟨⟨[.field "status", .key "hosts", .index 0, .key "name"]⟩,
      by decide +kernel, by decide⟩⟩

theorem validate_respelled_joined : ∃ shared own cause,
    (joined "status.hosts[00][name]" "spec[color]" "data[host]").validate
        ⟨describedComposite, shared⟩ ⟨describedBase, own⟩ = .error (.combineVariable 1 cause) ∧
      FieldPathError.Respells (.unresolved "spec.color" "example.org/v1/XThing") cause := by
  have hnone : PathSet.SpelledBy .empty [] := ⟨nofun, nofun⟩
  obtain ⟨shared, own, -, -, hc⟩ :=
    validate_respelled describedComposite describedBase respells_joined spelledBy_host hnone
  have hfirst : (joined "status.hosts[0].name" "spec.color" "data.host").validate
      ⟨describedComposite, ⟨[⟨[.field "status", .field "hosts", .index 0, .field "name"]⟩]⟩⟩
      ⟨describedBase, .empty⟩ =
        .error (.combineVariable 1 (.unresolved "spec.color" "example.org/v1/XThing")) := by
    decide +kernel
  rw [hfirst] at hc
  refine ⟨shared, own, ?_⟩
  generalize Patch.validate _ _ _ = outcome at hc ⊢
  cases hc with
  | error related => cases related with
    | same => exact ⟨_, rfl, .unresolved _ .same⟩
    | combineVariable _ h => exact ⟨_, rfl, h⟩

end Patch

end CompositionGen
