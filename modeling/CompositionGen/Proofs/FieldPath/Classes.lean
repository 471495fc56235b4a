import CompositionGen.Proofs.FieldPath.Grammar
import CompositionGen.Proofs.FieldPath.Matching
import Mathlib.Data.Finset.Card

/-!
# Classes of matching paths

Of the paths that texts spell, a set keeps one of every class of matching ones: the path of the
earliest text. So how many members it has, and what it contains, says which classes there are and
nothing of the order, the repetition and the spelling of the texts.
-/

namespace CompositionGen

namespace FieldPath

/-- Matching as an equivalence of paths. -/
def matching : Setoid FieldPath where
  r p q := p.Matches q = true
  iseqv := {
    refl := fun _ => matches_iff.mpr rfl
    symm := fun h => matches_iff.mpr (matches_iff.mp h).symm
    trans := fun h h' => matches_iff.mpr ((matches_iff.mp h).trans (matches_iff.mp h')) }

instance decidableMatching : DecidableRel matching.r :=
  fun p q => inferInstanceAs (Decidable (p.Matches q = true))

/-- A text spells a path that matches `p`. -/
def SpellsLike (p : FieldPath) (raw : String) (q : FieldPath) : Prop :=
  parse raw = .ok q ∧ q.Matches p = true

/-- Every text of a list spells a path that a text of the other list spells as well, maybe in
another way. -/
def RespelledIn (raws raws' : List String) : Prop :=
  ∀ raw ∈ raws, ∃ p, parse raw = .ok p ∧ ∃ raw' ∈ raws', ∃ q, SpellsLike p raw' q

/-- The classes of the paths that texts spell. -/
def classes (raws : List String) : Finset (Quotient matching) :=
  (raws.filterMap fun raw => (parse raw).toOption.map (Quotient.mk matching)).toFinset

theorem mem_classes_iff {raws : List String} {p : FieldPath} :
    Quotient.mk matching p ∈ classes raws ↔ ∃ raw ∈ raws, ∃ q, SpellsLike p raw q := by
  have hclass {q : FieldPath} :
      Quotient.mk matching q = Quotient.mk matching p ↔ q.Matches p = true := Quotient.eq
  simp only [classes, List.mem_toFinset, List.mem_filterMap, Option.map_eq_some_iff,
    Outcome.toOption_eq_some_iff, hclass, SpellsLike]

theorem classes_subset {raws raws' : List String} (h : RespelledIn raws raws') :
    classes raws ⊆ classes raws' := by
  intro c
  induction c using Quotient.inductionOn with
  | h p =>
    rw [mem_classes_iff, mem_classes_iff]
    rintro ⟨raw, hraw, q, hq, hqp⟩
    obtain ⟨_, hp', raw', hraw', q', hq', hqp'⟩ := h raw hraw
    cases hq.symm.trans hp'
    exact ⟨raw', hraw', q', hq', matching.trans hqp' hqp⟩

end FieldPath

namespace PathSet

open FieldPath

variable {s t : PathSet} {p q : FieldPath} {raws raws' : List String}

/-! ## Members -/

theorem mem_insert : p ∈ (s.insert q).paths ↔ p ∈ s.paths ∨ s.contains q = false ∧ p = q := by
  unfold insert
  split
  · rename_i hq
    simp [hq]
  · rename_i hq
    simp [hq]

theorem pairwise_insert (h : s.paths.Pairwise fun p q => p.Matches q = false) :
    (s.insert q).paths.Pairwise fun p q => p.Matches q = false := by
  unfold insert
  split
  · exact h
  · rename_i hq
    refine List.pairwise_append.mpr ⟨h, List.pairwise_singleton _ _, fun p hp r hr => ?_⟩
    rw [List.mem_singleton.mp hr, ← Bool.not_eq_true]
    exact fun hm => hq (contains_iff.mpr ⟨p, hp, matches_iff.mp hm⟩)

theorem pairwise_insertAll (hs : s.paths.Pairwise fun p q => p.Matches q = false)
    (h : s.insertAll raws = .ok t) : t.paths.Pairwise fun p q => p.Matches q = false := by
  induction raws generalizing s with
  | nil =>
    cases h
    exact hs
  | cons raw rest ih =>
    rw [insertAll] at h
    split at h
    · exact ih (pairwise_insert hs) h
    · cases h

theorem first_spellsLike_cons_iff {raw : String} {rest : List String}
    (hq : FieldPath.parse raw = .ok q) :
    (∃ i raw', First (SpellsLike p) (raw :: rest) i raw' p) ↔
      p = q ∨ q.Matches p = false ∧ ∃ i raw', First (SpellsLike p) rest i raw' p := by
  have hspells {r : FieldPath} : SpellsLike p raw r ↔ r = q ∧ q.Matches p = true := by
    rw [SpellsLike, hq]
    constructor
    · rintro ⟨⟨⟩, hm⟩
      exact ⟨rfl, hm⟩
    · rintro ⟨rfl, hm⟩
      exact ⟨rfl, hm⟩
  simp only [First.cons_iff, hspells]
  constructor
  · rintro ⟨_, _, ⟨-, -, rfl, -⟩ | ⟨i, -, hother, hfirst⟩⟩
    · exact .inl rfl
    · exact .inr ⟨Bool.eq_false_iff.mpr fun hm => hother q ⟨rfl, hm⟩, i, _, hfirst⟩
  · rintro (rfl | ⟨hother, i, raw', hfirst⟩)
    · exact ⟨0, raw, .inl ⟨rfl, rfl, rfl, matching.refl p⟩⟩
    · refine ⟨i + 1, raw', .inr ⟨i, rfl, ?_, hfirst⟩⟩
      rintro r ⟨-, hm⟩
      exact Bool.false_ne_true (hother.symm.trans hm)

/-- A path is added for the earliest text that spells one of its class, unless the class has a
member before. -/
theorem mem_insertAll (h : s.insertAll raws = .ok t) :
    p ∈ t.paths ↔ p ∈ s.paths ∨
      s.contains p = false ∧ ∃ i raw, First (SpellsLike p) raws i raw p := by
  induction raws generalizing s with
  | nil =>
    cases h
    refine (or_iff_left ?_).symm
    rintro ⟨-, _, _, hfirst⟩
    exact nomatch hfirst.get
  | cons raw rest ih =>
    rw [insertAll] at h
    split at h
    · rename_i q hq
      have hnew : (s.insert q).contains p = false ↔
          s.contains p = false ∧ q.Matches p = false := by
        rw [← Bool.not_eq_true, contains_insert, not_or, ← matches_iff, Bool.not_eq_true,
          Bool.not_eq_true]
      rw [ih h, mem_insert, hnew, first_spellsLike_cons_iff hq, or_assoc, and_assoc, and_or_left]
      refine or_congr_right (or_congr_left ?_)
      constructor
      · rintro ⟨hs, rfl⟩
        exact ⟨hs, rfl⟩
      · rintro ⟨hs, rfl⟩
        exact ⟨hs, rfl⟩
    · cases h

theorem mem_parseAll_iff (h : parseAll raws = .ok s) :
    p ∈ s.paths ↔ ∃ i raw, First (SpellsLike p) raws i raw p := by
  rw [mem_insertAll h]
  simp [empty, contains]

/-! ## Number of members -/

/-- A set has one member of every class. -/
theorem size_eq_card (h : parseAll raws = .ok s) : s.size = (classes raws).card := by
  have hpairwise := pairwise_insertAll (s := empty) .nil h
  have hnodup : (s.paths.map (Quotient.mk matching)).Nodup := by
    rw [List.Nodup, List.pairwise_map]
    refine hpairwise.imp fun hm heq => ?_
    exact Bool.false_ne_true (hm.symm.trans (Quotient.exact heq))
  have hclasses : (s.paths.map (Quotient.mk matching)).toFinset = classes raws := by
    ext c
    induction c using Quotient.inductionOn with
    | h p =>
      rw [mem_classes_iff, List.mem_toFinset, List.mem_map]
      refine Iff.trans ?_ (contains_parseAll h)
      rw [contains_iff]
      refine exists_congr fun q => and_congr_right fun _ => ?_
      exact Quotient.eq.trans matches_iff
  rw [← hclasses, List.toFinset_card_of_nodup hnodup, List.length_map, size]

/-- A set is read from texts unless one of them spells no path, which is then reported with the
error that reading it gives, the first of such texts. Its members are pairwise different up to
matching. There are as many as there are classes of matching paths among those that the texts
spell, and each is the path of the earliest text of its class; a path is contained exactly if it
matches one of those. So another list that spells the same classes, in any order, repetition and
spelling, is read as a set of the same size with the same contents. -/
theorem parseAll_classes (raws : List String) :
    ((∃ e, parseAll raws = .error e) ↔ ∃ raw ∈ raws, ∃ cause, FieldPath.parse raw = .error cause) ∧
    (∀ raw cause, parseAll raws = .error (raw, cause) ↔
      ∃ i, First FieldPath.Unparsable raws i raw cause) ∧
    ∀ s, parseAll raws = .ok s →
      s.paths.Pairwise (fun p q => p.Matches q = false) ∧
      s.size = (classes raws).card ∧
      (∀ p, p ∈ s.paths ↔ ∃ i raw, First (SpellsLike p) raws i raw p) ∧
      (∀ q, s.contains q = true ↔ ∃ raw ∈ raws, ∃ p, FieldPath.parse raw = .ok p ∧
        q.Matches p = true) ∧
      ∀ raws', RespelledIn raws raws' → RespelledIn raws' raws →
        ∃ s', parseAll raws' = .ok s' ∧ s'.size = s.size ∧ ∀ q, s'.contains q = s.contains q := by
  refine ⟨⟨?_, ?_⟩, fun raw cause => parseAll_error_iff, fun s h =>
    ⟨pairwise_insertAll (s := empty) .nil h, size_eq_card h, fun p => mem_parseAll_iff h,
      fun q => ?_, fun raws' hin hin' => ?_⟩⟩
  · rintro ⟨⟨raw, cause⟩, he⟩
    obtain ⟨i, first⟩ := parseAll_error_iff.mp he
    exact ⟨raw, List.mem_of_getElem? first.get, cause, first.fault⟩
  · rintro ⟨raw, hraw, cause, hcause⟩
    cases hs : parseAll raws with
    | error e => exact ⟨e, rfl⟩
    | ok s =>
      obtain ⟨p, hp⟩ := exists_parse_of_parseAll hs raw hraw
      exact absurd (hp.symm.trans hcause) nofun
  · rw [contains_parseAll h]
    refine exists_congr fun raw => and_congr_right fun _ => exists_congr fun p => ?_
    exact and_congr_right fun _ => ⟨fun hm => matching.symm hm, fun hm => matching.symm hm⟩
  · obtain ⟨s', hs'⟩ := exists_parseAll fun raw' hraw' =>
      (hin' raw' hraw').imp fun _ hp => hp.1
    have hclasses : classes raws' = classes raws :=
      (classes_subset hin').antisymm (classes_subset hin)
    refine ⟨s', hs', by rw [size_eq_card hs', size_eq_card h, hclasses], fun q => ?_⟩
    rw [Bool.eq_iff_iff, contains_parseAll hs', contains_parseAll h]
    exact mem_classes_iff.symm.trans (hclasses ▸ mem_classes_iff)

/-- Three texts of two classes, one of which is spelled in two ways. -/
def twiceSpelled : List String := ["spec.a", "spec[a]", "metadata.labels[x]"]

/-- Texts of the same classes in another order and spelling. -/
def onceSpelled : List String := ["metadata.labels.x", "spec[a]"]

theorem parseAll_classes_twiceSpelled : ∃ s s', parseAll twiceSpelled = .ok s ∧ s.size = 2 ∧
    ⟨[.field "spec", .key "a"]⟩ ∉ s.paths ∧
    s.contains ⟨[.field "spec", .key "a"]⟩ = true ∧
    parseAll onceSpelled = .ok s' ∧ s'.size = s.size ∧ ∀ q, s'.contains q = s.contains q := by
  have hdotted : FieldPath.parse "spec.a" = .ok ⟨[.field "spec", .field "a"]⟩ := by
    decide +kernel
  have hbracketed : FieldPath.parse "spec[a]" = .ok ⟨[.field "spec", .key "a"]⟩ := by
    decide +kernel
  have hlabel : FieldPath.parse "metadata.labels[x]" =
      .ok ⟨[.field "metadata", .field "labels", .key "x"]⟩ := by
    decide +kernel
  have hlabel' : FieldPath.parse "metadata.labels.x" =
      .ok ⟨[.field "metadata", .field "labels", .field "x"]⟩ := by
    decide +kernel
  have hin : RespelledIn twiceSpelled onceSpelled := by
    intro raw hraw
    simp only [twiceSpelled, List.mem_cons, List.not_mem_nil, or_false] at hraw
    rcases hraw with rfl | rfl | rfl
    · exact ⟨_, hdotted, _, .tail _ (.head _), _, hbracketed, by decide⟩
    · exact ⟨_, hbracketed, _, .tail _ (.head _), _, hbracketed, by decide⟩
    · exact ⟨_, hlabel, _, .head _, _, hlabel', by decide⟩
  have hin' : RespelledIn onceSpelled twiceSpelled := by
    intro raw hraw
    simp only [onceSpelled, List.mem_cons, List.not_mem_nil, or_false] at hraw
    rcases hraw with rfl | rfl
    · exact ⟨_, hlabel', _, .tail _ (.tail _ (.head _)), _, hlabel, by decide⟩
    · exact ⟨_, hbracketed, _, .head _, _, hdotted, by decide⟩
  obtain ⟨s, hs⟩ : ∃ s, parseAll twiceSpelled = .ok s :=
    exists_parseAll fun raw hraw => (hin raw hraw).imp fun _ hp => hp.1
  obtain ⟨-, hsize, hmem, hcontains, hrespelled⟩ := (parseAll_classes twiceSpelled).2.2 s hs
  obtain ⟨s', hs', hsame⟩ := hrespelled onceSpelled hin hin'
  refine ⟨s, s', hs, ?_, ?_, ?_, hs', hsame⟩
  · rw [hsize]
    decide +kernel
  · -- The dotted spelling stands before the bracketed one.
    rw [hmem]
    rintro ⟨i, raw, hfirst⟩
    cases i with
    | zero =>
      cases hfirst.get
      exact absurd (hdotted.symm.trans hfirst.fault.1) (by decide)
    | succ i => exact hfirst.before "spec.a" (.head _) _ ⟨hdotted, by decide⟩
  · exact (hcontains _).mpr ⟨_, .head _, _, hdotted, by decide⟩

end PathSet

end CompositionGen
