import CompositionGen.FieldPath.PathSet
import CompositionGen.Proofs.Sequences

/-!
# Matching paths

Two steps match when they address the same member, so matching compares paths by what their steps
address. It is an equivalence, and a set of registered paths contains exactly the paths that match
one of the texts it was read from.
-/

namespace CompositionGen

namespace Segment

/-- What a step addresses, whichever way it is spelled. -/
def address : Segment → String ⊕ Nat
  | .field name | .key name => .inl name
  | .index n => .inr n

theorem matches_iff (s t : Segment) : s.Matches t = true ↔ s.address = t.address := by
  cases s <;> cases t <;> simp [Matches, name?, address]

end Segment

namespace FieldPath

/-- What the steps of a path address, one after another. -/
def addresses (p : FieldPath) : List (String ⊕ Nat) := p.segments.map Segment.address

theorem matchSegments_iff (ss ts : List Segment) :
    matchSegments ss ts = true ↔ ss.map Segment.address = ts.map Segment.address := by
  induction ss generalizing ts with
  | nil => cases ts <;> simp [matchSegments]
  | cons s ss ih =>
    cases ts with
    | nil => simp [matchSegments]
    | cons t ts => simp [matchSegments, Segment.matches_iff, ih]

theorem matches_iff {p q : FieldPath} : p.Matches q = true ↔ p.addresses = q.addresses :=
  matchSegments_iff p.segments q.segments

end FieldPath

namespace PathSet

theorem contains_iff {s : PathSet} {p : FieldPath} :
    s.contains p = true ↔ ∃ q ∈ s.paths, q.addresses = p.addresses := by
  simp [contains, FieldPath.matches_iff]

/-- A path that is not added matches a member, so the set contains what it matches all the same. -/
theorem contains_insert {s : PathSet} {p q : FieldPath} :
    (s.insert q).contains p = true ↔ s.contains p = true ∨ q.addresses = p.addresses := by
  unfold insert
  split
  · -- What `q` matches, the member that stands for it matches too.
    rename_i hq
    refine ⟨Or.inl, ?_⟩
    rintro (h | h)
    · exact h
    · obtain ⟨r, hr, hrq⟩ := contains_iff.mp hq
      exact contains_iff.mpr ⟨r, hr, hrq.trans h⟩
  · simp only [contains_iff, List.mem_append, List.mem_singleton]
    constructor
    · rintro ⟨r, hr | rfl, h⟩
      · exact Or.inl ⟨r, hr, h⟩
      · exact Or.inr h
    · rintro (⟨r, hr, h⟩ | h)
      · exact ⟨r, Or.inl hr, h⟩
      · exact ⟨q, Or.inr rfl, h⟩

theorem contains_insertAll {s t : PathSet} {raws : List String} {p : FieldPath}
    (h : s.insertAll raws = .ok t) :
    t.contains p = true ↔ s.contains p = true ∨
      ∃ raw ∈ raws, ∃ q, FieldPath.parse raw = .ok q ∧ q.addresses = p.addresses := by
  induction raws generalizing s with
  | nil =>
    obtain rfl : s = t := by simpa [insertAll] using h
    simp
  | cons raw rest ih =>
    simp only [insertAll] at h
    split at h
    · rename_i q hq
      rw [ih h, contains_insert]
      simp [hq, or_assoc]
    · cases h

/-- A set read from texts contains the paths that match the path of one of the texts. -/
theorem contains_parseAll {s : PathSet} {raws : List String} {p : FieldPath}
    (h : parseAll raws = .ok s) :
    s.contains p = true ↔
      ∃ raw ∈ raws, ∃ q, FieldPath.parse raw = .ok q ∧ q.Matches p = true := by
  rw [contains_insertAll h]
  simp [empty, contains, FieldPath.matches_iff]

end PathSet

/-- A text that spells no path, and why. -/
def FieldPath.Unparsable (raw : String) (cause : ParseError) : Prop := parse raw = .error cause

namespace PathSet

/-- Texts are refused because of the first that spells no path. -/
theorem parseAll_error_iff {raws : List String} {raw : String} {cause : ParseError} :
    parseAll raws = .error (raw, cause) ↔ ∃ i, First FieldPath.Unparsable raws i raw cause := by
  have hloop : insertAll empty raws = .error (raw, cause) ↔
      ∃ i a e, First FieldPath.Unparsable raws i a e ∧ (raw, cause) = (a, e) :=
    First.loop_error_iff FieldPath.Unparsable (fun s (_ : Nat) raws => insertAll s raws)
      (fun _ raw cause => (raw, cause)) (fun _ _ _ => nofun)
      (fun s _ raw rest cause h => by rw [insertAll, show FieldPath.parse raw = _ from h])
      (fun s _ raw rest h => by
        cases hp : FieldPath.parse raw with
        | ok p => exact ⟨s.insert p, fun d => by rw [insertAll, hp]⟩
        | error cause => exact absurd hp (h cause))
      (n := 0)
  simpa [parseAll] using hloop

theorem exists_parse_of_insertAll {s t : PathSet} {raws : List String}
    (h : s.insertAll raws = .ok t) : ∀ raw ∈ raws, ∃ q, FieldPath.parse raw = .ok q := by
  induction raws generalizing s with
  | nil => exact fun _ hraw => absurd hraw List.not_mem_nil
  | cons raw rest ih =>
    rw [insertAll] at h
    cases hp : FieldPath.parse raw with
    | error cause => simp [hp] at h
    | ok q =>
      rw [hp] at h
      exact List.forall_mem_cons.mpr ⟨⟨q, hp⟩, ih h⟩

theorem exists_parse_of_parseAll {s : PathSet} {raws : List String} (h : parseAll raws = .ok s) :
    ∀ raw ∈ raws, ∃ q, FieldPath.parse raw = .ok q :=
  exists_parse_of_insertAll h

/-- Texts that spell paths are read as a set. -/
theorem exists_parseAll {raws : List String}
    (h : ∀ raw ∈ raws, ∃ q, FieldPath.parse raw = .ok q) : ∃ s, parseAll raws = .ok s := by
  cases hs : parseAll raws with
  | ok s => exact ⟨s, rfl⟩
  | error e =>
    obtain ⟨i, first⟩ := parseAll_error_iff.mp hs
    obtain ⟨q, hq⟩ := h e.1 (List.mem_of_getElem? first.get)
    exact absurd (first.fault.symm.trans hq) nofun

end PathSet

end CompositionGen
