import CompositionGen.Draft.Finalize
import CompositionGen.Proofs.FieldPath.Matching
import CompositionGen.Proofs.FieldPath.Writing

/-!
# Keys of labels and annotations

The key of a label or an annotation is written between brackets as it is. A key that closes its
bracket early leaves more than one step behind, and one of digits alone is an index. So registering
keys makes no other key usable than those that are given.
-/

namespace CompositionGen

/-- The maps of an object's metadata whose keys are registered by name. -/
inductive KeyedMap where
  | labels
  | annotations
  deriving DecidableEq

namespace KeyedMap

/-- The member of the metadata that holds the map. -/
def name : KeyedMap → String
  | labels => "labels"
  | annotations => "annotations"

/-- The text that is registered for a key. -/
def keyPath : KeyedMap → String → String
  | labels => labelPath
  | annotations => annotationPath

/-- The path that takes one step from the map. -/
def entry (map : KeyedMap) (s : Segment) : FieldPath :=
  ⟨[.field "metadata", .field map.name, s]⟩

/-- What an entry under a name addresses. -/
def addressesOf (map : KeyedMap) (name : String) : List (String ⊕ Nat) :=
  [.inl "metadata", .inl map.name, .inl name]

/-- Of the entries of labels and annotations, a set of paths contains those that another one does
and those under the given keys, as far as these keys are read as themselves. -/
def AddsEntries (map : KeyedMap) (keys : List String) (before after : PathSet) : Prop :=
  ∀ (other : KeyedMap) (name : String) (p : FieldPath), p.addresses = other.addressesOf name →
    (after.contains p = true ↔ before.contains p = true ∨
      other = map ∧ name ∈ keys ∧ (Segment.key name).WellFormed)

/-- The call that registers keys for the composite. -/
def compositeCall : KeyedMap → List String → DraftCall
  | labels => .registerCompositeLabels
  | annotations => .registerCompositeAnnotations

/-- The call that registers keys for a composed resource. -/
def resourceCall : KeyedMap → List String → ResourceCall
  | labels => .registerLabels
  | annotations => .registerAnnotations

variable {map other : KeyedMap} {key name : String} {keys : List String} {p : FieldPath}

theorem name_inj (h : map.name = other.name) : map = other := by
  cases map <;> cases other <;> first | rfl | exact absurd h (by decide)

/-! ## Reading the path of a key -/

/-- Two names are read, and then a bracket that holds the key. -/
theorem parse_spliced {opening first second : String} (key : String)
    (hopening : opening.toList = first.toList ++ '.' :: (second.toList ++ ['[']))
    (hfirst : (Segment.field first).WellFormed) (hsecond : (Segment.field second).WellFormed) :
    ∃ offset, FieldPath.parse (opening ++ key ++ "]") =
      (FieldPath.parseFrom offset false ('[' :: (key.toList ++ [']']))).map fun steps =>
        ⟨.field first :: .field second :: steps⟩ := by
  have htext : (opening ++ key ++ "]").toList =
      first.toList ++ '.' :: (second.toList ++ '[' :: (key.toList ++ [']'])) := by
    simp [hopening]
  have hne : ¬(opening ++ key ++ "]").isEmpty = true := by
    rw [String.isEmpty_iff, ← String.toList_inj, htext]
    simp
  refine ⟨0 + FieldPath.byteLength first.toList + 1 + FieldPath.byteLength second.toList, ?_⟩
  rw [FieldPath.parse, if_neg hne, htext,
    FieldPath.parseFrom_name hfirst.1 hfirst.2 (FieldPath.endsName_cons.mpr (.inl rfl)),
    FieldPath.parseOn_dot,
    FieldPath.parseFrom_name hsecond.1 hsecond.2 (FieldPath.endsName_cons.mpr (.inr (.inl rfl))),
    FieldPath.parseOn_of_head?_ne (by simp), String.ofList_toList, String.ofList_toList]
  cases FieldPath.parseFrom _ false ('[' :: (key.toList ++ [']'])) with
  | error cause => rfl
  | ok steps => rfl

theorem parse_keyPath (map : KeyedMap) (key : String) : ∃ offset,
    FieldPath.parse (map.keyPath key) =
      (FieldPath.parseFrom offset false ('[' :: (key.toList ++ [']']))).map fun steps =>
        ⟨.field "metadata" :: .field map.name :: steps⟩ := by
  have hfield {name : String} (hne : name.toList ≠ [])
      (h : name.toList.all Segment.isNameChar = true) : (Segment.field name).WellFormed :=
    ⟨hne, List.all_eq_true.mp h⟩
  have hmetadata : (Segment.field "metadata").WellFormed := hfield (by decide) (by decide)
  cases map with
  | labels => exact parse_spliced key (by decide) hmetadata (hfield (by decide) (by decide))
  | annotations => exact parse_spliced key (by decide) hmetadata (hfield (by decide) (by decide))

/-- A key that does not close its bracket is read as one step. -/
theorem parse_keyPath_of_not_mem (map : KeyedMap) (h : ']' ∉ key.toList) : ∃ offset,
    FieldPath.parse (map.keyPath key) =
      (FieldPath.bracketSegment offset key.toList).map map.entry := by
  obtain ⟨offset, hparse⟩ := parse_keyPath map key
  refine ⟨offset, ?_⟩
  rw [hparse, FieldPath.parseFrom_bracket h (by simp)]
  cases FieldPath.bracketSegment offset key.toList with
  | error cause => rfl
  | ok s =>
    show Except.map _ (FieldPath.parseOn _ s []) = _
    rw [FieldPath.parseOn_of_head?_ne (by simp), FieldPath.parseFrom_nil]
    rfl

theorem parse_keyPath_empty (map : KeyedMap) :
    ∃ cause, FieldPath.parse (map.keyPath "") = .error cause := by
  have hclosing : ']' ∉ "".toList := by simp
  obtain ⟨offset, hparse⟩ := parse_keyPath_of_not_mem map hclosing
  exact ⟨.emptyBracket offset, hparse⟩

theorem parse_keyPath_number (map : KeyedMap) (hne : key ≠ "")
    (h : key.toList.all Decimal.isDigit = true)
    (hlt : Decimal.value key.toList < Decimal.wordBound) :
    FieldPath.parse (map.keyPath key) = .ok (map.entry (.index (Decimal.value key.toList))) := by
  have hclosing : ']' ∉ key.toList := fun hm => absurd (List.all_eq_true.mp h _ hm) (by decide)
  obtain ⟨offset, hparse⟩ := parse_keyPath_of_not_mem map hclosing
  rw [hparse, FieldPath.bracketSegment, if_neg (by simpa using hne), if_pos h, if_pos hlt]
  rfl

theorem parse_keyPath_longNumber (map : KeyedMap) (h : key.toList.all Decimal.isDigit = true)
    (hle : Decimal.wordBound ≤ Decimal.value key.toList) :
    ∃ cause, FieldPath.parse (map.keyPath key) = .error cause := by
  have hclosing : ']' ∉ key.toList := fun hm => absurd (List.all_eq_true.mp h _ hm) (by decide)
  obtain ⟨offset, hparse⟩ := parse_keyPath_of_not_mem map hclosing
  have hne : key ≠ "" := by
    rintro rfl
    exact absurd hle (by decide)
  refine ⟨.unexpected '[' offset, ?_⟩
  rw [hparse, FieldPath.bracketSegment, if_neg (by simpa using hne), if_pos h,
    if_neg (Nat.not_lt.mpr hle)]
  rfl

theorem parse_keyPath_plain (map : KeyedMap) (h : (Segment.key key).WellFormed) :
    FieldPath.parse (map.keyPath key) = .ok (map.entry (.key key)) := by
  obtain ⟨hne, hclosing, hdigits⟩ := h
  obtain ⟨offset, hparse⟩ := parse_keyPath_of_not_mem map hclosing
  rw [hparse, FieldPath.bracketSegment, if_neg (by simpa using hne), if_neg hdigits,
    String.ofList_toList]
  rfl

/-- A key that closes its bracket leaves something behind to be read as more steps. -/
theorem four_le_size (h : ']' ∈ key.toList) (hp : FieldPath.parse (map.keyPath key) = .ok p) :
    4 ≤ p.size := by
  obtain ⟨inner, after, hkey, hinner⟩ := List.eq_append_cons_of_mem h
  obtain ⟨offset, hparse⟩ := parse_keyPath map key
  have htext : '[' :: (key.toList ++ [']']) = '[' :: (inner ++ ']' :: (after ++ [']'])) := by
    simp [hkey]
  rw [hparse, htext] at hp
  obtain ⟨steps, hsteps, rfl⟩ := Outcome.map_ok_iff.mp hp
  by_cases hafter : ∀ c ∈ (after ++ [']']).head?, c = '.' ∨ c = '['
  · rw [FieldPath.parseFrom_bracket hinner hafter] at hsteps
    obtain ⟨s, -, hon⟩ := Outcome.bind_ok_iff.mp hsteps
    obtain ⟨tail, rest, rfl, -, hbytes, hdenotes⟩ := FieldPath.parseOn_ok
      (FieldPath.endsName_of_head? hafter)
      (fun _ _ _ _ _ => FieldPath.exists_parts_of_parseFrom) hon
    -- The closing bracket of the path is still there to be read.
    have hrest : rest ≠ [] := by
      rintro rfl
      obtain rfl := List.forall₂_nil_right_iff.mp hdenotes
      have hnil := Utf8.encodeAll_eq_nil_iff.mp hbytes
      simp at hnil
    have hlength := List.length_pos_iff.mpr hrest
    simp only [FieldPath.size, List.length_cons]
    omega
  · obtain ⟨c, hc, hne⟩ := by simpa only [not_forall] using hafter
    obtain ⟨rest, hrest⟩ := List.head?_eq_some_iff.mp (Option.mem_def.mp hc)
    rw [not_or] at hne
    rw [hrest, FieldPath.parseFrom_bracket_unexpected hinner hne.1 hne.2] at hsteps
    obtain ⟨s, -, hon⟩ := Outcome.bind_ok_iff.mp hsteps
    cases hon

theorem parse_keyPath_entry_iff :
    FieldPath.parse (map.keyPath key) = .ok (map.entry (.key key)) ↔
      (Segment.key key).WellFormed :=
  ⟨fun h => (FieldPath.wellFormed_of_parse h).2 (.key key) (by simp [entry]),
    parse_keyPath_plain map⟩

/-- Only a key of its own name is read as an entry under that name. -/
theorem eq_of_parse_keyPath (h : FieldPath.parse (map.keyPath key) = .ok p)
    (hp : p.addresses = other.addressesOf name) :
    other = map ∧ name = key ∧ (Segment.key key).WellFormed := by
  have hclosing : ']' ∉ key.toList := by
    intro hclosing
    have hsize : p.addresses.length = 3 := by rw [hp]; rfl
    rw [FieldPath.addresses, List.length_map] at hsize
    have hlong : 4 ≤ p.segments.length := four_le_size hclosing h
    omega
  obtain ⟨offset, hparse⟩ := parse_keyPath_of_not_mem map hclosing
  obtain ⟨s, hs, rfl⟩ := Outcome.map_ok_iff.mp (hparse.symm.trans h)
  obtain ⟨hmap, haddress⟩ : map.name = other.name ∧ s.address = .inl name := by
    simpa [FieldPath.addresses, addressesOf, entry, Segment.address] using hp
  -- An index addresses no name, so the key is not a number.
  unfold FieldPath.bracketSegment at hs
  split at hs
  · cases hs
  · split at hs
    · split at hs
      · cases hs
        cases haddress
      · cases hs
    · cases hs
      cases haddress
      rw [String.ofList_toList] at h ⊢
      exact ⟨(name_inj hmap).symm, rfl, parse_keyPath_entry_iff.mp h⟩

/-! ## Registering keys -/

/-- A set that is read from more texts contains what it contained, and what they spell. -/
theorem contains_of_more {texts more known : List String} {s : PathSet}
    (hs : PathSet.parseAll (texts ++ more ++ known) = .ok s) :
    ∃ before, PathSet.parseAll (texts ++ known) = .ok before ∧ ∀ p, s.contains p = true ↔
      before.contains p = true ∨ ∃ raw ∈ more, ∃ q, FieldPath.parse raw = .ok q ∧ q.Matches p := by
  have hparse := PathSet.exists_parse_of_parseAll hs
  obtain ⟨before, hbefore⟩ : ∃ before, PathSet.parseAll (texts ++ known) = .ok before := by
    refine PathSet.exists_parseAll fun raw hraw => hparse raw ?_
    rcases List.mem_append.mp hraw with h | h
    · exact List.mem_append_left known (List.mem_append_left more h)
    · exact List.mem_append_right _ h
  refine ⟨before, hbefore, fun p => ?_⟩
  rw [PathSet.contains_parseAll hs, PathSet.contains_parseAll hbefore]
  constructor
  · rintro ⟨raw, hraw, hq⟩
    rw [List.append_assoc, List.mem_append, List.mem_append] at hraw
    rcases hraw with h | h | h
    · exact .inl ⟨raw, List.mem_append_left known h, hq⟩
    · exact .inr ⟨raw, h, hq⟩
    · exact .inl ⟨raw, List.mem_append_right texts h, hq⟩
  · rintro (⟨raw, hraw, hq⟩ | ⟨raw, hraw, hq⟩)
    · refine ⟨raw, ?_, hq⟩
      rcases List.mem_append.mp hraw with h | h
      · exact List.mem_append_left known (List.mem_append_left more h)
      · exact List.mem_append_right _ h
    · exact ⟨raw, List.mem_append_left known (List.mem_append_right texts hraw), hq⟩

/-- Registered keys make just the entries under their own names usable. -/
theorem contains_of_keys {texts known : List String} {s : PathSet}
    (hs : PathSet.parseAll (texts ++ keys.map map.keyPath ++ known) = .ok s) :
    ∃ before, PathSet.parseAll (texts ++ known) = .ok before ∧ map.AddsEntries keys before s := by
  obtain ⟨before, hbefore, hcontains⟩ := contains_of_more hs
  refine ⟨before, hbefore, fun other name p hp => ?_⟩
  rw [hcontains]
  refine or_congr_right ⟨?_, ?_⟩
  · rintro ⟨raw, hraw, q, hq, hmatch⟩
    obtain ⟨key, hkey, rfl⟩ := List.mem_map.mp hraw
    obtain ⟨rfl, rfl, hplain⟩ :=
      eq_of_parse_keyPath hq ((FieldPath.matches_iff.mp hmatch).trans hp)
    exact ⟨rfl, hkey, hplain⟩
  · rintro ⟨rfl, hkey, hplain⟩
    refine ⟨_, List.mem_map_of_mem hkey, _, parse_keyPath_plain other hplain, ?_⟩
    rw [FieldPath.matches_iff, hp]
    rfl

/-- What the path of a key is read as. A key that holds no closing bracket and is not a number is
read as itself, a number as an index if it has 64 bits, and a key with a closing bracket as four
steps or more, if at all. So registering keys adds no entry of the labels or annotations that is not
under one of these keys: not to what may be used of the composite, and not of a resource. -/
theorem register_keys (map : KeyedMap) :
    (∀ key : String,
      (FieldPath.parse (map.keyPath key) = .ok (map.entry (.key key)) ↔
        key.toList ≠ [] ∧ ']' ∉ key.toList ∧ ¬key.toList.all Decimal.isDigit = true) ∧
      (key ≠ "" → key.toList.all Decimal.isDigit = true →
        Decimal.value key.toList < Decimal.wordBound →
        FieldPath.parse (map.keyPath key) = .ok (map.entry (.index (Decimal.value key.toList)))) ∧
      (key = "" ∨ key.toList.all Decimal.isDigit = true ∧
          Decimal.wordBound ≤ Decimal.value key.toList →
        ∃ cause, FieldPath.parse (map.keyPath key) = .error cause) ∧
      (']' ∈ key.toList → ∀ p, FieldPath.parse (map.keyPath key) = .ok p → 4 ≤ p.size)) ∧
    (∀ (d : CompositionDraft) (keys : List String) (s : PathSet),
      PathSet.parseAll (d.apply (map.compositeCall keys)).allPaths = .ok s →
      ∃ before, PathSet.parseAll d.allPaths = .ok before ∧ map.AddsEntries keys before s) ∧
    ∀ (r : ResourceDraft) (keys : List String) (s : PathSet),
      PathSet.parseAll (r.apply (map.resourceCall keys)).allPaths = .ok s →
      ∃ before, PathSet.parseAll r.allPaths = .ok before ∧ map.AddsEntries keys before s := by
  refine ⟨fun key => ⟨parse_keyPath_entry_iff, parse_keyPath_number map, ?_,
    fun hclosing p => four_le_size hclosing⟩, ?_, ?_⟩
  · rintro (rfl | ⟨hdigits, hle⟩)
    · exact parse_keyPath_empty map
    · exact parse_keyPath_longNumber map hdigits hle
  · intro d keys s hs
    refine contains_of_keys ?_
    cases map with
    | labels => exact hs
    | annotations => exact hs
  · intro r keys s hs
    refine contains_of_keys ?_
    cases map with
    | labels => exact hs
    | annotations => exact hs

/-- Of these keys the second is an index, and the third closes its bracket and opens another. -/
def unevenKeys : List String := ["team", "07", "owner][name"]

theorem register_unevenKeys :
    FieldPath.parse (labelPath "07") = .ok (labels.entry (.index 7)) ∧
    (∃ cause, FieldPath.parse (labelPath "") = .error cause) ∧
    (∃ p, FieldPath.parse (labelPath "owner][name") = .ok p ∧ 4 ≤ p.size) ∧
    (∃ s, PathSet.parseAll ((default : CompositionDraft).apply
        (.registerCompositeLabels unevenKeys)).allPaths = .ok s ∧
      s.contains (labels.entry (.field "team")) = true ∧
      s.contains (labels.entry (.key "owner")) = false) ∧
    ∃ s, PathSet.parseAll ((default : ResourceDraft).apply
        (.registerLabels unevenKeys)).allPaths = .ok s ∧
      s.contains (labels.entry (.field "team")) = true := by
  obtain ⟨hkeys, hcomposite, hresource⟩ := register_keys labels
  have hteam : (Segment.key "team").WellFormed := ⟨by decide, by decide, by decide⟩
  refine ⟨(hkeys "07").2.1 (by decide) (by decide) (by decide), (hkeys "").2.2.1 (.inl rfl),
    ?_, ?_, ?_⟩
  · obtain ⟨p, hp⟩ : ∃ p, FieldPath.parse (labelPath "owner][name") = .ok p :=
      Outcome.exists_ok_of_isOk (by decide +kernel)
    exact ⟨p, hp, (hkeys _).2.2.2 (by decide) p hp⟩
  · obtain ⟨s, hs⟩ : ∃ s, PathSet.parseAll ((default : CompositionDraft).apply
        (.registerCompositeLabels unevenKeys)).allPaths = .ok s :=
      Outcome.exists_ok_of_isOk (by decide +kernel)
    obtain ⟨before, hbefore, hadded⟩ := hcomposite _ _ s hs
    have hfree : before.contains (labels.entry (.key "owner")) = false := by
      have hknown : (PathSet.parseAll (default : CompositionDraft).allPaths).map
          (·.contains (labels.entry (.key "owner"))) = .ok false := by decide +kernel
      rw [hbefore] at hknown
      exact Except.ok.inj hknown
    refine ⟨s, hs, (hadded labels "team" _ rfl).mpr (.inr ⟨rfl, by decide, hteam⟩), ?_⟩
    rw [← Bool.not_eq_true, hadded labels "owner" _ rfl, hfree]
    exact not_or_intro Bool.false_ne_true fun ⟨_, hmem, _⟩ => absurd hmem (by decide)
  · obtain ⟨s, hs⟩ : ∃ s, PathSet.parseAll ((default : ResourceDraft).apply
        (.registerLabels unevenKeys)).allPaths = .ok s :=
      Outcome.exists_ok_of_isOk (by decide +kernel)
    obtain ⟨before, -, hadded⟩ := hresource _ _ s hs
    exact ⟨s, hs, (hadded labels "team" _ rfl).mpr (.inr ⟨rfl, by decide, hteam⟩)⟩

end KeyedMap

end CompositionGen
