import CompositionGen.Proofs.FieldPath.Scanning
import CompositionGen.Proofs.Text.Numerals

/-!
# Writing paths down

Each step of a path is written as one part of the grammar. The text of a path is read as that path
exactly if its steps are well formed, and no other paths are ever read. Of the texts that are read
as one path, writing gives the one whose numbers have no superfluous zeros.
-/

namespace CompositionGen

open Utf8 (ascii encode encodeAll)

namespace Segment

/-- The part that a step is written as. -/
def part : Segment → FieldPath.Part
  | field name => .field (encode name)
  | key name => .bracket (encode name)
  | index n => .bracket (encodeAll (Decimal.digitsOf n))

end Segment

namespace FieldPath

namespace Part

/-- A number between brackets has no zero before other digits. -/
def IsShortest : Part → Prop
  | field _ => True
  | bracket inner => inner.all isDigitByte = true → inner.head? = some (ascii '0') →
      inner = [ascii '0']

variable {p : Part} {s : Segment}

/-! ## One step and its part -/

theorem not_mem_of_isDigit {cs : List Char} {c : Char} (h : cs.all Decimal.isDigit = true)
    (hc : Decimal.isDigit c = false) : c ∉ cs := by
  intro hm
  rw [List.all_eq_true.mp h c hm] at hc
  cases hc

/-- A well-formed step is written as a legal part, and that part stands for it. -/
theorem legal_part (h : s.WellFormed) : s.part.Legal ∧ s.part.Denotes s := by
  cases s with
  | field name => exact ⟨legal_field_iff.mpr h, .field name⟩
  | key name =>
    obtain ⟨hne, hclosing, hdigits⟩ := h
    rw [← all_isDigitByte] at hdigits
    refine ⟨⟨?_, ?_, fun hd => absurd hd hdigits⟩, .key name hdigits⟩
    · exact Utf8.encodeAll_eq_nil_iff.not.mpr hne
    · exact (Utf8.ascii_mem_encodeAll (by decide)).not.mpr hclosing
  | index n =>
    have hall := Decimal.all_isDigit_digitsOf n
    have hbytes : (encodeAll (Decimal.digitsOf n)).all isDigitByte = true :=
      (all_isDigitByte _).trans hall
    have hvalue : decimalValue (encodeAll (Decimal.digitsOf n)) = n := by
      rw [decimalValue_encodeAll hall, Decimal.value_digitsOf]
    refine ⟨⟨?_, ?_, fun _ => ?_⟩, ?_⟩
    · exact Utf8.encodeAll_eq_nil_iff.not.mpr (Decimal.digitsOf_ne_nil n)
    · exact (Utf8.ascii_mem_encodeAll (by decide)).not.mpr (not_mem_of_isDigit hall (by decide))
    · rw [hvalue]
      exact h
    · have hd := Denotes.index hbytes
      rwa [hvalue] at hd

/-- What a legal part stands for is well formed. -/
theorem wellFormed_of_denotes (hl : p.Legal) (hd : p.Denotes s) : s.WellFormed := by
  cases hd with
  | field name => exact legal_field_iff.mp hl
  | index hdigits => exact hl.2.2 hdigits
  | key name hdigits =>
    rw [Utf8.encode_eq, all_isDigitByte] at hdigits
    exact ⟨Utf8.encodeAll_eq_nil_iff.not.mp hl.1,
      (Utf8.ascii_mem_encodeAll (by decide)).not.mp hl.2.1, hdigits⟩

/-- Bytes of digits are those of digits. -/
theorem exists_digits {inner : List UInt8} (h : inner.all isDigitByte = true) :
    ∃ cs, encodeAll cs = inner := by
  induction inner with
  | nil => exact ⟨[], rfl⟩
  | cons b inner ih =>
    rw [List.all_cons, Bool.and_eq_true] at h
    obtain ⟨cs, rfl⟩ := ih h.2
    have hb := h.1
    simp only [isDigitByte, Bool.and_eq_true, decide_eq_true_eq, UInt8.le_iff_toNat_le] at hb
    have h9 : (ascii '9').toNat = 57 := rfl
    have hlt : b.toNat < 128 := by omega
    have hnat := Utf8.toNat_ofNat_toNat b
    refine ⟨Char.ofNat b.toNat :: cs, ?_⟩
    rw [Utf8.encodeAll_cons_ascii (by rwa [hnat]), ascii, hnat, UInt8.ofNat_toNat]

theorem isShortest_encodeAll {cs : List Char} (h : cs.all Decimal.isDigit = true) :
    (bracket (encodeAll cs)).IsShortest ↔ Decimal.IsShortest cs := by
  have hzero : encodeAll ['0'] = [ascii '0'] := rfl
  rw [IsShortest, all_isDigitByte, head?_encodeAll_eq_ascii (by decide), ← hzero,
    Utf8.encodeAll_inj, Decimal.IsShortest]
  exact ⟨fun hs => hs h, fun hs _ => hs⟩

/-- A part is what its step is written as, unless superfluous zeros lead its number. -/
theorem part_eq_iff (hl : p.Legal) (hd : p.Denotes s) : s.part = p ↔ p.IsShortest := by
  cases hd with
  | field name => exact iff_of_true rfl trivial
  | key name hdigits => exact iff_of_true rfl fun h => absurd h hdigits
  | index hdigits =>
    obtain ⟨cs, rfl⟩ := exists_digits hdigits
    have hall : cs.all Decimal.isDigit = true := (all_isDigitByte cs).symm.trans hdigits
    have hne : cs ≠ [] := Utf8.encodeAll_eq_nil_iff.not.mp hl.1
    rw [Segment.part, bracket.injEq, decimalValue_encodeAll hall, Utf8.encodeAll_inj,
      Decimal.digitsOf_value_eq_iff hne hall, isShortest_encodeAll hall]

end Part

/-! ## Lists of steps -/

section Steps

variable {parts : List Part} {segments : List Segment}

theorem wellFormed_of_parts (hl : ∀ p ∈ parts, p.Legal)
    (hd : List.Forall₂ Part.Denotes parts segments) : ∀ s ∈ segments, s.WellFormed := by
  induction hd with
  | nil => simp
  | cons hpart _ ih =>
    obtain ⟨hp, hrest⟩ := List.forall_mem_cons.mp hl
    exact List.forall_mem_cons.mpr ⟨Part.wellFormed_of_denotes hp hpart, ih hrest⟩

theorem map_part_eq_iff (hl : ∀ p ∈ parts, p.Legal)
    (hd : List.Forall₂ Part.Denotes parts segments) :
    segments.map Segment.part = parts ↔ ∀ p ∈ parts, p.IsShortest := by
  induction hd with
  | nil => simp
  | cons hpart _ ih =>
    obtain ⟨hp, hrest⟩ := List.forall_mem_cons.mp hl
    rw [List.map_cons, List.cons_eq_cons, List.forall_mem_cons, Part.part_eq_iff hp hpart, ih hrest]

theorem encodeAll_tailText (segments : List Segment) :
    encodeAll (tailText segments) = (segments.map Segment.part).flatMap Part.tailBytes := by
  induction segments with
  | nil => rfl
  | cons s rest ih =>
    have hbracket (inner : List Char) : encodeAll ('[' :: (inner ++ ']' :: tailText rest)) =
        (ascii '[' :: (encodeAll inner ++ [ascii ']'])) ++ encodeAll (tailText rest) := by
      rw [Utf8.encodeAll_cons_ascii (by decide), Utf8.encodeAll_append,
        Utf8.encodeAll_cons_ascii (by decide)]
      simp
    rw [List.map_cons, List.flatMap_cons, ← ih]
    cases s with
    | field name =>
      rw [tailText, Utf8.encodeAll_cons_ascii (by decide), Utf8.encodeAll_append]
      rfl
    | key name => exact hbracket name.toList
    | index n => exact hbracket (Decimal.digitsOf n)

theorem encodeAll_listText (s : Segment) (rest : List Segment) :
    encodeAll (listText (s :: rest)) =
      s.part.headBytes ++ (rest.map Segment.part).flatMap Part.tailBytes := by
  cases s with
  | field name =>
    rw [← encodeAll_tailText]
    exact Utf8.encodeAll_append _ _
  | key name => exact encodeAll_tailText (.key name :: rest)
  | index n => exact encodeAll_tailText (.index n :: rest)

end Steps

/-! ## Whole paths -/

section Paths

variable {p : FieldPath} {raw : String}

/-- The parts that a path is written as are a derivation of its text. -/
theorem exists_written (h : p.WellFormed) : ∃ d : Derivation, d.Legal ∧
    d.bytes = encode p.text ∧ d.Denotes p.segments ∧ d.parts = p.segments.map Segment.part := by
  obtain ⟨hne, hsteps⟩ := h
  obtain ⟨s, rest, hs⟩ := List.exists_cons_of_ne_nil hne
  rw [hs] at hsteps ⊢
  refine ⟨⟨s.part, rest.map Segment.part⟩, ?_, ?_, ?_, rfl⟩
  · exact List.forall_mem_map.mpr fun t ht => (Part.legal_part (hsteps t ht)).1
  · rw [text, Utf8.encode_eq, String.toList_ofList, hs, encodeAll_listText]
    rfl
  · show List.Forall₂ Part.Denotes ((s :: rest).map Segment.part) (s :: rest)
    rw [List.forall₂_map_left_iff, List.forall₂_same]
    exact fun t ht => (Part.legal_part (hsteps t ht)).2

theorem parse_text (h : p.WellFormed) : parse p.text = .ok p := by
  obtain ⟨d, hl, hb, hd, -⟩ := exists_written h
  obtain ⟨segments, hd', hp⟩ := parse_of_derivation hl hb
  rw [hp, Part.Denotes.all_unique hd' hd]

theorem wellFormed_of_parse (h : parse raw = .ok p) : p.WellFormed := by
  obtain ⟨d, hl, -, hd⟩ := exists_derivation h
  refine ⟨?_, wellFormed_of_parts hl hd⟩
  rintro he
  rw [he] at hd
  cases hd

/-- A text is written as it was read exactly if its numbers have no superfluous zeros. -/
theorem text_eq_iff {d : Derivation} (h : parse raw = .ok p) (hl : d.Legal)
    (hb : d.bytes = encode raw) : p.text = raw ↔ ∀ part ∈ d.parts, part.IsShortest := by
  obtain ⟨segments, hd, hp⟩ := parse_of_derivation hl hb
  obtain rfl : p = ⟨segments⟩ := Except.ok.inj (h.symm.trans hp)
  obtain ⟨written, hl', hb', -, hparts⟩ := exists_written (wellFormed_of_parse h)
  rw [← map_part_eq_iff hl hd, ← hparts, ← Utf8.encode_inj, ← hb, ← hb']
  constructor
  · intro he
    rw [Derivation.bytes_inj hl' hl he]
  · intro he
    rw [show written.bytes = partBytes written.parts from rfl, he]
    rfl

end Paths

/-- The text of a path is read as that path exactly if the path is well formed, which it is exactly
if some text is read as it. So what is read is read again from its own text, and that is the text it
was read from exactly if no number between the brackets of the text's derivation, the only one it
has, has a superfluous zero in front. -/
theorem parse_text_inverse :
    (∀ p : FieldPath, (parse p.text = .ok p ↔ p.WellFormed) ∧
      (p.WellFormed ↔ ∃ raw, parse raw = .ok p)) ∧
    ∀ (raw : String) (p : FieldPath), parse raw = .ok p →
      parse p.text = .ok p ∧
      ∃ d : Derivation, d.Legal ∧ d.bytes = encode raw ∧ d.Denotes p.segments ∧
        (∀ d' : Derivation, d'.Legal → d'.bytes = encode raw → d' = d) ∧
        (p.text = raw ↔ ∀ part ∈ d.parts, part.IsShortest) := by
  refine ⟨fun p => ⟨⟨wellFormed_of_parse, parse_text⟩, fun h => ⟨_, parse_text h⟩, ?_⟩,
    fun raw p h => ⟨parse_text (wellFormed_of_parse h), ?_⟩⟩
  · rintro ⟨raw, h⟩
    exact wellFormed_of_parse h
  · obtain ⟨d, hl, hb, hd⟩ := exists_derivation h
    exact ⟨d, hl, hb, hd, fun d' hl' hb' => Derivation.bytes_inj hl' hl (hb'.trans hb.symm),
      text_eq_iff h hl hb⟩

/-- Superfluous zeros are not written back. -/
theorem parse_text_leadingZeros : ∃ p : FieldPath, parse "größe[a.[b].x[007]" = .ok p ∧
    parse p.text = .ok p ∧ p.text = "größe[a.[b].x[7]" ∧
    ∃ d : Derivation, d.bytes = encode "größe[a.[b].x[007]" ∧
      ¬ ∀ part ∈ d.parts, part.IsShortest := by
  have hp : parse "größe[a.[b].x[007]" =
      .ok ⟨[.field "größe", .key "a.[b", .field "x", .index 7]⟩ := by
    rw [parse_ok_iff]
    decide +kernel
  obtain ⟨hback, d, -, hb, -, -, htext⟩ := parse_text_inverse.2 _ _ hp
  refine ⟨_, hp, hback, by decide +kernel, d, hb, ?_⟩
  rw [← htext]
  decide +kernel

end FieldPath

end CompositionGen
