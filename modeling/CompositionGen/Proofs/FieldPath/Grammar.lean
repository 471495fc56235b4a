import CompositionGen.Proofs.FieldPath.Reading
import CompositionGen.Proofs.Outcome
import CompositionGen.Proofs.Text.Encoding
import Mathlib.Algebra.Ring.Nat
import Mathlib.Data.List.Forall2

/-!
# The grammar of field paths

A path is a first part and further ones, `head tail*`, where a part is a dotted name or a bracket
and a name that is not the first part has a dot before it. The grammar speaks of bytes. No bytes
have two derivations, and a text is a path exactly if its bytes have one.
-/

namespace CompositionGen.FieldPath

open Utf8 (ascii encode encodeAll)

/-! ## Derivations -/

/-- A byte of an ASCII digit. -/
def isDigitByte (b : UInt8) : Bool := ascii '0' ≤ b && b ≤ ascii '9'

/-- The decimal value of digits, most significant first. -/
def decimalValue (digits : List UInt8) : Nat :=
  digits.foldl (fun n b => n * 10 + (b.toNat - (ascii '0').toNat)) 0

/-- A part of a path: the bytes of a name, or what stands between two brackets. -/
inductive Part where
  | field (name : List UInt8)
  | bracket (inner : List UInt8)
  deriving DecidableEq, Repr

namespace Part

/-- A name has a byte and no special one. A bracket holds a byte and no closing bracket, and a
number in it is below 2^64. -/
def Legal : Part → Prop
  | field name => name ≠ [] ∧ ∀ b ∈ name, b ≠ ascii '.' ∧ b ≠ ascii '[' ∧ b ≠ ascii ']'
  | bracket inner => inner ≠ [] ∧ ascii ']' ∉ inner ∧
      (inner.all isDigitByte = true → decimalValue inner < 2 ^ 64)

instance : DecidablePred Legal
  | field name => inferInstanceAs (Decidable
      (name ≠ [] ∧ ∀ b ∈ name, b ≠ ascii '.' ∧ b ≠ ascii '[' ∧ b ≠ ascii ']'))
  | bracket inner => inferInstanceAs (Decidable (inner ≠ [] ∧ ascii ']' ∉ inner ∧
      (inner.all isDigitByte = true → decimalValue inner < 2 ^ 64)))

/-- The bytes of a part at the beginning of a path. -/
def headBytes : Part → List UInt8
  | field name => name
  | bracket inner => ascii '[' :: (inner ++ [ascii ']'])

/-- The bytes of a part behind another. -/
def tailBytes : Part → List UInt8
  | field name => ascii '.' :: name
  | bracket inner => ascii '[' :: (inner ++ [ascii ']'])

/-- The step that a part stands for. -/
inductive Denotes : Part → Segment → Prop where
  | field (name : String) : Denotes (.field (encode name)) (.field name)
  | index {inner : List UInt8} : inner.all isDigitByte = true →
      Denotes (.bracket inner) (.index (decimalValue inner))
  | key (name : String) : ¬ (encode name).all isDigitByte = true →
      Denotes (.bracket (encode name)) (.key name)

end Part

/-- A derivation of a path: its first part and the further ones. -/
structure Derivation where
  head : Part
  tail : List Part
  deriving DecidableEq, Repr

namespace Derivation

/-- The parts in their order. -/
def parts (d : Derivation) : List Part := d.head :: d.tail

/-- All parts are legal. -/
def Legal (d : Derivation) : Prop := ∀ p ∈ d.parts, p.Legal

instance : DecidablePred Legal := fun d => inferInstanceAs (Decidable (∀ p ∈ d.parts, p.Legal))

/-- The bytes that are derived. -/
def bytes (d : Derivation) : List UInt8 := d.head.headBytes ++ d.tail.flatMap Part.tailBytes

/-- The steps that the parts stand for. -/
def Denotes (d : Derivation) (segments : List Segment) : Prop :=
  List.Forall₂ Part.Denotes d.parts segments

end Derivation

/-! ## Bytes have one derivation -/

/-- Two lists that agree are cut at the same place, the first at which a property fails. -/
theorem append_inj_of_stop {α : Type} {p : α → Bool} {a a' r r' : List α}
    (ha : ∀ x ∈ a, p x = true) (ha' : ∀ x ∈ a', p x = true) (hr : ∀ x ∈ r.head?, p x = false)
    (hr' : ∀ x ∈ r'.head?, p x = false) (h : a ++ r = a' ++ r') : a = a' ∧ r = r' := by
  have hcut {b s : List α} (hb : ∀ x ∈ b, p x = true) (hs : ∀ x ∈ s.head?, p x = false) :
      (b ++ s).takeWhile p = b := by
    rw [List.takeWhile_append_of_pos hb]
    cases s with
    | nil => simp
    | cons x s => rw [List.takeWhile_cons_of_neg (by simp [hs x rfl]), List.append_nil]
  have haa : a = a' := by rw [← hcut ha hr, h, hcut ha' hr']
  subst haa
  exact ⟨rfl, List.append_cancel_left h⟩

/-- A byte of a dotted name. -/
def isNameByte (b : UInt8) : Bool := b ≠ ascii '.' ∧ b ≠ ascii '[' ∧ b ≠ ascii ']'

/-- The bytes behind a part are empty or begin with a dot or a bracket. -/
theorem head?_flatMap_tailBytes (tail : List Part) : ∀ b ∈ (tail.flatMap Part.tailBytes).head?,
    b = ascii '.' ∨ b = ascii '[' := by
  intro b hb
  cases tail with
  | nil => cases hb
  | cons p rest =>
    cases p with
    | field name => exact .inl (Option.some.inj hb).symm
    | bracket inner => exact .inr (Option.some.inj hb).symm

theorem isNameByte_head?_tail (tail : List Part) :
    ∀ b ∈ (tail.flatMap Part.tailBytes).head?, isNameByte b = false := by
  intro b hb
  rcases head?_flatMap_tailBytes tail b hb with rfl | rfl
  · rfl
  · rfl

namespace Part

theorem Legal.isNameByte {name : List UInt8} (h : (field name).Legal) :
    ∀ b ∈ name, isNameByte b = true :=
  fun b hb => decide_eq_true (h.2 b hb)

theorem bracket_append_inj {inner inner' rest rest' : List UInt8} (h : (bracket inner).Legal)
    (h' : (bracket inner').Legal)
    (he : (inner ++ [ascii ']']) ++ rest = (inner' ++ [ascii ']']) ++ rest') :
    inner = inner' ∧ rest = rest' := by
  rw [List.append_assoc, List.append_assoc] at he
  have hne {i : List UInt8} (hi : (bracket i).Legal) :
      ∀ b ∈ i, (b ≠ ascii ']' : Bool) = true :=
    fun b hb => decide_eq_true fun he => hi.2.1 (he ▸ hb)
  obtain ⟨hi, hr⟩ := append_inj_of_stop (hne h) (hne h') (by simp) (by simp) he
  exact ⟨hi, (List.cons.inj hr).2⟩

theorem tail_inj {tail tail' : List Part} (h : ∀ p ∈ tail, p.Legal) (h' : ∀ p ∈ tail', p.Legal)
    (he : tail.flatMap tailBytes = tail'.flatMap tailBytes) : tail = tail' := by
  induction tail generalizing tail' with
  | nil =>
    cases tail' with
    | nil => rfl
    | cons p' rest' => cases p' <;> simp [tailBytes] at he
  | cons p rest ih =>
    obtain ⟨hp, hrest⟩ := List.forall_mem_cons.mp h
    cases tail' with
    | nil => cases p <;> simp [tailBytes] at he
    | cons p' rest' =>
      obtain ⟨hp', hrest'⟩ := List.forall_mem_cons.mp h'
      rw [List.flatMap_cons, List.flatMap_cons] at he
      cases p with
      | field name =>
        cases p' with
        | field name' =>
          obtain ⟨rfl, hr⟩ := append_inj_of_stop hp.isNameByte hp'.isNameByte
            (isNameByte_head?_tail rest) (isNameByte_head?_tail rest') (List.cons.inj he).2
          rw [ih hrest hrest' hr]
        | bracket inner' => exact absurd (List.cons.inj he).1 (by decide)
      | bracket inner =>
        cases p' with
        | field name' => exact absurd (List.cons.inj he).1 (by decide)
        | bracket inner' =>
          obtain ⟨rfl, hr⟩ := bracket_append_inj hp hp' (List.cons.inj he).2
          rw [ih hrest hrest' hr]

/-- A name and a bracket do not begin alike. -/
theorem name_ne_bracket {name inner rest rest' : List UInt8} (h : (field name).Legal) :
    name ++ rest ≠ (bracket inner).headBytes ++ rest' := by
  obtain ⟨b, name, rfl⟩ := List.exists_cons_of_ne_nil h.1
  intro he
  have hb := h.isNameByte b List.mem_cons_self
  rw [(List.cons.inj he).1] at hb
  cases hb

end Part

theorem Derivation.bytes_inj {d d' : Derivation} (h : d.Legal) (h' : d'.Legal)
    (he : d.bytes = d'.bytes) : d = d' := by
  obtain ⟨head, tail⟩ := d
  obtain ⟨head', tail'⟩ := d'
  obtain ⟨hhead, htail⟩ := List.forall_mem_cons.mp h
  obtain ⟨hhead', htail'⟩ := List.forall_mem_cons.mp h'
  cases head with
  | field name =>
    cases head' with
    | field name' =>
      obtain ⟨rfl, hr⟩ := append_inj_of_stop hhead.isNameByte hhead'.isNameByte
        (isNameByte_head?_tail tail) (isNameByte_head?_tail tail') he
      obtain rfl : tail = tail' := Part.tail_inj htail htail' hr
      rfl
    | bracket inner' => exact absurd he (Part.name_ne_bracket hhead)
  | bracket inner =>
    cases head' with
    | field name' => exact absurd he.symm (Part.name_ne_bracket hhead')
    | bracket inner' =>
      obtain ⟨rfl, hr⟩ := Part.bracket_append_inj hhead hhead' (List.cons.inj he).2
      obtain rfl : tail = tail' := Part.tail_inj htail htail' hr
      rfl

/-! ## Parts of encoded text -/

theorem isDigitByte_utf8EncodeChar (c : Char) :
    (String.utf8EncodeChar c).all isDigitByte = Decimal.isDigit c := by
  have h0 : (ascii '0').toNat = 48 := rfl
  have h9 : (ascii '9').toNat = 57 := rfl
  have hc : Decimal.isDigit c = true ↔ 48 ≤ c.toNat ∧ c.toNat ≤ 57 := by
    simp only [Decimal.isDigit, Bool.and_eq_true, decide_eq_true_eq, Char.le_def,
      UInt32.le_iff_toNat_le]
    rfl
  have hb (b : UInt8) : isDigitByte b = true ↔ 48 ≤ b.toNat ∧ b.toNat ≤ 57 := by
    simp only [isDigitByte, Bool.and_eq_true, decide_eq_true_eq, UInt8.le_iff_toNat_le, h0, h9]
  rw [Bool.eq_iff_iff, hc]
  rcases Utf8.utf8EncodeChar_cases c with ⟨hlt, he⟩ | ⟨hge, lead, rest, he, hl, -⟩
  · rw [he, List.all_cons, List.all_nil, Bool.and_true, hb, Utf8.toNat_ascii hlt]
  · rw [he, List.all_cons, Bool.and_eq_true, hb]
    omega

theorem all_isDigitByte (cs : List Char) :
    (encodeAll cs).all isDigitByte = cs.all Decimal.isDigit := by
  induction cs with
  | nil => rfl
  | cons c cs ih =>
    rw [Utf8.encodeAll_cons, List.all_append, isDigitByte_utf8EncodeChar, ih, List.all_cons]

theorem decimalValue_encodeAll {cs : List Char} (h : cs.all Decimal.isDigit = true) :
    decimalValue (encodeAll cs) = Decimal.value cs := by
  have hfold : ∀ n, (encodeAll cs).foldl (fun n b => n * 10 + (b.toNat - (ascii '0').toNat)) n =
      Decimal.extend n cs := by
    induction cs with
    | nil => exact fun n => rfl
    | cons c cs ih =>
      rw [List.all_cons, Bool.and_eq_true] at h
      have hc : c.toNat < 128 := by
        rcases Utf8.utf8EncodeChar_cases c with ⟨hc, -⟩ | ⟨-, lead, rest, he, hl, -⟩
        · exact hc
        · have hd := h.1
          rw [← isDigitByte_utf8EncodeChar, he, List.all_cons, Bool.and_eq_true] at hd
          simp only [isDigitByte, Bool.and_eq_true, decide_eq_true_eq,
            UInt8.le_iff_toNat_le] at hd
          have h9 : (ascii '9').toNat = 57 := rfl
          omega
      intro n
      rw [Utf8.encodeAll_cons_ascii hc, List.foldl_cons, ih h.2, Utf8.toNat_ascii hc]
      rfl
  exact hfold 0

namespace Part

theorem legal_field_iff {name : List Char} :
    (field (encodeAll name)).Legal ↔
      name ≠ [] ∧ ∀ c ∈ name, Segment.isNameChar c = true := by
  refine and_congr (not_congr Utf8.encodeAll_eq_nil_iff) ?_
  have hmem (x : Char) (hx : x.toNat < 128) : (∀ b ∈ encodeAll name, b ≠ ascii x) ↔
      ∀ c ∈ name, c ≠ x := by
    rw [← not_iff_not]
    simp only [not_forall, not_not, exists_prop, exists_eq_right, Utf8.ascii_mem_encodeAll hx]
  simp only [isNameChar_iff, forall_and, hmem '.' (by decide), hmem '[' (by decide),
    hmem ']' (by decide)]

theorem exists_denotes_bracket (inner : List Char) :
    ∃ segment, (bracket (encodeAll inner)).Denotes segment := by
  by_cases h : (encodeAll inner).all isDigitByte = true
  · exact ⟨_, .index h⟩
  · have hname := Denotes.key (String.ofList inner)
    rw [Utf8.encode_eq, String.toList_ofList] at hname
    exact ⟨_, hname h⟩

theorem Denotes.unique {p : Part} {s t : Segment} (hs : p.Denotes s) (ht : p.Denotes t) :
    s = t := by
  generalize hp : p = q at ht
  cases hs with
  | field name =>
    cases ht with
    | field name' => rw [Utf8.encode_inj.mp (field.inj hp)]
    | index => cases hp
    | key => cases hp
  | index hd =>
    cases ht with
    | field => cases hp
    | index => rw [bracket.inj hp]
    | key name hn => exact absurd (bracket.inj hp ▸ hd) hn
  | key name hn =>
    cases ht with
    | field => cases hp
    | index hd => exact absurd (bracket.inj hp ▸ hd) hn
    | key name' => rw [Utf8.encode_inj.mp (bracket.inj hp)]

/-- A bracket is read if it is legal, and as the step that it stands for. -/
theorem bracketSegment_ok_iff {offset : Nat} {inner : List Char} {segment : Segment}
    (h : ']' ∉ inner) : bracketSegment offset inner = .ok segment ↔
      (bracket (encodeAll inner)).Legal ∧ (bracket (encodeAll inner)).Denotes segment := by
  have hclosing : ascii ']' ∉ encodeAll inner := (Utf8.ascii_mem_encodeAll (by decide)).not.mpr h
  have hkey (hd : ¬ inner.all Decimal.isDigit = true) :
      (bracket (encodeAll inner)).Denotes (.key (String.ofList inner)) := by
    have hname := Denotes.key (String.ofList inner)
    rw [Utf8.encode_eq, String.toList_ofList, all_isDigitByte] at hname
    exact hname hd
  unfold bracketSegment
  split
  · rename_i hi
    obtain rfl := List.isEmpty_iff.mp hi
    exact iff_of_false (fun h => by cases h) (fun h => h.1.1 rfl)
  · rename_i hi
    have hne : encodeAll inner ≠ [] :=
      fun he => hi (List.isEmpty_iff.mpr (Utf8.encodeAll_eq_nil_iff.mp he))
    split
    · rename_i hd
      have hbytes : (encodeAll inner).all isDigitByte = true := (all_isDigitByte inner).trans hd
      have hindex := Denotes.index hbytes
      rw [decimalValue_encodeAll hd] at hindex
      split
      · rename_i hv
        refine ⟨fun h => ?_, fun ⟨_, hs⟩ => by rw [hs.unique hindex]⟩
        cases h
        exact ⟨⟨hne, hclosing, fun _ => by rwa [decimalValue_encodeAll hd]⟩, hindex⟩
      · rename_i hv
        refine iff_of_false (fun h => by cases h) (fun ⟨hl, _⟩ => hv ?_)
        have hlt := hl.2.2 hbytes
        rwa [decimalValue_encodeAll hd] at hlt
    · rename_i hd
      refine ⟨fun h => ?_, fun ⟨_, hs⟩ => by rw [hs.unique (hkey hd)]⟩
      cases h
      exact ⟨⟨hne, hclosing, fun hb => absurd ((all_isDigitByte inner).symm.trans hb) hd⟩, hkey hd⟩

end Part

/-! ## Reading follows the grammar -/

/-- The bytes of parts from the beginning of a path on. -/
def partBytes : List Part → List UInt8
  | [] => []
  | p :: rest => p.headBytes ++ rest.flatMap Part.tailBytes

/-- What the parts of the rest of a text are, where a name has to come first behind a dot. -/
structure Parts (cs : List Char) (afterDot : Bool) (parts : List Part) : Prop where
  legal : ∀ p ∈ parts, p.Legal
  bytes : encodeAll cs = partBytes parts
  named : afterDot = true → ∃ name rest, parts = .field name :: rest

/-- The parts behind a part, as they are read behind its step. -/
theorem parts_of_tail {after : List Char} {tail : List Part} (hl : ∀ p ∈ tail, p.Legal)
    (h : encodeAll after = tail.flatMap Part.tailBytes) :
    (∃ rest, after = '.' :: rest ∧ Parts rest true tail) ∨
      (after = [] ∨ ∃ rest, after = '[' :: rest) ∧ Parts after false tail := by
  cases tail with
  | nil =>
    obtain rfl := Utf8.encodeAll_eq_nil_iff.mp h
    exact .inr ⟨.inl rfl, hl, rfl, nofun⟩
  | cons p tail =>
    cases p with
    | field name =>
      obtain ⟨rest, rfl, hr⟩ := Utf8.encodeAll_eq_cons_ascii (by decide) h
      exact .inl ⟨rest, rfl, hl, hr, fun _ => ⟨name, tail, rfl⟩⟩
    | bracket inner =>
      obtain ⟨rest, rfl, -⟩ := Utf8.encodeAll_eq_cons_ascii (by decide) h
      exact .inr ⟨.inr ⟨rest, rfl⟩, hl, h, nofun⟩

theorem head?_of_tail {after : List Char} {tail : List Part} (hl : ∀ p ∈ tail, p.Legal)
    (h : encodeAll after = tail.flatMap Part.tailBytes) :
    ∀ c ∈ after.head?, c = '.' ∨ c = '[' := by
  rcases parts_of_tail hl h with ⟨rest, rfl, -⟩ | ⟨rfl | ⟨rest, rfl⟩, -⟩ <;> simp

theorem endsName_of_head? {after : List Char} (h : ∀ c ∈ after.head?, c = '.' ∨ c = '[') :
    EndsName after := by
  intro c hc
  rcases h c hc with rfl | rfl
  · rfl
  · rfl

/-- The bytes behind a part are empty or begin with an ASCII character. -/
theorem tailBytes_cases (tail : List Part) : tail.flatMap Part.tailBytes = [] ∨
    ∃ x rest, x.toNat < 128 ∧ tail.flatMap Part.tailBytes = ascii x :: rest := by
  cases hb : tail.flatMap Part.tailBytes with
  | nil => exact .inl rfl
  | cons b rest =>
    rcases head?_flatMap_tailBytes tail b (by rw [hb]; rfl) with rfl | rfl
    · exact .inr ⟨'.', rest, by decide, rfl⟩
    · exact .inr ⟨'[', rest, by decide, rfl⟩

theorem Parts.tail_of_dot {rest : List Char} {parts : List Part} (h : Parts rest true parts) :
    encodeAll ('.' :: rest) = parts.flatMap Part.tailBytes := by
  obtain ⟨name, tail, rfl⟩ := h.named rfl
  rw [Utf8.encodeAll_cons_ascii (by decide), h.bytes]
  rfl

theorem Parts.tail_of_endsName {after : List Char} {parts : List Part}
    (h : Parts after false parts) (ha : EndsName after) :
    encodeAll after = parts.flatMap Part.tailBytes := by
  cases parts with
  | nil => exact h.bytes
  | cons p tail =>
    cases p with
    | bracket inner => exact h.bytes
    | field name =>
      -- A name would begin with a byte that no special character has.
      exfalso
      have hp := h.legal _ List.mem_cons_self
      obtain ⟨b, name, rfl⟩ := List.exists_cons_of_ne_nil hp.1
      have hb := hp.isNameByte b List.mem_cons_self
      have hbytes := h.bytes
      cases after with
      | nil => cases hbytes
      | cons c rest =>
        have hc : c.toNat < 128 := by
          rcases endsName_cons.mp ha with rfl | rfl | rfl <;> decide
        rw [Utf8.encodeAll_cons_ascii hc] at hbytes
        rw [← (List.cons.inj hbytes).1] at hb
        rcases endsName_cons.mp ha with rfl | rfl | rfl <;> cases hb

section Steps

variable {offset : Nat} {afterDot : Bool} {cs : List Char} {segments : List Segment}

theorem parseOn_ok {segment : Segment} {after : List Char} (ha : EndsName after)
    (ih : ∀ ds, ds.length ≤ after.length → ∀ offset afterDot segments,
      parseFrom offset afterDot ds = .ok segments →
      ∃ parts, Parts ds afterDot parts ∧ List.Forall₂ Part.Denotes parts segments)
    (h : parseOn offset segment after = .ok segments) :
    ∃ tail rest, segments = segment :: rest ∧ (∀ p ∈ tail, p.Legal) ∧
      encodeAll after = tail.flatMap Part.tailBytes ∧ List.Forall₂ Part.Denotes tail rest := by
  by_cases hd : after.head? = some '.'
  · obtain ⟨ds, rfl⟩ := List.head?_eq_some_iff.mp hd
    rw [parseOn_dot] at h
    obtain ⟨rest, hr, rfl⟩ := Outcome.map_ok_iff.mp h
    obtain ⟨parts, hp, hs⟩ := ih ds (by simp) _ _ _ hr
    exact ⟨parts, rest, rfl, hp.legal, hp.tail_of_dot, hs⟩
  · rw [parseOn_of_head?_ne hd] at h
    obtain ⟨rest, hr, rfl⟩ := Outcome.map_ok_iff.mp h
    obtain ⟨parts, hp, hs⟩ := ih after (Nat.le_refl _) _ _ _ hr
    exact ⟨parts, rest, rfl, hp.legal, hp.tail_of_endsName ha, hs⟩

/-- What is read is what legal parts stand for. -/
theorem exists_parts_of_parseFrom (h : parseFrom offset afterDot cs = .ok segments) :
    ∃ parts, Parts cs afterDot parts ∧ List.Forall₂ Part.Denotes parts segments := by
  -- The rest behind a step may have lost a dot as well, so the induction is on the length.
  induction hn : cs.length using Nat.strongRecOn generalizing cs offset afterDot segments with
  | _ n ih =>
    have ih' (after : List Char) (hlt : after.length < n) : ∀ ds, ds.length ≤ after.length →
        ∀ offset afterDot segments, parseFrom offset afterDot ds = .ok segments →
        ∃ parts, Parts ds afterDot parts ∧ List.Forall₂ Part.Denotes parts segments :=
      fun ds hds _ _ _ h => ih ds.length (Nat.lt_of_le_of_lt hds hlt) h rfl
    -- Of the shapes that a text can have, only names and closed brackets begin a step.
    cases shape_of cs with
    | nil =>
      rw [parseFrom_nil] at h
      split at h
      · cases h
      · rename_i hd
        cases h
        exact ⟨[], ⟨by simp, rfl, fun h => absurd h hd⟩, .nil⟩
    | dot rest => rw [parseFrom_dot] at h; cases h
    | closing rest => rw [parseFrom_closing] at h; cases h
    | @name name after hne hname ha =>
      rw [parseFrom_name hne hname ha] at h
      have hlt : after.length < n := by
        rw [← hn, List.length_append]
        have := List.length_pos_iff.mpr hne
        omega
      obtain ⟨tail, rest, rfl, hl, hb, hs⟩ := parseOn_ok ha (ih' after hlt) h
      have hp := Part.legal_field_iff.mpr ⟨hne, hname⟩
      refine ⟨.field (encodeAll name) :: tail,
        ⟨List.forall_mem_cons.mpr ⟨hp, hl⟩, ?_, fun _ => ⟨_, _, rfl⟩⟩, .cons ?_ hs⟩
      · rw [Utf8.encodeAll_append, hb]
        rfl
      · have hd := Part.Denotes.field (String.ofList name)
        rwa [Utf8.encode_eq, String.toList_ofList] at hd
    | @unterminated rest hr =>
      cases afterDot with
      | true => rw [parseFrom_opening_afterDot] at h; cases h
      | false => rw [parseFrom_unterminated hr] at h; cases h
    | @bracket inner after hi =>
      cases afterDot with
      | true => rw [parseFrom_opening_afterDot] at h; cases h
      | false =>
        by_cases ha : ∀ c ∈ after.head?, c = '.' ∨ c = '['
        · rw [parseFrom_bracket hi ha] at h
          obtain ⟨segment, hsegment, h⟩ := Outcome.bind_ok_iff.mp h
          have hlt : after.length < n := by
            rw [← hn, List.length_cons, List.length_append, List.length_cons]
            omega
          obtain ⟨tail, rest, rfl, hl, hb, hs⟩ :=
            parseOn_ok (endsName_of_head? ha) (ih' after hlt) h
          obtain ⟨hp, hd⟩ := (Part.bracketSegment_ok_iff hi).mp hsegment
          refine ⟨.bracket (encodeAll inner) :: tail,
            ⟨List.forall_mem_cons.mpr ⟨hp, hl⟩, ?_, nofun⟩, .cons hd hs⟩
          rw [Utf8.encodeAll_cons_ascii (by decide), Utf8.encodeAll_append,
            Utf8.encodeAll_cons_ascii (by decide), hb]
          simp [partBytes, Part.headBytes]
        · obtain ⟨c, hc, hne⟩ := by simpa only [not_forall] using ha
          obtain ⟨rest, rfl⟩ := List.head?_eq_some_iff.mp (Option.mem_def.mp hc)
          rw [not_or] at hne
          rw [parseFrom_bracket_unexpected hi hne.1 hne.2] at h
          obtain ⟨segment, -, h⟩ := Outcome.bind_ok_iff.mp h
          cases h

theorem parseOn_of_tail {segment : Segment} {after : List Char} {tail : List Part}
    (ih : ∀ cs offset afterDot, Parts cs afterDot tail →
      ∃ segments, parseFrom offset afterDot cs = .ok segments ∧
        List.Forall₂ Part.Denotes tail segments)
    (hl : ∀ p ∈ tail, p.Legal) (h : encodeAll after = tail.flatMap Part.tailBytes) :
    ∃ rest, parseOn offset segment after = .ok (segment :: rest) ∧
      List.Forall₂ Part.Denotes tail rest := by
  rcases parts_of_tail hl h with ⟨ds, rfl, hp⟩ | ⟨hopening, hp⟩
  · obtain ⟨rest, hr, hs⟩ := ih ds (offset + 1) true hp
    exact ⟨rest, by rw [parseOn_dot, hr]; rfl, hs⟩
  · obtain ⟨rest, hr, hs⟩ := ih after offset false hp
    have hd : after.head? ≠ some '.' := by
      rcases hopening with rfl | ⟨ds, rfl⟩ <;> simp
    exact ⟨rest, by rw [parseOn_of_head?_ne hd, hr]; rfl, hs⟩

/-- What has legal parts is read. -/
theorem parseFrom_of_parts {parts : List Part} (h : Parts cs afterDot parts) :
    ∃ segments, parseFrom offset afterDot cs = .ok segments ∧
      List.Forall₂ Part.Denotes parts segments := by
  induction parts generalizing cs offset afterDot with
  | nil =>
    obtain rfl := Utf8.encodeAll_eq_nil_iff.mp h.bytes
    have hd : ¬ afterDot = true := fun hd => by
      obtain ⟨name, rest, hp⟩ := h.named hd
      cases hp
    exact ⟨[], by rw [parseFrom_nil, if_neg hd], .nil⟩
  | cons p tail ih =>
    obtain ⟨hp, hl⟩ := List.forall_mem_cons.mp h.legal
    have ih' : ∀ cs offset afterDot, Parts cs afterDot tail →
        ∃ segments, parseFrom offset afterDot cs = .ok segments ∧
          List.Forall₂ Part.Denotes tail segments := fun _ _ _ h => ih h
    cases p with
    | field name =>
      obtain ⟨a, after, rfl, rfl, ha⟩ := Utf8.encodeAll_eq_append h.bytes (tailBytes_cases tail)
      obtain ⟨hne, hname⟩ := Part.legal_field_iff.mp hp
      rw [parseFrom_name hne hname (endsName_of_head? (head?_of_tail hl ha))]
      obtain ⟨rest, hr, hs⟩ := parseOn_of_tail ih' hl ha
      have hd := Part.Denotes.field (String.ofList a)
      rw [Utf8.encode_eq, String.toList_ofList] at hd
      exact ⟨_, hr, .cons hd hs⟩
    | bracket inner =>
      have hd : afterDot = false := by
        rw [← Bool.not_eq_true]
        intro hd
        obtain ⟨name, rest, hp⟩ := h.named hd
        cases hp
      subst hd
      -- Cut off the opening bracket, then what it encloses, then the closing one.
      obtain ⟨ds, rfl, hds⟩ := Utf8.encodeAll_eq_cons_ascii (x := '[') (by decide) h.bytes
      obtain ⟨a, b, rfl, rfl, hb⟩ := Utf8.encodeAll_eq_append
        (hds.trans (List.append_assoc _ _ _)) (.inr ⟨']', _, by decide, rfl⟩)
      obtain ⟨after, rfl, ha⟩ := Utf8.encodeAll_eq_cons_ascii (x := ']') (by decide) hb
      have hclosing : ']' ∉ a := (Utf8.ascii_mem_encodeAll (by decide)).not.mp hp.2.1
      obtain ⟨segment, hsegment⟩ := Part.exists_denotes_bracket a
      rw [parseFrom_bracket hclosing (head?_of_tail hl ha),
        (Part.bracketSegment_ok_iff hclosing).mpr ⟨hp, hsegment⟩]
      obtain ⟨rest, hr, hs⟩ := parseOn_of_tail ih' hl ha
      exact ⟨_, hr, .cons hsegment hs⟩

end Steps

/-! ## Whole texts -/

section Texts

variable {raw : String} {segments : List Segment}

theorem parse_ok_iff : parse raw = .ok ⟨segments⟩ ↔
    raw ≠ "" ∧ parseFrom 0 false raw.toList = .ok segments := by
  unfold parse
  by_cases h : raw = ""
  · simp [h]
  · simp only [String.isEmpty_iff, h, if_false, Outcome.map_ok_iff, mk.injEq, exists_eq_right,
    ne_eq, not_false_eq_true, true_and]

theorem Part.Denotes.all_unique {parts : List Part} {s t : List Segment}
    (hs : List.Forall₂ Part.Denotes parts s) (ht : List.Forall₂ Part.Denotes parts t) : s = t := by
  induction hs generalizing t with
  | nil =>
    cases ht
    rfl
  | cons h _ ih =>
    cases ht with
    | cons h' ht => rw [h.unique h', ih ht]

theorem exists_derivation (h : parse raw = .ok ⟨segments⟩) :
    ∃ d : Derivation, d.Legal ∧ d.bytes = encode raw ∧ d.Denotes segments := by
  obtain ⟨hne, hp⟩ := parse_ok_iff.mp h
  obtain ⟨parts, hparts, hd⟩ := exists_parts_of_parseFrom hp
  cases parts with
  | nil =>
    exact absurd (String.toList_eq_nil_iff.mp (Utf8.encodeAll_eq_nil_iff.mp hparts.bytes)) hne
  | cons head tail => exact ⟨⟨head, tail⟩, hparts.legal, hparts.bytes.symm, hd⟩

theorem Derivation.bytes_ne_nil {d : Derivation} (h : d.Legal) : d.bytes ≠ [] := by
  obtain ⟨head, tail⟩ := d
  have hhead : head.headBytes ≠ [] := by
    cases head with
    | field name => exact (h _ List.mem_cons_self).1
    | bracket inner => exact List.cons_ne_nil _ _
  exact List.append_ne_nil_of_left_ne_nil hhead _

theorem parse_of_derivation {d : Derivation} (hl : d.Legal) (hb : d.bytes = encode raw) :
    ∃ segments, d.Denotes segments ∧ parse raw = .ok ⟨segments⟩ := by
  have hparts : Parts raw.toList false d.parts := ⟨hl, hb.symm, nofun⟩
  obtain ⟨segments, hp, hd⟩ := @parseFrom_of_parts 0 false raw.toList d.parts hparts
  refine ⟨segments, hd, parse_ok_iff.mpr ⟨?_, hp⟩⟩
  rintro rfl
  exact d.bytes_ne_nil hl hb

end Texts

end CompositionGen.FieldPath
