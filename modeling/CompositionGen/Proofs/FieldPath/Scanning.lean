import CompositionGen.Proofs.FieldPath.Grammar

/-!
# Scanning the bytes of a path

Reading restated as a loop over the bytes of a text, which keeps an offset and cuts the text at
offsets. The loop ends, since each step moves the offset on, and never cuts inside a character; it
gives what reading gives, error for error. So the texts that are read, and what they are read as,
are those of the grammar.
-/

namespace CompositionGen.FieldPath

open Utf8 (ascii encode encodeAll)

/-! ## The loop -/

/-- The text between two offsets; there is none if one of them lies inside a character. -/
def slice? (raw : String) (start stop : Nat) : Option String :=
  if start ≤ stop ∧ Utf8.IsBoundary (encode raw) start ∧ Utf8.IsBoundary (encode raw) stop then
    String.fromUTF8? (((encode raw).take stop).drop start).toByteArray
  else none

/-- Passes a dot at offset `next`, which must not be the last byte. -/
def passDot (bytes : List UInt8) (segment : Segment) (next : Nat) (afterDot : Bool) :
    Except ParseError (Segment × Nat × Bool) :=
  if bytes[next]? = some (ascii '.') then
    if next + 1 = bytes.length then .error (.emptyField (next + 1))
    else .ok (segment, next + 1, true)
  else .ok (segment, next, afterDot)

/-- What is behind a bracket that ends before offset `next`. -/
def passBracket (bytes : List UInt8) (segment : Segment) (next : Nat) (afterDot : Bool) :
    Except ParseError (Segment × Nat × Bool) :=
  match bytes[next]? with
  | none => .ok (segment, next, afterDot)
  | some b =>
    if b = ascii '[' ∨ b = ascii '.' then passDot bytes segment next afterDot
    else .error (.unexpected (Char.ofNat b.toNat) next)

/-- The step that begins with byte `b` at offset `i`: the segment, the offset behind it, and whether
a dot stands just before that offset. There is none where the text is cut inside a character. -/
def scanStep (raw : String) (i : Nat) (b : UInt8) (afterDot : Bool) :
    Option (Except ParseError (Segment × Nat × Bool)) :=
  if b = ascii '[' then
    if afterDot then some (.error (.emptyField i))
    else do
      let rest ← slice? raw (i + 1) (encode raw).length
      match (encode rest).findIdx? (· = ascii ']') with
      | none => some (.error (.unterminated i))
      | some n =>
        let inner ← slice? raw (i + 1) (i + 1 + n)
        some ((bracketSegment i inner.toList).bind fun segment =>
          passBracket (encode raw) segment (i + 1 + n + 1) afterDot)
  else if b = ascii '.' then some (.error (.emptyField i))
  else if b = ascii ']' then some (.error (.unexpected ']' i))
  else do
    let stop := i + 1 + (((encode raw).drop (i + 1)).takeWhile isNameByte).length
    let name ← slice? raw i stop
    some (passDot (encode raw) (.field name) stop false)

theorem le_of_passDot {bytes : List UInt8} {segment segment' : Segment} {next next' : Nat}
    {afterDot afterDot' : Bool}
    (h : passDot bytes segment next afterDot = .ok (segment', next', afterDot')) :
    next ≤ next' := by
  unfold passDot at h
  split at h
  · split at h
    · cases h
    · cases h
      exact Nat.le_succ next
  · cases h
    exact Nat.le_refl next

theorem le_of_passBracket {bytes : List UInt8} {segment segment' : Segment} {next next' : Nat}
    {afterDot afterDot' : Bool}
    (h : passBracket bytes segment next afterDot = .ok (segment', next', afterDot')) :
    next ≤ next' := by
  unfold passBracket at h
  split at h
  · cases h
    exact Nat.le_refl next
  · split at h
    · exact le_of_passDot h
    · cases h

/-- A step moves the offset on. -/
theorem lt_of_scanStep {raw : String} {i next : Nat} {b : UInt8} {afterDot afterDot' : Bool}
    {segment : Segment} (h : scanStep raw i b afterDot = some (.ok (segment, next, afterDot'))) :
    i < next := by
  unfold scanStep at h
  split at h
  · split at h
    · cases h
    · obtain ⟨rest, -, h⟩ := Option.bind_eq_some_iff.mp h
      split at h
      · cases h
      · obtain ⟨inner, -, h⟩ := Option.bind_eq_some_iff.mp h
        obtain ⟨_, -, h⟩ := Outcome.bind_ok_iff.mp (Option.some.inj h)
        have := le_of_passBracket h
        omega
  · split at h
    · cases h
    · split at h
      · cases h
      · obtain ⟨name, -, h⟩ := Option.bind_eq_some_iff.mp h
        have := le_of_passDot (Option.some.inj h)
        omega

/-- Scans from offset `i` on, with the segments found before. -/
def scanFrom (raw : String) (i : Nat) (afterDot : Bool) (found : List Segment) :
    Option (Except ParseError (List Segment)) :=
  match _ : (encode raw)[i]? with
  | none => some (.ok found)
  | some b =>
    match _ : scanStep raw i b afterDot with
    | none => none
    | some (.error e) => some (.error e)
    | some (.ok (segment, next, afterDot')) => scanFrom raw next afterDot' (found ++ [segment])
termination_by (encode raw).length - i
decreasing_by
  rename_i hb hs
  have := lt_of_scanStep hs
  have := (List.getElem?_eq_some_iff.mp hb).1
  omega

/-- The path that a text spells, or the first offset where it fails; there is no answer if the text
is cut inside a character on the way. -/
def scan (raw : String) : Option (Except ParseError FieldPath) :=
  if encode raw = [] then some (.error .empty)
  else (scanFrom raw 0 false []).map fun outcome => outcome.map FieldPath.mk

/-! ## Places in a text -/

theorem length_encodeAll (cs : List Char) : (encodeAll cs).length = byteLength cs := by
  induction cs with
  | nil => rfl
  | cons c cs ih =>
    rw [Utf8.encodeAll_cons, List.length_append, ih, String.length_utf8EncodeChar, byteLength]

section Places

variable {raw : String} {before cs : List Char}

theorem take_encode (h : raw.toList = before ++ cs) :
    (encode raw).take (byteLength before) = encodeAll before := by
  rw [Utf8.encode_eq, h, Utf8.encodeAll_append, ← length_encodeAll, List.take_left]

theorem drop_encode (h : raw.toList = before ++ cs) :
    (encode raw).drop (byteLength before) = encodeAll cs := by
  rw [Utf8.encode_eq, h, Utf8.encodeAll_append, ← length_encodeAll, List.drop_left]

theorem getElem?_encode (h : raw.toList = before ++ cs) :
    (encode raw)[byteLength before]? = (encodeAll cs).head? := by
  rw [← drop_encode h, List.head?_drop]

theorem length_encode (h : raw.toList = before ++ cs) :
    (encode raw).length = byteLength before + byteLength cs := by
  rw [Utf8.encode_eq, h, Utf8.encodeAll_append, List.length_append, length_encodeAll,
    length_encodeAll]

theorem byteLength_append (a b : List Char) :
    byteLength (a ++ b) = byteLength a + byteLength b := by
  rw [← length_encodeAll, Utf8.encodeAll_append, List.length_append, length_encodeAll,
    length_encodeAll]

theorem byteLength_ascii {c : Char} (hc : c.toNat < 128) : byteLength [c] = 1 := by
  rw [← length_encodeAll, Utf8.encodeAll_cons_ascii hc]
  rfl

theorem byteLength_bracket (before inner : List Char) :
    byteLength (before ++ '[' :: (inner ++ [']'])) = byteLength before + byteLength inner + 2 := by
  rw [List.append_cons, byteLength_append, byteLength_append, byteLength_append,
    byteLength_ascii (by decide), byteLength_ascii (by decide)]
  omega

/-- A text that is cut between characters is cut. -/
theorem slice?_eq {middle after : List Char} (h : raw.toList = before ++ middle ++ after) :
    slice? raw (byteLength before) (byteLength before + byteLength middle) =
      some (String.ofList middle) := by
  have hbound {a b : List Char} (hab : raw.toList = a ++ b) :
      Utf8.IsBoundary (encode raw) (byteLength a) := by
    rw [← length_encodeAll, Utf8.encode_eq]
    exact Utf8.isBoundary_iff.mpr ⟨a, b, hab, rfl⟩
  have hstart := hbound (h.trans (List.append_assoc _ _ _))
  have hstop := hbound h
  rw [byteLength_append] at hstop
  rw [slice?, if_pos ⟨Nat.le_add_right _ _, hstart, hstop⟩, ← byteLength_append, take_encode h,
    Utf8.encodeAll_append, ← length_encodeAll, List.drop_left]
  have hread := Utf8.fromUTF8?_encode (String.ofList middle)
  rwa [Utf8.encode_eq, String.toList_ofList] at hread

end Places

/-! ## Each step of the loop reads one step of the path -/

theorem isNameByte_utf8EncodeChar {c : Char} (h : Segment.isNameChar c = true) :
    ∀ b ∈ String.utf8EncodeChar c, isNameByte b = true := by
  intro b hb
  obtain ⟨hdot, hopening, hclosing⟩ := isNameChar_iff.mp h
  refine decide_eq_true ⟨?_, ?_, ?_⟩
  · rintro rfl
    exact hdot ((Utf8.ascii_mem_utf8EncodeChar (by decide)).mp hb).symm
  · rintro rfl
    exact hopening ((Utf8.ascii_mem_utf8EncodeChar (by decide)).mp hb).symm
  · rintro rfl
    exact hclosing ((Utf8.ascii_mem_utf8EncodeChar (by decide)).mp hb).symm

theorem isNameByte_encodeAll {name : List Char} (h : ∀ c ∈ name, Segment.isNameChar c = true) :
    ∀ b ∈ encodeAll name, isNameByte b = true := by
  intro b hb
  obtain ⟨c, hc, hb⟩ := List.mem_flatMap.mp hb
  exact isNameByte_utf8EncodeChar (h c hc) b hb

theorem head?_encodeAll_of_endsName {after : List Char} (h : EndsName after) :
    ∀ b ∈ (encodeAll after).head?, isNameByte b = false := by
  intro b hb
  cases after with
  | nil => cases hb
  | cons c rest =>
    rcases endsName_cons.mp h with rfl | rfl | rfl
    · cases hb; rfl
    · cases hb; rfl
    · cases hb; rfl

section Run

variable {raw : String} {before : List Char} {afterDot : Bool} {found : List Segment}

/-- What the loop makes of the outcome of a step. -/
def scanOn (raw : String) (found : List Segment) :
    Except ParseError (Segment × Nat × Bool) → Option (Except ParseError (List Segment))
  | .error e => some (.error e)
  | .ok (segment, next, afterDot) => scanFrom raw next afterDot (found ++ [segment])

/-- The loop reads a text from a place on. -/
def Scans (raw : String) (before : List Char) (afterDot : Bool) (cs : List Char) : Prop :=
  ∀ found, scanFrom raw (byteLength before) afterDot found =
    some ((parseFrom (byteLength before) afterDot cs).map (found ++ ·))

theorem scanFrom_cons {b : UInt8} {i : Nat} {outcome : Except ParseError (Segment × Nat × Bool)}
    (hb : (encode raw)[i]? = some b) (hs : scanStep raw i b afterDot = some outcome) :
    scanFrom raw i afterDot found = scanOn raw found outcome := by
  rw [scanFrom]
  split
  · rename_i h
    rw [h] at hb
    cases hb
  · rename_i b' h
    obtain rfl : b' = b := Option.some.inj (h.symm.trans hb)
    rw [hs]
    cases outcome with
    | error e => rfl
    | ok result => rfl

theorem head?_encodeAll_eq_ascii {cs : List Char} {x : Char} (hx : x.toNat < 128) :
    (encodeAll cs).head? = some (ascii x) ↔ cs.head? = some x := by
  constructor
  · intro h
    obtain ⟨rest, hr⟩ := List.head?_eq_some_iff.mp h
    obtain ⟨ds, rfl, -⟩ := Utf8.encodeAll_eq_cons_ascii hx hr
    rfl
  · intro h
    obtain ⟨ds, rfl⟩ := List.head?_eq_some_iff.mp h
    rw [Utf8.encodeAll_cons_ascii hx]
    rfl

/-- Passing a dot, or none, reads on behind a step. -/
theorem scanOn_passDot {segment : Segment} {after : List Char} (hraw : raw.toList = before ++ after)
    (hdot : ∀ rest, after = '.' :: rest → rest ≠ [] → Scans raw (before ++ ['.']) true rest)
    (hother : after.head? ≠ some '.' → Scans raw before false after) :
    scanOn raw found (passDot (encode raw) segment (byteLength before) false) =
      some ((parseOn (byteLength before) segment after).map (found ++ ·)) := by
  have hmap (outcome : Except ParseError (List Segment)) :
      outcome.map (found ++ [segment] ++ ·) = (outcome.map (segment :: ·)).map (found ++ ·) := by
    cases outcome with
    | error e => rfl
    | ok segments => simp [Except.map]
  have hiff : (encodeAll after).head? = some (ascii '.') ↔ after.head? = some '.' :=
    head?_encodeAll_eq_ascii (by decide)
  rw [passDot, getElem?_encode hraw]
  by_cases hd : after.head? = some '.'
  · obtain ⟨rest, rfl⟩ := List.head?_eq_some_iff.mp hd
    have hnext : byteLength (before ++ ['.']) = byteLength before + 1 := by
      rw [byteLength_append, byteLength_ascii (by decide)]
    have hlength := length_encode
      (hraw.trans (List.append_cons before '.' rest))
    rw [hnext] at hlength
    rw [if_pos (hiff.mpr hd), parseOn_dot, hlength]
    by_cases hrest : rest = []
    · subst hrest
      have hzero : byteLength [] = 0 := rfl
      rw [hzero, Nat.add_zero, if_pos rfl, parseFrom_nil]
      rfl
    · have hne : byteLength rest ≠ 0 := by
        rw [← length_encodeAll, ne_eq, List.length_eq_zero_iff, Utf8.encodeAll_eq_nil_iff]
        exact hrest
      rw [if_neg (by omega), scanOn, ← hnext, hdot rest rfl hrest, hmap]
  · rw [if_neg (hiff.not.mpr hd), scanOn, hother hd, hmap, parseOn_of_head?_ne hd]

theorem scanStep_name {c : Char} {name after : List Char} {b : UInt8}
    (hname : ∀ d ∈ c :: name, Segment.isNameChar d = true) (ha : EndsName after)
    (hraw : raw.toList = before ++ (c :: name) ++ after)
    (hb : (encode raw)[byteLength before]? = some b) :
    scanStep raw (byteLength before) b afterDot =
      some (passDot (encode raw) (.field (String.ofList (c :: name)))
        (byteLength (before ++ (c :: name))) false) := by
  have hrest := hraw.trans (List.append_assoc before (c :: name) after)
  obtain ⟨lead, more, hbytes⟩ := List.exists_cons_of_ne_nil
    (mt Utf8.encodeAll_eq_nil_iff.mp (List.cons_ne_nil c name))
  have hall := isNameByte_encodeAll hname
  rw [hbytes, List.forall_mem_cons] at hall
  obtain rfl : lead = b := by
    rw [getElem?_encode hrest, Utf8.encodeAll_append, hbytes] at hb
    exact Option.some.inj hb
  obtain ⟨hdot, hopening, hclosing⟩ := of_decide_eq_true hall.1
  have hdrop : (encode raw).drop (byteLength before + 1) = more ++ encodeAll after := by
    rw [← List.drop_drop, drop_encode hrest, Utf8.encodeAll_append, hbytes]
    rfl
  have htake : (more ++ encodeAll after).takeWhile isNameByte = more := by
    rw [List.takeWhile_append_of_pos hall.2]
    cases hafter : encodeAll after with
    | nil => simp
    | cons d rest =>
      have hd := head?_encodeAll_of_endsName ha d (by rw [hafter]; rfl)
      rw [List.takeWhile_cons_of_neg (by simp [hd]), List.append_nil]
  have hstop : byteLength before + 1 + more.length =
      byteLength before + byteLength (c :: name) := by
    rw [← length_encodeAll (c :: name), hbytes, List.length_cons]
    omega
  rw [scanStep, if_neg hopening, if_neg hdot, if_neg hclosing]
  simp only [hdrop, htake, hstop]
  rw [slice?_eq hraw, byteLength_append]
  rfl

/-- Behind an opening bracket the rest of the text is cut off. -/
theorem slice?_rest {rest : List Char} (hraw : raw.toList = before ++ '[' :: rest) :
    slice? raw (byteLength before + 1) (encode raw).length = some (String.ofList rest) := by
  have hcut : raw.toList = (before ++ ['[']) ++ rest ++ [] := by
    rw [hraw, List.append_nil, List.append_cons]
  have hslice := slice?_eq hcut
  rw [List.append_nil] at hcut
  rw [length_encode hcut]
  rwa [byteLength_append, byteLength_ascii (by decide)] at hslice ⊢

theorem findIdx?_closing {inner : List Char} (h : ']' ∉ inner) :
    (encodeAll inner).findIdx? (· = ascii ']') = none := by
  rw [List.findIdx?_eq_none_iff]
  intro b hb
  refine decide_eq_false ?_
  rintro rfl
  exact h ((Utf8.ascii_mem_encodeAll (by decide)).mp hb)

theorem scanStep_unterminated {rest : List Char} (h : ']' ∉ rest)
    (hraw : raw.toList = before ++ '[' :: rest) :
    scanStep raw (byteLength before) (ascii '[') false =
      some (.error (.unterminated (byteLength before))) := by
  have hfind : (encode (String.ofList rest)).findIdx? (· = ascii ']') = none := by
    rw [Utf8.encode_eq, String.toList_ofList, findIdx?_closing h]
  rw [scanStep, if_pos rfl, if_neg Bool.false_ne_true, slice?_rest hraw]
  show (match (encode (String.ofList rest)).findIdx? (· = ascii ']') with
    | none => _ | some n => _) = _
  rw [hfind]

theorem scanStep_bracket {inner after : List Char} (h : ']' ∉ inner)
    (hraw : raw.toList = before ++ '[' :: (inner ++ ']' :: after)) :
    scanStep raw (byteLength before) (ascii '[') false =
      some ((bracketSegment (byteLength before) inner).bind fun segment =>
        passBracket (encode raw) segment (byteLength (before ++ '[' :: (inner ++ [']'])))
          false) := by
  have hfind : (encode (String.ofList (inner ++ ']' :: after))).findIdx? (· = ascii ']') =
      some (byteLength inner) := by
    rw [Utf8.encode_eq, String.toList_ofList, Utf8.encodeAll_append, List.findIdx?_append,
      findIdx?_closing h, Utf8.encodeAll_cons_ascii (by decide), ← length_encodeAll]
    simp [List.findIdx?_cons]
  have hcut : raw.toList = (before ++ ['[']) ++ inner ++ (']' :: after) := by
    rw [hraw]
    simp
  have hslice := slice?_eq hcut
  have hnext : byteLength (before ++ '[' :: (inner ++ [']'])) =
      byteLength before + 1 + byteLength inner + 1 := by
    rw [byteLength_bracket]
    omega
  rw [byteLength_append, byteLength_ascii (by decide)] at hslice
  rw [scanStep, if_pos rfl, if_neg Bool.false_ne_true, slice?_rest hraw, hnext]
  show (match (encode (String.ofList (inner ++ ']' :: after))).findIdx? (· = ascii ']') with
    | none => _ | some n => _) = _
  rw [hfind]
  simp only [hslice]
  show some ((bracketSegment _ (String.ofList inner).toList).bind _) = _
  rw [String.toList_ofList]

theorem passBracket_eq_passDot {segment : Segment} {after : List Char}
    (hraw : raw.toList = before ++ after) (ha : ∀ c ∈ after.head?, c = '.' ∨ c = '[') :
    passBracket (encode raw) segment (byteLength before) afterDot =
      passDot (encode raw) segment (byteLength before) afterDot := by
  rw [passBracket, getElem?_encode hraw]
  cases after with
  | nil =>
    rw [passDot, getElem?_encode hraw, if_neg nofun]
    rfl
  | cons c rest =>
    rcases ha c rfl with rfl | rfl
    · rw [Utf8.encodeAll_cons_ascii (by decide)]
      exact if_pos (.inr rfl)
    · rw [Utf8.encodeAll_cons_ascii (by decide)]
      exact if_pos (.inl rfl)

theorem passBracket_unexpected {segment : Segment} {c : Char} {rest : List Char}
    (hraw : raw.toList = before ++ c :: rest) (hdot : c ≠ '.') (hopening : c ≠ '[') :
    passBracket (encode raw) segment (byteLength before) afterDot =
      .error (.unexpected (leadByte c) (byteLength before)) := by
  obtain ⟨lead, more, he, -, -⟩ := Utf8.utf8EncodeChar_eq_cons c
  have hne {x : Char} (hx : x.toNat < 128) (h : c ≠ x) : lead ≠ ascii x := by
    rintro rfl
    exact h ((Utf8.ascii_mem_utf8EncodeChar hx).mp (he ▸ List.mem_cons_self)).symm
  rw [passBracket, getElem?_encode hraw, Utf8.encodeAll_cons, he, leadByte, he]
  exact if_neg (not_or.mpr ⟨hne (by decide) hopening, hne (by decide) hdot⟩)

theorem scanFrom_ascii {c : Char} {rest : List Char} (hc : c.toNat < 128)
    {outcome : Except ParseError (Segment × Nat × Bool)} (hraw : raw.toList = before ++ c :: rest)
    (hs : scanStep raw (byteLength before) (ascii c) afterDot = some outcome) :
    scanFrom raw (byteLength before) afterDot found = scanOn raw found outcome := by
  refine scanFrom_cons ?_ hs
  rw [getElem?_encode hraw, Utf8.encodeAll_cons_ascii hc]
  rfl

/-- A name is read, where what stands behind it is read. -/
theorem scans_name {name after : List Char} (hne : name ≠ [])
    (hname : ∀ c ∈ name, Segment.isNameChar c = true) (ha : EndsName after)
    (hraw : raw.toList = before ++ name ++ after)
    (hdot : ∀ rest, after = '.' :: rest → rest ≠ [] → Scans raw (before ++ name ++ ['.']) true rest)
    (hother : after.head? ≠ some '.' → Scans raw (before ++ name) false after) :
    Scans raw before afterDot (name ++ after) := by
  intro found
  obtain ⟨c, name, rfl⟩ := List.exists_cons_of_ne_nil hne
  obtain ⟨b, hb⟩ : ∃ b, (encode raw)[byteLength before]? = some b := by
    obtain ⟨lead, more, he, -, -⟩ := Utf8.utf8EncodeChar_eq_cons c
    rw [getElem?_encode (hraw.trans (List.append_assoc _ _ _)), List.cons_append,
      Utf8.encodeAll_cons, he]
    exact ⟨lead, rfl⟩
  rw [scanFrom_cons hb (scanStep_name hname ha hraw hb), scanOn_passDot hraw hdot hother,
    byteLength_append, parseFrom_name hne hname ha]

/-- A bracket is read, where what stands behind it is read. -/
theorem scans_bracket {inner after : List Char} (hi : ']' ∉ inner)
    (hraw : raw.toList = before ++ '[' :: (inner ++ ']' :: after))
    (hdot : ∀ rest, after = '.' :: rest → rest ≠ [] →
      Scans raw (before ++ '[' :: (inner ++ [']']) ++ ['.']) true rest)
    (hother : after.head? ≠ some '.' → Scans raw (before ++ '[' :: (inner ++ [']'])) false after) :
    Scans raw before false ('[' :: (inner ++ ']' :: after)) := by
  intro found
  have hcut : raw.toList = (before ++ '[' :: (inner ++ [']'])) ++ after := by
    rw [hraw]
    simp
  have hnext := byteLength_bracket before inner
  rw [scanFrom_ascii (by decide) hraw (scanStep_bracket hi hraw)]
  by_cases ha : ∀ c ∈ after.head?, c = '.' ∨ c = '['
  · rw [parseFrom_bracket hi ha, ← hnext]
    cases bracketSegment (byteLength before) inner with
    | error e => rfl
    | ok segment =>
      show scanOn raw found (passBracket _ _ _ _) = some ((parseOn _ _ _).map _)
      rw [passBracket_eq_passDot hcut ha, scanOn_passDot hcut hdot hother]
  · obtain ⟨c, hc, hne⟩ := by simpa only [not_forall] using ha
    obtain ⟨rest, rfl⟩ := List.head?_eq_some_iff.mp (Option.mem_def.mp hc)
    rw [not_or] at hne
    rw [parseFrom_bracket_unexpected hi hne.1 hne.2, ← hnext]
    cases bracketSegment (byteLength before) inner with
    | error e => rfl
    | ok segment =>
      show scanOn raw found (passBracket _ _ _ _) = _
      rw [passBracket_unexpected hcut hne.1 hne.2]
      rfl

/-- The loop reads what is left of a text as it is read from its characters. -/
theorem scans {cs : List Char} (hraw : raw.toList = before ++ cs)
    (hd : afterDot = true → cs ≠ []) : Scans raw before afterDot cs := by
  induction hn : cs.length using Nat.strongRecOn generalizing before afterDot cs with
  | _ n ih =>
    -- What stands behind a step is shorter, with or without a dot before it.
    have ihdot {before after : List Char} (hraw : raw.toList = before ++ after)
        (hlt : after.length < n) : ∀ rest, after = '.' :: rest → rest ≠ [] →
          Scans raw (before ++ ['.']) true rest := by
      rintro rest rfl hrest
      rw [List.length_cons] at hlt
      exact ih rest.length (by omega) (hraw.trans (List.append_cons _ _ _)) (fun _ => hrest) rfl
    have ihother {before after : List Char} (hraw : raw.toList = before ++ after)
        (hlt : after.length < n) : after.head? ≠ some '.' → Scans raw before false after :=
      fun _ => ih after.length hlt hraw nofun rfl
    cases shape_of cs with
    | nil =>
      intro found
      cases afterDot with
      | true => exact absurd rfl (hd rfl)
      | false =>
        have hnone : (encode raw)[byteLength before]? = none := getElem?_encode hraw
        rw [scanFrom, parseFrom_nil]
        split
        · simp [Except.map]
        · rename_i h
          rw [hnone] at h
          cases h
    | dot rest =>
      intro found
      rw [scanFrom_ascii (by decide) hraw (by rw [scanStep]; rfl), parseFrom_dot]
      rfl
    | closing rest =>
      intro found
      rw [scanFrom_ascii (by decide) hraw (by rw [scanStep]; rfl), parseFrom_closing]
      rfl
    | @name name after hne hname ha =>
      have hcut := hraw.trans (List.append_assoc before name after).symm
      have hlt : after.length < n := by
        rw [← hn, List.length_append]
        exact Nat.lt_add_of_pos_left (List.length_pos_iff.mpr hne)
      exact scans_name hne hname ha hcut (ihdot hcut hlt) (ihother hcut hlt)
    | @unterminated rest hr =>
      intro found
      cases afterDot with
      | true =>
        rw [scanFrom_ascii (by decide) hraw (by rw [scanStep]; rfl), parseFrom_opening_afterDot]
        rfl
      | false =>
        rw [scanFrom_ascii (by decide) hraw (scanStep_unterminated hr hraw),
          parseFrom_unterminated hr]
        rfl
    | @bracket inner after hi =>
      cases afterDot with
      | true =>
        intro found
        rw [scanFrom_ascii (by decide) hraw (by rw [scanStep]; rfl), parseFrom_opening_afterDot]
        rfl
      | false =>
        have hcut : raw.toList = (before ++ '[' :: (inner ++ [']'])) ++ after := by
          rw [hraw]
          simp
        have hlt : after.length < n := by
          rw [← hn, List.length_cons, List.length_append, List.length_cons]
          omega
        exact scans_bracket hi hraw (ihdot hcut hlt) (ihother hcut hlt)

end Run

/-- The loop over the bytes of a text always ends, cuts the text between characters only, and gives
what reading gives. -/
theorem scan_eq (raw : String) : scan raw = some (parse raw) := by
  unfold scan parse
  by_cases h : raw = ""
  · subst h
    rfl
  · have hne : encode raw ≠ [] :=
      fun he => h (String.toList_eq_nil_iff.mp (Utf8.encodeAll_eq_nil_iff.mp he))
    have hscan : scanFrom raw 0 false [] = some ((parseFrom 0 false raw.toList).map ([] ++ ·)) :=
      scans (List.nil_append raw.toList).symm Bool.noConfusion []
    rw [if_neg hne, if_neg (by simpa using h), hscan]
    cases parseFrom 0 false raw.toList with
    | error e => rfl
    | ok segments => rfl

/-- A text is read exactly if its bytes have a derivation, and then as the segments that the
derivation stands for. No bytes have two derivations, and the loop that scans the bytes ends with
the same outcome on every text, without cutting inside a character. -/
theorem parse_iff_derivation (raw : String) :
    (∀ segments, parse raw = .ok ⟨segments⟩ ↔
      ∃ d : Derivation, d.Legal ∧ d.bytes = encode raw ∧ d.Denotes segments) ∧
    (∀ d : Derivation, d.Legal → d.bytes = encode raw → ∃ segments, d.Denotes segments) ∧
    (∀ d d' : Derivation, d.Legal → d'.Legal → d.bytes = d'.bytes → d = d') ∧
    scan raw = some (parse raw) := by
  refine ⟨fun segments => ⟨exists_derivation, fun ⟨d, hl, hb, hd⟩ => ?_⟩, fun d hl hb => ?_,
    fun d d' hl hl' hb => Derivation.bytes_inj hl hl' hb, scan_eq raw⟩
  · obtain ⟨segments', hd', hp⟩ := parse_of_derivation hl hb
    rw [Part.Denotes.all_unique hd hd', hp]
  · obtain ⟨segments, hd, -⟩ := parse_of_derivation hl hb
    exact ⟨segments, hd⟩

/-- A bracket may hold dots and opening brackets, and leading zeros do not count. -/
def sampleDerivation : Derivation :=
  ⟨.field (encode "größe"),
    [.bracket (encode "a.[b"), .field (encode "x"), .bracket (encode "007")]⟩

theorem parse_sampleDerivation :
    sampleDerivation.Legal ∧ sampleDerivation.bytes = encode "größe[a.[b].x[007]" ∧
    parse "größe[a.[b].x[007]" = .ok ⟨[.field "größe", .key "a.[b", .field "x", .index 7]⟩ := by
  have hl : sampleDerivation.Legal := by decide +kernel
  have hb : sampleDerivation.bytes = encode "größe[a.[b].x[007]" := by decide +kernel
  have hd : sampleDerivation.Denotes [.field "größe", .key "a.[b", .field "x", .index 7] :=
    .cons (.field "größe") (.cons (.key "a.[b" (by decide +kernel)) (.cons (.field "x")
      (.cons (.index (by decide +kernel)) .nil)))
  obtain ⟨hiff, -, -, -⟩ := parse_iff_derivation "größe[a.[b].x[007]"
  exact ⟨hl, hb, (hiff _).mpr ⟨sampleDerivation, hl, hb, hd⟩⟩

end CompositionGen.FieldPath
