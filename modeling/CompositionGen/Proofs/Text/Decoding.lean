import CompositionGen.Proofs.Outcome
import CompositionGen.Proofs.Text.Encoding
import CompositionGen.Text.Lines

/-!
# Reading encoded text

The bytes of a text are read as that text, one character after another, and what is read as a text
is its bytes. A stream that holds the bytes of lines, each with what ends it, is read as those
lines.
-/

namespace CompositionGen

namespace Utf8

variable {lead b : UInt8} {rest bytes : List UInt8} {cs : List Char} {i : Nat}

theorem width?_eq (b : UInt8) : width? b =
    if b.toNat < 128 then some 1
    else if 194 ≤ b.toNat ∧ b.toNat ≤ 223 then some 2
    else if 224 ≤ b.toNat ∧ b.toNat ≤ 239 then some 3
    else if 240 ≤ b.toNat ∧ b.toNat ≤ 244 then some 4
    else none := by
  simp [width?, UInt8.lt_iff_toNat_lt, UInt8.le_iff_toNat_le]

/-- Which bytes may follow a leading one. -/
theorem secondAllowed_eq_true (hlow : 128 ≤ b.toNat) (hhigh : b.toNat ≤ 191)
    (h3 : lead.toNat = 224 → 160 ≤ b.toNat) (hsurrogate : lead.toNat = 237 → b.toNat ≤ 159)
    (h4 : lead.toNat = 240 → 144 ≤ b.toNat) (htop : lead.toNat = 244 → b.toNat ≤ 143) :
    secondAllowed lead b = true := by
  have hcontinues := isContinuation_iff.mpr ⟨hlow, hhigh⟩
  unfold secondAllowed
  split
  · next h => simp [UInt8.le_iff_toNat_le, h3 (by rw [h]; rfl), hhigh]
  split
  · next h => simp [UInt8.le_iff_toNat_le, hsurrogate (by rw [h]; rfl), hlow]
  split
  · next h => simp [UInt8.le_iff_toNat_le, h4 (by rw [h]; rfl), hhigh]
  split
  · next h => simp [UInt8.le_iff_toNat_le, htop (by rw [h]; rfl), hlow]
  · exact hcontinues

/-! ## Reading one character -/

theorem decodeFrom_lead {n : Nat} (h : width? lead = some (n + 2)) :
    decodeFrom i none (lead :: rest) =
      decodeFrom i (some ⟨lead, 1, n + 1, lead.toNat % Nat.pow 2 (5 - n)⟩) rest := by
  rw [decodeFrom, h]
  have : 7 - (n + 2) = 5 - n := by omega
  simp [this]

theorem decodeFrom_next {seen missing value : Nat}
    (h : (if seen = 1 then secondAllowed lead b else isContinuation b) = true) :
    decodeFrom i (some ⟨lead, seen, missing + 2, value⟩) (b :: rest) =
      decodeFrom i (some ⟨lead, seen + 1, missing + 1, value * 64 + b.toNat % 64⟩) rest := by
  rw [decodeFrom]
  simp [Pending.allows, h]

theorem decodeFrom_last {seen value : Nat}
    (h : (if seen = 1 then secondAllowed lead b else isContinuation b) = true) :
    decodeFrom i (some ⟨lead, seen, 1, value⟩) (b :: rest) =
      (decodeFrom (i + seen + 1) none rest).map (Char.ofNat (value * 64 + b.toNat % 64) :: ·) := by
  rw [decodeFrom]
  simp [Pending.allows, h]
  cases decodeFrom (i + seen + 1) none rest <;> rfl

theorem decodeFrom_one {v : Nat} (h : v ≤ 127) :
    decodeFrom i none (UInt8.ofNat v :: rest) =
      (decodeFrom (i + 1) none rest).map (Char.ofNat v :: ·) := by
  have hlead : (UInt8.ofNat v).toNat = v := UInt8.toNat_ofNat_of_lt' (show v < 256 by omega)
  have hwidth : width? (UInt8.ofNat v) = some 1 := by
    rw [width?_eq, if_pos (by omega)]
  rw [decodeFrom, hwidth]
  simp only [hlead]
  cases decodeFrom (i + 1) none rest <;> rfl

theorem toNat_continuation (n : Nat) : (UInt8.ofNat (n % 64 + 128)).toNat = n % 64 + 128 :=
  UInt8.toNat_ofNat_of_lt' (show n % 64 + 128 < 256 by omega)

theorem decodeFrom_two {v : Nat} (hlow : 128 ≤ v) (hhigh : v ≤ 2047) :
    decodeFrom i none (UInt8.ofNat (v / 64 % 32 + 192) :: UInt8.ofNat (v % 64 + 128) :: rest) =
      (decodeFrom (i + 2) none rest).map (Char.ofNat v :: ·) := by
  have hlead : (UInt8.ofNat (v / 64 % 32 + 192)).toNat = v / 64 % 32 + 192 :=
    UInt8.toNat_ofNat_of_lt' (show v / 64 % 32 + 192 < 256 by omega)
  have hlast := toNat_continuation v
  have hwidth : width? (UInt8.ofNat (v / 64 % 32 + 192)) = some (0 + 2) := by
    rw [width?_eq, if_neg (by omega), if_pos (by omega)]
  have hvalue : (v / 64 % 32 + 192) % Nat.pow 2 5 * 64 + (v % 64 + 128) % 64 = v := by
    show (v / 64 % 32 + 192) % 32 * 64 + (v % 64 + 128) % 64 = v
    omega
  have hsecond : secondAllowed (UInt8.ofNat (v / 64 % 32 + 192)) (UInt8.ofNat (v % 64 + 128)) =
      true :=
    secondAllowed_eq_true (by omega) (by omega) (by omega) (by omega) (by omega) (by omega)
  rw [decodeFrom_lead hwidth, decodeFrom_last, hlead, hlast, hvalue]
  exact hsecond

theorem decodeFrom_three {v : Nat} (hlow : 2048 ≤ v) (hhigh : v ≤ 65535)
    (hvalid : v < 55296 ∨ 57343 < v) :
    decodeFrom i none (UInt8.ofNat (v / 4096 % 16 + 224) :: UInt8.ofNat (v / 64 % 64 + 128) ::
        UInt8.ofNat (v % 64 + 128) :: rest) =
      (decodeFrom (i + 3) none rest).map (Char.ofNat v :: ·) := by
  have hlead : (UInt8.ofNat (v / 4096 % 16 + 224)).toNat = v / 4096 % 16 + 224 :=
    UInt8.toNat_ofNat_of_lt' (show v / 4096 % 16 + 224 < 256 by omega)
  have hmiddle := toNat_continuation (v / 64)
  have hlast := toNat_continuation v
  have hwidth : width? (UInt8.ofNat (v / 4096 % 16 + 224)) = some (1 + 2) := by
    rw [width?_eq, if_neg (by omega), if_neg (by omega), if_pos (by omega)]
  have hvalue : ((v / 4096 % 16 + 224) % Nat.pow 2 4 * 64 + (v / 64 % 64 + 128) % 64) * 64 +
      (v % 64 + 128) % 64 = v := by
    show ((v / 4096 % 16 + 224) % 16 * 64 + (v / 64 % 64 + 128) % 64) * 64 + (v % 64 + 128) % 64 = v
    omega
  have hsecond : secondAllowed (UInt8.ofNat (v / 4096 % 16 + 224))
      (UInt8.ofNat (v / 64 % 64 + 128)) = true :=
    secondAllowed_eq_true (by omega) (by omega) (by omega) (by omega) (by omega) (by omega)
  rw [decodeFrom_lead hwidth, decodeFrom_next, decodeFrom_last, hlead, hmiddle, hlast, hvalue]
  · exact isContinuation_ofNat v
  · exact hsecond

theorem decodeFrom_four {v : Nat} (hlow : 65536 ≤ v) (hhigh : v < 1114112) :
    decodeFrom i none (UInt8.ofNat (v / 262144 % 8 + 240) :: UInt8.ofNat (v / 4096 % 64 + 128) ::
        UInt8.ofNat (v / 64 % 64 + 128) :: UInt8.ofNat (v % 64 + 128) :: rest) =
      (decodeFrom (i + 4) none rest).map (Char.ofNat v :: ·) := by
  have hlead : (UInt8.ofNat (v / 262144 % 8 + 240)).toNat = v / 262144 % 8 + 240 :=
    UInt8.toNat_ofNat_of_lt' (show v / 262144 % 8 + 240 < 256 by omega)
  have hmiddle := toNat_continuation (v / 4096)
  have hmiddle' := toNat_continuation (v / 64)
  have hlast := toNat_continuation v
  have hwidth : width? (UInt8.ofNat (v / 262144 % 8 + 240)) = some (2 + 2) := by
    rw [width?_eq, if_neg (by omega), if_neg (by omega), if_neg (by omega), if_pos (by omega)]
  have hvalue : (((v / 262144 % 8 + 240) % Nat.pow 2 3 * 64 + (v / 4096 % 64 + 128) % 64) * 64 +
      (v / 64 % 64 + 128) % 64) * 64 + (v % 64 + 128) % 64 = v := by
    show (((v / 262144 % 8 + 240) % 8 * 64 + (v / 4096 % 64 + 128) % 64) * 64 +
      (v / 64 % 64 + 128) % 64) * 64 + (v % 64 + 128) % 64 = v
    omega
  have hsecond : secondAllowed (UInt8.ofNat (v / 262144 % 8 + 240))
      (UInt8.ofNat (v / 4096 % 64 + 128)) = true :=
    secondAllowed_eq_true (by omega) (by omega) (by omega) (by omega) (by omega) (by omega)
  rw [decodeFrom_lead hwidth, decodeFrom_next, decodeFrom_next, decodeFrom_last, hlead, hmiddle,
    hmiddle', hlast, hvalue]
  · exact isContinuation_ofNat v
  · exact isContinuation_ofNat (v / 64)
  · exact hsecond

/-- The bytes of a character are read as that character. -/
theorem decodeFrom_utf8EncodeChar (c : Char) (i : Nat) (rest : List UInt8) : ∃ j,
    decodeFrom i none (String.utf8EncodeChar c ++ rest) =
      (decodeFrom j none rest).map (c :: ·) := by
  have hvalid : c.toNat < 55296 ∨ 57343 < c.toNat ∧ c.toNat < 1114112 := c.valid
  have hval : c.val.toNat = c.toNat := rfl
  have hc : Char.ofNat c.toNat = c := Char.ofNat_toNat c
  unfold String.utf8EncodeChar
  simp only [hval]
  -- A shorter form is taken wherever there is one, so the reader finds no overlong form.
  split
  · exact ⟨_, hc ▸ decodeFrom_one (by omega)⟩
  split
  · exact ⟨_, hc ▸ decodeFrom_two (by omega) (by omega)⟩
  split
  · exact ⟨_, hc ▸ decodeFrom_three (by omega) (by omega) (by omega)⟩
  · exact ⟨_, hc ▸ decodeFrom_four (by omega) (by omega)⟩

theorem decodeFrom_encodeAll (cs : List Char) (i : Nat) (rest : List UInt8) : ∃ j,
    decodeFrom i none (encodeAll cs ++ rest) = (decodeFrom j none rest).map (cs ++ ·) := by
  induction cs generalizing i with
  | nil =>
    refine ⟨i, ?_⟩
    show decodeFrom i none rest = (decodeFrom i none rest).map id
    cases decodeFrom i none rest <;> rfl
  | cons c cs ih =>
    obtain ⟨j, hj⟩ := decodeFrom_utf8EncodeChar c i (encodeAll cs ++ rest)
    obtain ⟨k, hk⟩ := ih j
    refine ⟨k, ?_⟩
    rw [encodeAll_cons, List.append_assoc, hj, hk]
    cases decodeFrom k none rest <;> rfl

theorem decodeFrom_encodeAll_self (cs : List Char) (i : Nat) :
    decodeFrom i none (encodeAll cs) = .ok cs := by
  obtain ⟨j, hj⟩ := decodeFrom_encodeAll cs i []
  rw [List.append_nil] at hj
  rw [hj]
  exact congrArg Except.ok (List.append_nil cs)

theorem decode_encode (text : String) : decode (encode text) = .ok text := by
  rw [decode, encode_eq, decodeFrom_encodeAll_self]
  exact congrArg Except.ok String.ofList_toList

/-- A text whose bytes begin with those of another begins with the other. -/
theorem exists_append_of_encodeAll {cs before : List Char}
    (h : encodeAll cs = encodeAll before ++ rest) :
    ∃ after, cs = before ++ after ∧ encodeAll after = rest := by
  obtain ⟨j, hj⟩ := decodeFrom_encodeAll before 0 rest
  rw [← h, decodeFrom_encodeAll_self] at hj
  obtain ⟨after, -, rfl⟩ := Outcome.map_ok_iff.mp hj.symm
  rw [encodeAll_append] at h
  exact ⟨after, rfl, List.append_cancel_left h⟩

/-! ## What is read -/

theorem of_secondAllowed (h : secondAllowed lead b = true) :
    128 ≤ b.toNat ∧ b.toNat ≤ 191 ∧ (lead.toNat = 224 → 160 ≤ b.toNat) ∧
      (lead.toNat = 237 → b.toNat ≤ 159) ∧ (lead.toNat = 240 → 144 ≤ b.toNat) ∧
      (lead.toNat = 244 → b.toNat ≤ 143) := by
  have hlead (n : UInt8) : lead = n ↔ lead.toNat = n.toNat := UInt8.toNat_inj.symm
  simp [secondAllowed, isContinuation, hlead, UInt8.le_iff_toNat_le] at h
  split at h
  · omega
  split at h
  · omega
  split at h
  · omega
  split at h
  · omega
  · omega

theorem of_decodeFrom_next {seen missing value : Nat}
    (h : decodeFrom i (some ⟨lead, seen, missing + 2, value⟩) bytes = .ok cs) :
    ∃ b rest, bytes = b :: rest ∧
      (if seen = 1 then secondAllowed lead b else isContinuation b) = true ∧
      decodeFrom i (some ⟨lead, seen + 1, missing + 1, value * 64 + b.toNat % 64⟩) rest =
        .ok cs := by
  cases bytes with
  | nil => cases h
  | cons b rest =>
    by_cases hallowed : (if seen = 1 then secondAllowed lead b else isContinuation b) = true
    · rw [decodeFrom_next hallowed] at h
      exact ⟨b, rest, rfl, hallowed, h⟩
    · simp [decodeFrom, Pending.allows, hallowed] at h

theorem of_decodeFrom_last {seen value : Nat}
    (h : decodeFrom i (some ⟨lead, seen, 1, value⟩) bytes = .ok cs) :
    ∃ b rest j tail, bytes = b :: rest ∧
      (if seen = 1 then secondAllowed lead b else isContinuation b) = true ∧
      decodeFrom j none rest = .ok tail ∧ cs = Char.ofNat (value * 64 + b.toNat % 64) :: tail := by
  cases bytes with
  | nil => cases h
  | cons b rest =>
    by_cases hallowed : (if seen = 1 then secondAllowed lead b else isContinuation b) = true
    · rw [decodeFrom_last hallowed] at h
      obtain ⟨tail, htail, rfl⟩ := Outcome.map_ok_iff.mp h
      exact ⟨b, rest, _, tail, rfl, hallowed, htail, rfl⟩
    · simp [decodeFrom, Pending.allows, hallowed] at h

/-- The bytes of a character of a valid number. -/
theorem utf8EncodeChar_ofNat {v : Nat} (h : v.isValidChar) : String.utf8EncodeChar (Char.ofNat v) =
    if v ≤ 127 then [UInt8.ofNat v]
    else if v ≤ 2047 then [UInt8.ofNat (v / 64 % 32 + 192), UInt8.ofNat (v % 64 + 128)]
    else if v ≤ 65535 then [UInt8.ofNat (v / 4096 % 16 + 224), UInt8.ofNat (v / 64 % 64 + 128),
      UInt8.ofNat (v % 64 + 128)]
    else [UInt8.ofNat (v / 262144 % 8 + 240), UInt8.ofNat (v / 4096 % 64 + 128),
      UInt8.ofNat (v / 64 % 64 + 128), UInt8.ofNat (v % 64 + 128)] := by
  have hv : (Char.ofNat v).val.toNat = v := by
    show (Char.ofNat v).toNat = v
    rw [Char.ofNat, dif_pos h]
    rfl
  simp only [String.utf8EncodeChar, hv]

theorem ofNat_eq_of_toNat {n : Nat} (h : b.toNat = n) : UInt8.ofNat n = b := by
  rw [← h]
  exact UInt8.ofNat_toNat


/-- What is read first is a character with its bytes. -/
def ReadsFirst (bytes : List UInt8) (cs : List Char) : Prop :=
  ∃ c tail rest j, cs = c :: tail ∧ bytes = String.utf8EncodeChar c ++ rest ∧
    decodeFrom j none rest = .ok tail

theorem readsFirst_one (hlead : lead.toNat < 128)
    (h : decodeFrom i none (lead :: bytes) = .ok cs) : ReadsFirst (lead :: bytes) cs := by
  have hone : decodeFrom i none (UInt8.ofNat lead.toNat :: bytes) =
      (decodeFrom (i + 1) none bytes).map (Char.ofNat lead.toNat :: ·) := decodeFrom_one (by omega)
  rw [UInt8.ofNat_toNat] at hone
  rw [hone] at h
  obtain ⟨tail, htail, rfl⟩ := Outcome.map_ok_iff.mp h
  refine ⟨_, tail, bytes, _, rfl, ?_, htail⟩
  rw [utf8EncodeChar_ofNat (.inl (by omega)), if_pos (by omega), UInt8.ofNat_toNat]
  rfl

theorem readsFirst_two (hlead : 194 ≤ lead.toNat ∧ lead.toNat ≤ 223)
    (h : decodeFrom i none (lead :: bytes) = .ok cs) : ReadsFirst (lead :: bytes) cs := by
  have hwidth : width? lead = some (0 + 2) := by
    rw [width?_eq, if_neg (by omega), if_pos hlead]
  rw [decodeFrom_lead hwidth] at h
  obtain ⟨b, rest, j, tail, rfl, hb, htail, rfl⟩ := of_decodeFrom_last h
  obtain ⟨hlow, hhigh, -⟩ := of_secondAllowed hb
  refine ⟨_, tail, rest, j, rfl, ?_, htail⟩
  have hvalue : lead.toNat % Nat.pow 2 5 * 64 + b.toNat % 64 =
      (lead.toNat - 192) * 64 + (b.toNat - 128) := by
    show lead.toNat % 32 * 64 + b.toNat % 64 = _
    omega
  rw [hvalue, utf8EncodeChar_ofNat (.inl (by omega)), if_neg (by omega), if_pos (by omega),
    ofNat_eq_of_toNat (b := lead) (by omega), ofNat_eq_of_toNat (b := b) (by omega)]
  rfl

theorem readsFirst_three (hlead : 224 ≤ lead.toNat ∧ lead.toNat ≤ 239)
    (h : decodeFrom i none (lead :: bytes) = .ok cs) : ReadsFirst (lead :: bytes) cs := by
  have hwidth : width? lead = some (1 + 2) := by
    rw [width?_eq, if_neg (by omega), if_neg (by omega), if_pos hlead]
  rw [decodeFrom_lead hwidth] at h
  obtain ⟨b, _, rfl, hb, h⟩ := of_decodeFrom_next h
  obtain ⟨b', rest, j, tail, rfl, hb', htail, rfl⟩ := of_decodeFrom_last h
  obtain ⟨hlow, hhigh, hshort, hsurrogate, -⟩ := of_secondAllowed hb
  obtain ⟨hlow', hhigh'⟩ := isContinuation_iff.mp hb'
  refine ⟨_, tail, rest, j, rfl, ?_, htail⟩
  have hvalue : (lead.toNat % Nat.pow 2 4 * 64 + b.toNat % 64) * 64 + b'.toNat % 64 =
      (lead.toNat - 224) * 4096 + (b.toNat - 128) * 64 + (b'.toNat - 128) := by
    show (lead.toNat % 16 * 64 + b.toNat % 64) * 64 + b'.toNat % 64 = _
    omega
  have hvalid : ((lead.toNat - 224) * 4096 + (b.toNat - 128) * 64 +
      (b'.toNat - 128)).isValidChar := by
    unfold Nat.isValidChar
    omega
  rw [hvalue, utf8EncodeChar_ofNat hvalid, if_neg (by omega), if_neg (by omega),
    if_pos (by omega), ofNat_eq_of_toNat (b := lead) (by omega),
    ofNat_eq_of_toNat (b := b) (by omega), ofNat_eq_of_toNat (b := b') (by omega)]
  rfl

theorem readsFirst_four (hlead : 240 ≤ lead.toNat ∧ lead.toNat ≤ 244)
    (h : decodeFrom i none (lead :: bytes) = .ok cs) : ReadsFirst (lead :: bytes) cs := by
  have hwidth : width? lead = some (2 + 2) := by
    rw [width?_eq, if_neg (by omega), if_neg (by omega), if_neg (by omega), if_pos hlead]
  rw [decodeFrom_lead hwidth] at h
  obtain ⟨b, _, rfl, hb, h⟩ := of_decodeFrom_next h
  obtain ⟨b', _, rfl, hb', h⟩ := of_decodeFrom_next h
  obtain ⟨b'', rest, j, tail, rfl, hb'', htail, rfl⟩ := of_decodeFrom_last h
  obtain ⟨hlow, hhigh, -, -, hshort, htop⟩ := of_secondAllowed hb
  obtain ⟨hlow', hhigh'⟩ := isContinuation_iff.mp hb'
  obtain ⟨hlow'', hhigh''⟩ := isContinuation_iff.mp hb''
  refine ⟨_, tail, rest, j, rfl, ?_, htail⟩
  have hvalue : ((lead.toNat % Nat.pow 2 3 * 64 + b.toNat % 64) * 64 + b'.toNat % 64) * 64 +
      b''.toNat % 64 = (lead.toNat - 240) * 262144 + (b.toNat - 128) * 4096 +
        (b'.toNat - 128) * 64 + (b''.toNat - 128) := by
    show ((lead.toNat % 8 * 64 + b.toNat % 64) * 64 + b'.toNat % 64) * 64 + b''.toNat % 64 = _
    omega
  have hvalid : ((lead.toNat - 240) * 262144 + (b.toNat - 128) * 4096 + (b'.toNat - 128) * 64 +
      (b''.toNat - 128)).isValidChar := by
    unfold Nat.isValidChar
    omega
  rw [hvalue, utf8EncodeChar_ofNat hvalid, if_neg (by omega), if_neg (by omega),
    if_neg (by omega), ofNat_eq_of_toNat (b := lead) (by omega),
    ofNat_eq_of_toNat (b := b) (by omega), ofNat_eq_of_toNat (b := b') (by omega),
    ofNat_eq_of_toNat (b := b'') (by omega)]
  rfl

theorem readsFirst_of_decodeFrom (h : decodeFrom i none (lead :: bytes) = .ok cs) :
    ReadsFirst (lead :: bytes) cs := by
  by_cases h1 : lead.toNat < 128
  · exact readsFirst_one h1 h
  by_cases h2 : 194 ≤ lead.toNat ∧ lead.toNat ≤ 223
  · exact readsFirst_two h2 h
  by_cases h3 : 224 ≤ lead.toNat ∧ lead.toNat ≤ 239
  · exact readsFirst_three h3 h
  by_cases h4 : 240 ≤ lead.toNat ∧ lead.toNat ≤ 244
  · exact readsFirst_four h4 h
  · have hwidth : width? lead = none := by
      rw [width?_eq, if_neg h1, if_neg h2, if_neg h3, if_neg h4]
    rw [decodeFrom, hwidth] at h
    cases h

theorem encodeAll_of_decodeFrom (h : decodeFrom i none bytes = .ok cs) : encodeAll cs = bytes := by
  induction cs generalizing i bytes with
  | nil =>
    cases bytes with
    | nil => rfl
    | cons lead bytes =>
      obtain ⟨c, tail, rest, j, hcs, -⟩ := readsFirst_of_decodeFrom h
      cases hcs
  | cons c cs ih =>
    cases bytes with
    | nil => cases h
    | cons lead bytes =>
      obtain ⟨c, tail, rest, j, hcs, hbytes, htail⟩ := readsFirst_of_decodeFrom h
      cases hcs
      rw [encodeAll_cons, ih htail, hbytes]

/-- Bytes are read as a text if they are its bytes, and refused if they are those of no text. -/
theorem decode?_eq_some_iff {text : String} : decode? bytes = some text ↔ bytes = encode text := by
  rw [decode?, Outcome.toOption_eq_some_iff]
  constructor
  · intro h
    rw [decode, Outcome.map_ok_iff] at h
    obtain ⟨cs, hcs, rfl⟩ := h
    rw [encode_eq, String.toList_ofList, encodeAll_of_decodeFrom hcs]
  · rintro rfl
    exact decode_encode text

end Utf8

/-! ## Lines -/

namespace Flow

/-- What a stream of lines holds. A line ends at a line feed, or at a carriage return and a line
feed; the stream may end instead of the last line. -/
inductive Shows : List String → List UInt8 → Prop
  | nil : Shows [] []
  | last {line : String} : line ≠ "" → '\n' ∉ line.toList → Shows [line] (Utf8.encode line)
  | lineFeed {line : String} {lines : List String} {bytes : List UInt8} :
    '\n' ∉ line.toList → line.toList.getLast? ≠ some '\r' → Shows lines bytes →
    Shows (line :: lines) (Utf8.encode (line ++ "\n") ++ bytes)
  | carriageReturn {line : String} {lines : List String} {bytes : List UInt8} :
    '\n' ∉ line.toList → Shows lines bytes →
    Shows (line :: lines) (Utf8.encode (line ++ "\r\n") ++ bytes)

variable {chunk bytes : List UInt8} {line : String} {lines : List String}

theorem lineFeed_mem_encode {text : String} :
    lineFeed ∈ Utf8.encode text ↔ '\n' ∈ text.toList := by
  have hbyte : lineFeed = Utf8.ascii '\n' := by decide
  rw [hbyte, Utf8.encode_eq, Utf8.ascii_mem_encodeAll (by decide)]

theorem encode_append_lineFeed (text : String) :
    Utf8.encode (text ++ "\n") = Utf8.encode text ++ [lineFeed] := by
  have hend : Utf8.encodeAll "\n".toList = [lineFeed] := by decide
  rw [Utf8.encode_eq, String.toList_append, Utf8.encodeAll_append, hend, Utf8.encode_eq]

theorem append_carriageReturn (line : String) : line ++ "\r\n" = line ++ "\r" ++ "\n" := by
  rw [String.append_assoc]
  rfl

theorem cut_of_not_mem (h : lineFeed ∉ chunk) : cut chunk = ([], chunk) := by
  induction chunk with
  | nil => rfl
  | cons b chunk ih =>
    rw [List.mem_cons, not_or] at h
    simp [cut, ih h.2, Ne.symm h.1]

theorem cut_append (h : lineFeed ∉ chunk) (bytes : List UInt8) :
    cut (chunk ++ lineFeed :: bytes) = ((chunk ++ [lineFeed]) :: (cut bytes).1, (cut bytes).2) := by
  induction chunk with
  | nil => simp [cut]
  | cons b chunk ih =>
    rw [List.mem_cons, not_or] at h
    simp [cut, ih h.2, Ne.symm h.1]

theorem rawLines_append (h : lineFeed ∉ chunk) (bytes : List UInt8) :
    rawLines ⟨chunk ++ lineFeed :: bytes, true⟩ =
      (chunk ++ [lineFeed]) :: rawLines ⟨bytes, true⟩ := by
  simp only [rawLines, cut_append h]
  split <;> rfl

theorem withoutEnd_lineFeed {text : List Char} (h : text.getLast? ≠ some '\r') :
    withoutEnd (text ++ ['\n']) = text := by
  rw [List.getLast?_eq_head?_reverse] at h
  rw [withoutEnd, List.reverse_append, List.reverse_singleton, List.singleton_append]
  split
  · next kept heq =>
    have hrest := (List.cons.inj heq).2
    rw [hrest] at h
    exact absurd rfl h
  · next kept _ heq =>
    rw [← (List.cons.inj heq).2, List.reverse_reverse]
  · next hother => exact absurd rfl (hother _)

theorem withoutEnd_carriageReturn (text : List Char) :
    withoutEnd (text ++ ['\r', '\n']) = text := by
  simp [withoutEnd]

theorem withoutEnd_of_not_mem {text : List Char} (h : '\n' ∉ text) : withoutEnd text = text := by
  rw [← List.mem_reverse] at h
  unfold withoutEnd
  split
  · next heq => exact absurd (heq ▸ List.mem_cons_self) h
  · next heq => exact absurd (heq ▸ List.mem_cons_self) h
  · rfl

/-- A line whose bytes end at a line feed is read first. -/
theorem read_ended {ended : String} (hended : Utf8.encode ended = chunk ++ [lineFeed])
    (hchunk : lineFeed ∉ chunk) (bytes : List UInt8) :
    read ⟨Utf8.encode ended ++ bytes, true⟩ =
      { read ⟨bytes, true⟩ with
        lines := String.ofList (withoutEnd ended.toList) :: (read ⟨bytes, true⟩).lines } := by
  rw [hended, List.append_assoc, List.singleton_append, read, rawLines_append hchunk, ← hended,
    readLines, Utf8.decode_encode]
  rfl

/-- A stream is read as the lines that it shows. -/
theorem read_of_shows (h : Shows lines bytes) : read ⟨bytes, true⟩ = { lines } := by
  induction h with
  | nil => rfl
  | @last line hne hline =>
    have hchunk : lineFeed ∉ Utf8.encode line := mt lineFeed_mem_encode.mp hline
    have hne' : Utf8.encode line ≠ [] := fun h =>
      hne (String.toList_inj.mp (Utf8.encodeAll_eq_nil_iff.mp h))
    have hraw : rawLines ⟨Utf8.encode line, true⟩ = [Utf8.encode line] := by
      simp [rawLines, cut_of_not_mem hchunk, hne']
    rw [read, hraw, readLines, Utf8.decode_encode]
    simp [withoutEnd_of_not_mem hline, readLines]
  | @lineFeed line lines bytes hline hlast _ ih =>
    have hchunk : lineFeed ∉ Utf8.encode line := mt lineFeed_mem_encode.mp hline
    rw [read_ended (encode_append_lineFeed line) hchunk, ih]
    simp [withoutEnd_lineFeed hlast]
  | @carriageReturn line lines bytes hline _ ih =>
    have hline' : '\n' ∉ (line ++ "\r").toList := by simpa using hline
    have hchunk : lineFeed ∉ Utf8.encode (line ++ "\r") := mt lineFeed_mem_encode.mp hline'
    rw [append_carriageReturn, read_ended (encode_append_lineFeed (line ++ "\r")) hchunk, ih]
    simp [withoutEnd_carriageReturn]

/-! ## Streams that break off -/

/-- What a stream holds that breaks off: some lines, each with what ends it, and then one that is
not UTF-8. Nothing is said about what comes later. -/
inductive BreaksOff : List String → List UInt8 → Prop
  | last {chunk : List UInt8} : Flow.lineFeed ∉ chunk → Utf8.decode? chunk = none →
    BreaksOff [] chunk
  | ended {chunk later : List UInt8} : Flow.lineFeed ∉ chunk → Utf8.decode? chunk = none →
    BreaksOff [] (chunk ++ Flow.lineFeed :: later)
  | lineFeed {line : String} {lines : List String} {bytes : List UInt8} :
    '\n' ∉ line.toList → line.toList.getLast? ≠ some '\r' → BreaksOff lines bytes →
    BreaksOff (line :: lines) (Utf8.encode (line ++ "\n") ++ bytes)
  | carriageReturn {line : String} {lines : List String} {bytes : List UInt8} :
    '\n' ∉ line.toList → BreaksOff lines bytes →
    BreaksOff (line :: lines) (Utf8.encode (line ++ "\r\n") ++ bytes)

/-- A line feed stands for itself, so that bytes are UTF-8 if they are so before and after it. -/
theorem isSome_decode?_append_iff : (Utf8.decode? (chunk ++ lineFeed :: bytes)).isSome = true ↔
    (Utf8.decode? chunk).isSome = true ∧ (Utf8.decode? bytes).isSome = true := by
  have hbyte : lineFeed = Utf8.ascii '\n' := by decide
  simp only [Option.isSome_iff_exists, Utf8.decode?_eq_some_iff]
  constructor
  · rintro ⟨text, htext⟩
    obtain ⟨before, after, -, hbefore, hafter⟩ := Utf8.encodeAll_eq_append htext.symm
      (.inr ⟨'\n', bytes, by decide, by rw [hbyte]⟩)
    rw [hbyte] at hafter
    obtain ⟨rest, -, hrest⟩ := Utf8.encodeAll_eq_cons_ascii (by decide) hafter
    exact ⟨⟨String.ofList before, by rw [Utf8.encode_eq, String.toList_ofList, hbefore]⟩,
      String.ofList rest, by rw [Utf8.encode_eq, String.toList_ofList, hrest]⟩
  · rintro ⟨⟨first, rfl⟩, second, rfl⟩
    refine ⟨first ++ "\n" ++ second, ?_⟩
    have hended : Utf8.encode (first ++ "\n" ++ second) =
        Utf8.encode (first ++ "\n") ++ Utf8.encode second := by
      rw [Utf8.encode_eq, String.toList_append, Utf8.encodeAll_append]
      rfl
    rw [hended, encode_append_lineFeed, List.append_assoc, List.singleton_append]

theorem isSome_decode?_encode_append_iff (text : String) :
    (Utf8.decode? (Utf8.encode (text ++ "\n") ++ bytes)).isSome = true ↔
      (Utf8.decode? bytes).isSome = true := by
  rw [encode_append_lineFeed, List.append_assoc, List.singleton_append, isSome_decode?_append_iff]
  refine and_iff_right ?_
  rw [Utf8.decode?_eq_some_iff.mpr rfl]
  rfl

theorem exists_fault_of_decode?_eq_none (h : Utf8.decode? chunk = none) :
    ∃ fault, Utf8.decode chunk = .error fault := by
  rw [Utf8.decode?] at h
  rcases hdecode : Utf8.decode chunk with fault | text
  · exact ⟨fault, rfl⟩
  · rw [hdecode] at h
    cases h

/-- A stream shows lines to its end or breaks off. -/
theorem shows_or_breaksOff (bytes : List UInt8) :
    ∃ lines, Shows lines bytes ∨ BreaksOff lines bytes := by
  -- What comes after the first line feed is a shorter stream.
  induction hn : bytes.length using Nat.strongRecOn generalizing bytes with
  | _ n ih =>
    by_cases hmem : lineFeed ∈ bytes
    · obtain ⟨chunk, rest, rfl, hchunk⟩ := List.eq_append_cons_of_mem hmem
      rcases hdecode : Utf8.decode? chunk with _ | text
      · exact ⟨[], .inr (.ended hchunk hdecode)⟩
      obtain rfl := Utf8.decode?_eq_some_iff.mp hdecode
      have hlength : rest.length < n := by
        rw [← hn, List.length_append, List.length_cons]
        omega
      obtain ⟨lines, hlines⟩ := ih rest.length hlength rest rfl
      have hline : '\n' ∉ text.toList := mt lineFeed_mem_encode.mpr hchunk
      have hbytes : Utf8.encode text ++ lineFeed :: rest = Utf8.encode (text ++ "\n") ++ rest := by
        rw [encode_append_lineFeed, List.append_assoc, List.singleton_append]
      rw [hbytes]
      by_cases hlast : text.toList.getLast? = some '\r'
      · obtain ⟨line, hsplit⟩ := List.getLast?_eq_some_iff.mp hlast
        have htext : text ++ "\n" = String.ofList line ++ "\r\n" := by
          rw [append_carriageReturn, ← String.ofList_toList (s := text), hsplit,
            String.ofList_append]
        have hline' : '\n' ∉ (String.ofList line).toList := by
          rw [String.toList_ofList]
          rw [hsplit] at hline
          exact fun h => hline (List.mem_append_left _ h)
        rw [htext]
        exact ⟨String.ofList line :: lines,
          hlines.imp (.carriageReturn hline') (.carriageReturn hline')⟩
      · exact ⟨text :: lines, hlines.imp (.lineFeed hline hlast) (.lineFeed hline hlast)⟩
    · rcases hdecode : Utf8.decode? bytes with _ | text
      · exact ⟨[], .inr (.last hmem hdecode)⟩
      obtain rfl := Utf8.decode?_eq_some_iff.mp hdecode
      by_cases hempty : text = ""
      · subst hempty
        exact ⟨[], .inl .nil⟩
      · exact ⟨[text], .inl (.last hempty (mt lineFeed_mem_encode.mpr hmem))⟩

theorem isSome_decode?_of_shows (h : Shows lines bytes) : (Utf8.decode? bytes).isSome = true := by
  induction h with
  | nil => rfl
  | last =>
    rw [Utf8.decode?_eq_some_iff.mpr rfl]
    rfl
  | lineFeed _ _ _ ih => exact (isSome_decode?_encode_append_iff _).mpr ih
  | carriageReturn _ _ ih =>
    rw [append_carriageReturn]
    exact (isSome_decode?_encode_append_iff _).mpr ih

theorem decode?_of_breaksOff (h : BreaksOff lines bytes) : Utf8.decode? bytes = none := by
  rw [← Option.not_isSome_iff_eq_none]
  induction h with
  | last _ hdecode =>
    rw [hdecode]
    exact Bool.false_ne_true
  | ended _ hdecode =>
    rw [isSome_decode?_append_iff, hdecode]
    exact fun h => nomatch h.1
  | lineFeed _ _ _ ih => exact mt (isSome_decode?_encode_append_iff _).mp ih
  | carriageReturn _ _ ih =>
    rw [append_carriageReturn]
    exact mt (isSome_decode?_encode_append_iff _).mp ih

/-- Of a stream that breaks off, the lines before that are read. -/
theorem read_of_breaksOff (h : BreaksOff lines bytes) :
    ∃ fault, read ⟨bytes, true⟩ = ⟨lines, some fault⟩ := by
  -- The fault is in the piece that breaks off; each line before it is read on its own.
  induction h with
  | @last chunk hchunk hdecode =>
    have hne : chunk ≠ [] := by
      rintro rfl
      cases hdecode
    have hraw : rawLines ⟨chunk, true⟩ = [chunk] := by
      simp [rawLines, cut_of_not_mem hchunk, hne]
    obtain ⟨fault, hfault⟩ := exists_fault_of_decode?_eq_none hdecode
    refine ⟨fault, ?_⟩
    rw [read, hraw, readLines, hfault]
  | @ended chunk later hchunk hdecode =>
    have hdecode' : Utf8.decode? (chunk ++ [lineFeed]) = none := by
      rw [← Option.not_isSome_iff_eq_none, isSome_decode?_append_iff, hdecode]
      exact fun h => nomatch h.1
    obtain ⟨fault, hfault⟩ := exists_fault_of_decode?_eq_none hdecode'
    refine ⟨fault, ?_⟩
    rw [read, rawLines_append hchunk, readLines, hfault]
  | @lineFeed line lines bytes hline hlast _ ih =>
    obtain ⟨fault, ih⟩ := ih
    have hchunk : lineFeed ∉ Utf8.encode line := mt lineFeed_mem_encode.mp hline
    refine ⟨fault, ?_⟩
    rw [read_ended (encode_append_lineFeed line) hchunk, ih]
    simp [withoutEnd_lineFeed hlast]
  | @carriageReturn line lines bytes hline _ ih =>
    obtain ⟨fault, ih⟩ := ih
    have hline' : '\n' ∉ (line ++ "\r").toList := by simpa using hline
    have hchunk : lineFeed ∉ Utf8.encode (line ++ "\r") := mt lineFeed_mem_encode.mp hline'
    refine ⟨fault, ?_⟩
    rw [append_carriageReturn, read_ended (encode_append_lineFeed (line ++ "\r")) hchunk, ih]
    simp [withoutEnd_carriageReturn]

/-- The streams that show lines to their end are those that are UTF-8. -/
theorem exists_shows_iff :
    (∃ lines, Shows lines bytes) ↔ (Utf8.decode? bytes).isSome = true := by
  refine ⟨fun ⟨lines, h⟩ => isSome_decode?_of_shows h, fun h => ?_⟩
  obtain ⟨lines, hshows | hbreaks⟩ := shows_or_breaksOff bytes
  · exact ⟨lines, hshows⟩
  · rw [decode?_of_breaksOff hbreaks] at h
    cases h

theorem exists_breaksOff_iff : (∃ lines, BreaksOff lines bytes) ↔ Utf8.decode? bytes = none := by
  refine ⟨fun ⟨lines, h⟩ => decode?_of_breaksOff h, fun h => ?_⟩
  obtain ⟨lines, hshows | hbreaks⟩ := shows_or_breaksOff bytes
  · have hsome := isSome_decode?_of_shows hshows
    rw [h] at hsome
    cases hsome
  · exact ⟨lines, hbreaks⟩

/-- The bytes of lines that are written one after another. -/
def written (lines : List String) : List UInt8 :=
  lines.flatMap fun line => Utf8.encode (line ++ "\n")

theorem shows_written
    (h : ∀ line ∈ lines, '\n' ∉ line.toList ∧ line.toList.getLast? ≠ some '\r') :
    Shows lines (written lines) := by
  induction lines with
  | nil => exact .nil
  | cons line lines ih =>
    obtain ⟨⟨hline, hlast⟩, hrest⟩ := List.forall_mem_cons.mp h
    exact .lineFeed hline hlast (ih hrest)

end Flow

end CompositionGen
