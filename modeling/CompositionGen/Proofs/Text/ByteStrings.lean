import CompositionGen.Proofs.Text.Decoding
import CompositionGen.Text.ByteString

/-!
# Showing byte strings

A byte string is shown piece by piece, and no byte is in two pieces or in none. So what is shown of
its ASCII characters was there, a text is shown as itself, and only an ASCII text is shown as one.
-/

namespace CompositionGen

namespace Utf8

/-- The bytes of a piece. -/
def Piece.bytes : Piece → List UInt8
  | char c => String.utf8EncodeChar c
  | other bytes => bytes

variable {b : UInt8} {bytes : List UInt8} {cs : List Char} {i : Nat}
  {state : Option (Pending × List UInt8)}

/-- The bytes of the character under way. -/
def held (state : Option (Pending × List UInt8)) : List UInt8 := state.elim [] (·.2)

/-- The character under way is the one that its bytes begin. -/
def Begun (state : Option (Pending × List UInt8)) : Prop :=
  ∀ p ∈ state, ∃ i, ∀ rest, decodeFrom i none (p.2 ++ rest) = decodeFrom i (some p.1) rest

theorem begun_none : Begun none := by
  rintro p ⟨⟩

theorem beginPiece_spec (b : UInt8) :
    (beginPiece b).1.flatMap Piece.bytes ++ held (beginPiece b).2 = [b] ∧
      Begun (beginPiece b).2 := by
  unfold beginPiece
  split
  · exact ⟨rfl, begun_none⟩
  · next hwidth =>
    have hdecoded : decodeFrom 0 none [b] = .ok [Char.ofNat b.toNat] := by
      rw [decodeFrom, hwidth]
      rfl
    refine ⟨?_, begun_none⟩
    simpa [Piece.bytes, held] using encodeAll_of_decodeFrom hdecoded
  · next n hone hwidth =>
    refine ⟨rfl, fun p hp => ⟨0, fun rest => ?_⟩⟩
    cases hp
    rw [List.singleton_append, decodeFrom, hwidth]
    split
    · next heq => cases heq
    · next heq => exact absurd (Option.some.inj heq) hone
    · next heq =>
      cases heq
      rfl

theorem beginPiece_ascii {c : Char} (hc : c.toNat < 128) :
    beginPiece (ascii c) = ([.char c], none) := by
  have hone : width? (ascii c) = some 1 := by
    rw [width?, if_pos]
    rw [UInt8.lt_iff_toNat_lt, toNat_ascii hc]
    exact hc
  rw [beginPiece, hone, toNat_ascii hc, Char.ofNat_toNat]
  rfl

/-- A byte is part of a piece that ends with it or of the character under way. -/
theorem takeByte_spec (hstate : Begun state) :
    (takeByte state b).1.flatMap Piece.bytes ++ held (takeByte state b).2 = held state ++ [b] ∧
      Begun (takeByte state b).2 := by
  cases state with
  | none => exact beginPiece_spec b
  | some s =>
    obtain ⟨p, before⟩ := s
    obtain ⟨i, hbegun⟩ := hstate _ rfl
    obtain ⟨hbytes, hnext⟩ := beginPiece_spec b
    dsimp only at hbegun
    rw [takeByte]
    -- The byte breaks off the character under way and begins another piece, or ends it, or goes on
    -- with it.
    split
    · refine ⟨?_, hnext⟩
      rw [List.flatMap_cons, List.append_assoc, hbytes]
      rfl
    · next hallows =>
      rw [Bool.not_eq_true, Bool.not_eq_false'] at hallows
      split
      · next hlast =>
        have hdecoded : decodeFrom i none (before ++ [b]) =
            .ok [Char.ofNat (p.value * 64 + b.toNat % 64)] := by
          rw [hbegun, decodeFrom, hallows, Bool.not_true, if_neg Bool.false_ne_true, if_pos hlast]
          rfl
        refine ⟨?_, begun_none⟩
        simpa [Piece.bytes, held] using encodeAll_of_decodeFrom hdecoded
      · next hmore =>
        refine ⟨rfl, fun q hq => ⟨i, fun rest => ?_⟩⟩
        cases hq
        rw [List.append_assoc, List.singleton_append, hbegun, decodeFrom]
        simp [hallows, hmore]

theorem flatMap_piecesFrom (hstate : Begun state) :
    (piecesFrom state bytes).flatMap Piece.bytes = held state ++ bytes := by
  induction bytes generalizing state with
  | nil =>
    cases state with
    | none => rfl
    | some s => simp [piecesFrom, Piece.bytes, held]
  | cons b bytes ih =>
    obtain ⟨hbytes, hnext⟩ := takeByte_spec (b := b) hstate
    rw [piecesFrom, List.flatMap_append, ih hnext, ← List.append_assoc, hbytes, List.append_assoc,
      List.singleton_append]

/-- A byte string is made up of its pieces. -/
theorem flatMap_pieces (bytes : List UInt8) : (pieces bytes).flatMap Piece.bytes = bytes :=
  flatMap_piecesFrom begun_none

/-- Where a text can be read, there are no other pieces than its characters. -/
theorem piecesFrom_of_decodeFrom (state : Option (Pending × List UInt8))
    (h : decodeFrom i (state.map (·.1)) bytes = .ok cs) :
    piecesFrom state bytes = cs.map Piece.char := by
  -- Both go byte by byte with the same character under way, and decoding never meets the other kind
  -- of piece.
  induction bytes generalizing i state cs with
  | nil =>
    cases state with
    | none =>
      cases h
      rfl
    | some s => cases h
  | cons b bytes ih =>
    rw [piecesFrom]
    cases state with
    | none =>
      rw [Option.map_none, decodeFrom] at h
      rw [takeByte, beginPiece]
      split at h
      · cases h
      · obtain ⟨tail, htail, h⟩ := Outcome.bind_ok_iff.mp h
        cases h
        exact congrArg (_ :: ·) (ih none htail)
      · exact ih (some (_, _)) h
    | some s =>
      rw [Option.map_some, decodeFrom] at h
      rw [takeByte]
      dsimp only at h ⊢
      split at h
      · cases h
      · next hallows =>
        rw [if_neg hallows]
        split at h
        · next hlast =>
          obtain ⟨tail, htail, h⟩ := Outcome.bind_ok_iff.mp h
          cases h
          rw [if_pos hlast]
          exact congrArg (_ :: ·) (ih none htail)
        · next hmore =>
          rw [if_neg hmore]
          exact ih (some (_, _)) h

end Utf8

namespace ByteString

variable {s : ByteString} {text : String} {c : Char}

/-! ## The bytes of a string -/

theorem ofNat_min_eq_ascii_iff {d : Char} (hc : c.toNat < 128) :
    UInt8.ofNat (min d.toNat 255) = Utf8.ascii c ↔ d = c := by
  rw [← UInt8.toNat_inj, Utf8.toNat_ascii hc, UInt8.toNat_ofNat_of_lt' (show _ < 256 by omega),
    ← Char.toNat_inj]
  omega

theorem ascii_mem_bytes (hc : c.toNat < 128) : Utf8.ascii c ∈ s.bytes ↔ c ∈ s.toList := by
  rw [bytes, List.mem_map]
  simp only [ofNat_min_eq_ascii_iff hc, exists_eq_right]

/-- A string is determined by its bytes where they are ASCII. -/
theorem toList_of_bytes {cs : List Char} (hcs : ∀ c ∈ cs, c.toNat < 128)
    (h : s.bytes = Utf8.encodeAll cs) : s.toList = cs := by
  rw [bytes] at h
  generalize s.toList = ds at h
  induction cs generalizing ds with
  | nil => exact List.map_eq_nil_iff.mp h
  | cons c cs ih =>
    obtain ⟨hc, hrest⟩ := List.forall_mem_cons.mp hcs
    rw [Utf8.encodeAll_cons_ascii hc] at h
    obtain ⟨d, ds, rfl, hd, htail⟩ := List.map_eq_cons_iff.mp h
    rw [(ofNat_min_eq_ascii_iff hc).mp hd, ih hrest ds htail]

theorem bytes_ofBytes (bs : List UInt8) : (ofBytes bs).bytes = bs := by
  rw [ofBytes, bytes, String.toList_ofList, List.map_map]
  refine (List.map_congr_left fun b _ => ?_).trans (List.map_id bs)
  have hb : b.toNat < 256 := b.toNat_lt
  rw [Function.comp_apply, Utf8.toNat_ofNat_toNat, Nat.min_eq_left (by omega), UInt8.ofNat_toNat,
    id]

theorem bytes_ofText (text : String) : (ofText text).bytes = Utf8.encode text :=
  bytes_ofBytes _

/-! ## Texts as byte strings -/

theorem text?_eq_some_iff : s.text? = some text ↔ s.bytes = Utf8.encode text :=
  Utf8.decode?_eq_some_iff

theorem text?_ofText (text : String) : (ofText text).text? = some text :=
  text?_eq_some_iff.mpr (bytes_ofText text)

theorem ofText_injective : Function.Injective ofText := by
  intro a b h
  exact Option.some.inj ((text?_ofText a).symm.trans ((congrArg text? h).trans (text?_ofText b)))

theorem ofText_append (a b : String) : ofText (a ++ b) = ofText a ++ ofText b := by
  rw [← String.toList_inj, String.toList_append]
  simp [ofText, ofBytes, Utf8.encode_eq]

theorem mem_ofText (hc : c.toNat < 128) : c ∈ (ofText text).toList ↔ c ∈ text.toList := by
  rw [← ascii_mem_bytes hc, bytes_ofText, Utf8.encode_eq, Utf8.ascii_mem_encodeAll hc]

/-- A text begins with an ASCII character where its bytes do. -/
theorem head?_of_text? (hc : c.toNat < 128) (h : s.text? = some text) :
    text.toList.head? = some c ↔ s.toList.head? = some c := by
  have hbytes : s.bytes = Utf8.encodeAll text.toList := text?_eq_some_iff.mp h
  rw [bytes] at hbytes
  rw [List.head?_eq_some_iff, List.head?_eq_some_iff]
  constructor
  · rintro ⟨rest, htext⟩
    rw [htext, Utf8.encodeAll_cons_ascii hc] at hbytes
    obtain ⟨d, tail, htail, hd, -⟩ := List.map_eq_cons_iff.mp hbytes
    rw [(ofNat_min_eq_ascii_iff hc).mp hd] at htail
    exact ⟨tail, htail⟩
  · rintro ⟨rest, hs⟩
    rw [hs, List.map_cons, (ofNat_min_eq_ascii_iff hc).mpr rfl] at hbytes
    obtain ⟨tail, htail, -⟩ := Utf8.encodeAll_eq_cons_ascii hc hbytes.symm
    exact ⟨tail, htail⟩

/-! ## Strings as they are shown -/

/-- How a piece is shown. -/
def shownPiece : Utf8.Piece → Char
  | .char c => c
  | .other _ => '\ufffd'

theorem toList_display (s : ByteString) :
    s.display.toList = (Utf8.pieces s.bytes).map shownPiece := by
  rw [display, String.toList_ofList]
  refine List.map_congr_left fun piece _ => ?_
  cases piece with
  | char c => rfl
  | other bytes => rfl

theorem eq_char_of_shownPiece {piece : Utf8.Piece} (hc : c.toNat < 128)
    (h : shownPiece piece = c) : piece = .char c := by
  cases piece with
  | char d => exact congrArg Utf8.Piece.char h
  | other bytes =>
    rw [← h] at hc
    have hmark : ¬ '\ufffd'.toNat < 128 := by decide
    exact absurd hc hmark

/-- An ASCII character is shown only where it is. -/
theorem mem_of_mem_display (hc : c.toNat < 128) (h : c ∈ s.display.toList) : c ∈ s.toList := by
  rw [toList_display] at h
  obtain ⟨piece, hpiece, hshown⟩ := List.mem_map.mp h
  obtain rfl := eq_char_of_shownPiece hc hshown
  rw [← ascii_mem_bytes hc, ← Utf8.flatMap_pieces s.bytes, List.mem_flatMap]
  exact ⟨_, hpiece, (Utf8.ascii_mem_utf8EncodeChar hc).mpr rfl⟩

/-- What is shown begins with the ASCII character that a string begins with. -/
theorem head?_display (hc : c.toNat < 128) (h : s.toList.head? = some c) :
    s.display.toList.head? = some c := by
  obtain ⟨rest, hs⟩ := List.head?_eq_some_iff.mp h
  have hbytes : s.bytes = Utf8.ascii c :: rest.map fun d => UInt8.ofNat (min d.toNat 0xFF) := by
    rw [bytes, hs, List.map_cons, (ofNat_min_eq_ascii_iff hc).mpr rfl]
  rw [toList_display, hbytes, Utf8.pieces, Utf8.piecesFrom, Utf8.takeByte, Utf8.beginPiece_ascii hc]
  rfl

/-- Only an ASCII text is shown as that text. -/
theorem eq_of_display (hascii : (text.toList.all fun c => c.toNat < 128) = true)
    (h : s.display = text) : s = text := by
  have hascii' : ∀ c ∈ text.toList, c.toNat < 128 := by simpa using hascii
  have hpieces : Utf8.pieces s.bytes = text.toList.map Utf8.Piece.char := by
    rw [← h, toList_display, List.map_map]
    refine ((List.map_congr_left fun piece hpiece => ?_).trans (List.map_id _)).symm
    have hmem : shownPiece piece ∈ text.toList := by
      rw [← h, toList_display]
      exact List.mem_map_of_mem hpiece
    exact (eq_char_of_shownPiece (hascii' _ hmem) rfl).symm
  refine String.toList_inj.mp (toList_of_bytes hascii' ?_)
  rw [← Utf8.flatMap_pieces s.bytes, hpieces, List.flatMap_map]
  rfl

theorem display_of_text? (h : s.text? = some text) : s.display = text := by
  rw [text?, Utf8.decode?, Outcome.toOption_eq_some_iff, Utf8.decode, Outcome.map_ok_iff] at h
  obtain ⟨cs, hcs, rfl⟩ := h
  have hpieces := Utf8.piecesFrom_of_decodeFrom none hcs
  rw [← String.toList_inj, toList_display, Utf8.pieces, hpieces, List.map_map]
  exact (List.map_id cs).trans (String.toList_ofList).symm

theorem display_ofText (text : String) : (ofText text).display = text :=
  display_of_text? (text?_ofText text)

end ByteString

end CompositionGen
