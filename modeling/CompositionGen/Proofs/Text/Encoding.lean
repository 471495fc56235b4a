import CompositionGen.Text.Utf8

/-!
# Cutting encoded text

A byte below 128 stands for a character of its own, and no other character's bytes are below 128.
So where the bytes of a text are cut before such a byte, they are cut between two characters.
-/

namespace CompositionGen.Utf8

/-- The bytes of characters. -/
def encodeAll (cs : List Char) : List UInt8 := cs.flatMap String.utf8EncodeChar

/-- The byte of an ASCII character. -/
def ascii (c : Char) : UInt8 := UInt8.ofNat c.toNat

/-- Whether an offset lies at the end of the bytes or before a byte that begins a character. -/
def IsBoundary (bytes : List UInt8) (i : Nat) : Prop :=
  i = bytes.length ∨ ∃ b, bytes[i]? = some b ∧ isContinuation b = false

instance (bytes : List UInt8) (i : Nat) : Decidable (IsBoundary bytes i) :=
  decidable_of_iff (i = bytes.length ∨ (bytes[i]?.any fun b => !isContinuation b) = true) (by
    simp [IsBoundary, Option.any_eq_true])

theorem encode_eq (text : String) : encode text = encodeAll text.toList := rfl

@[simp] theorem encodeAll_nil : encodeAll [] = [] := rfl

@[simp] theorem encodeAll_cons (c : Char) (cs : List Char) :
    encodeAll (c :: cs) = String.utf8EncodeChar c ++ encodeAll cs := rfl

@[simp] theorem encodeAll_append (a b : List Char) :
    encodeAll (a ++ b) = encodeAll a ++ encodeAll b := List.flatMap_append

/-! ## The bytes of a character -/

theorem isContinuation_ofNat (n : Nat) : isContinuation (UInt8.ofNat (n % 64 + 128)) = true := by
  have h : (UInt8.ofNat (n % 64 + 128)).toNat = n % 64 + 128 :=
    UInt8.toNat_ofNat_of_lt' (show n % 64 + 128 < 256 by omega)
  rw [isContinuation, Bool.and_eq_true, decide_eq_true_eq, decide_eq_true_eq,
    UInt8.le_iff_toNat_le, UInt8.le_iff_toNat_le, h]
  exact ⟨show 128 ≤ _ by omega, show _ ≤ 191 by omega⟩

theorem le_toNat_lead {n width : Nat} (hw : 192 ≤ width) (h : n + width < 256) :
    192 ≤ (UInt8.ofNat (n + width)).toNat := by
  rw [UInt8.toNat_ofNat_of_lt' h]
  omega

/-- A character has one byte below 128, or a leading byte above 191 and bytes that continue it. -/
theorem utf8EncodeChar_cases (c : Char) :
    (c.toNat < 128 ∧ String.utf8EncodeChar c = [ascii c]) ∨
    (128 ≤ c.toNat ∧ ∃ lead rest, String.utf8EncodeChar c = lead :: rest ∧
      192 ≤ lead.toNat ∧ ∀ b ∈ rest, isContinuation b = true) := by
  have hval : c.val.toNat = c.toNat := rfl
  unfold String.utf8EncodeChar
  simp only [hval]
  by_cases h1 : c.toNat ≤ 127
  · exact .inl ⟨by omega, by rw [if_pos h1]; rfl⟩
  · refine .inr ⟨by omega, ?_⟩
    rw [if_neg h1]
    split
    · refine ⟨_, _, rfl, le_toNat_lead (by omega) (by omega), ?_⟩
      simp only [List.forall_mem_singleton, isContinuation_ofNat]
    · split
      · refine ⟨_, _, rfl, le_toNat_lead (by omega) (by omega), ?_⟩
        exact List.forall_mem_cons.mpr
          ⟨isContinuation_ofNat _, List.forall_mem_singleton.mpr (isContinuation_ofNat _)⟩
      · refine ⟨_, _, rfl, le_toNat_lead (by omega) (by omega), ?_⟩
        exact List.forall_mem_cons.mpr ⟨isContinuation_ofNat _, List.forall_mem_cons.mpr
          ⟨isContinuation_ofNat _, List.forall_mem_singleton.mpr (isContinuation_ofNat _)⟩⟩

theorem isContinuation_iff {b : UInt8} :
    isContinuation b = true ↔ 128 ≤ b.toNat ∧ b.toNat ≤ 191 := by
  rw [isContinuation, Bool.and_eq_true, decide_eq_true_eq, decide_eq_true_eq,
    UInt8.le_iff_toNat_le, UInt8.le_iff_toNat_le]
  rfl

theorem isContinuation_eq_false {b : UInt8} (h : b.toNat < 128 ∨ 192 ≤ b.toNat) :
    isContinuation b = false := by
  rw [← Bool.not_eq_true, isContinuation_iff]
  omega

theorem toNat_ofNat_toNat (b : UInt8) : (Char.ofNat b.toNat).toNat = b.toNat := by
  have hlt := b.toNat_lt
  rw [Char.ofNat, dif_pos (.inl (by omega))]
  rfl

theorem toNat_ascii {c : Char} (h : c.toNat < 128) : (ascii c).toNat = c.toNat :=
  UInt8.toNat_ofNat_of_lt' (show c.toNat < 256 by omega)

theorem ascii_inj {c d : Char} (hc : c.toNat < 128) (hd : d.toNat < 128) :
    ascii c = ascii d ↔ c = d := by
  refine ⟨fun h => ?_, congrArg ascii⟩
  have hn : c.toNat = d.toNat := by rw [← toNat_ascii hc, h, toNat_ascii hd]
  exact Char.toNat_inj.mp hn

theorem utf8EncodeChar_ascii {c : Char} (h : c.toNat < 128) :
    String.utf8EncodeChar c = [ascii c] := by
  rcases utf8EncodeChar_cases c with ⟨-, he⟩ | ⟨hc, -⟩
  · exact he
  · omega

/-- The first byte of a character continues none, and all its other bytes do. -/
theorem utf8EncodeChar_eq_cons (c : Char) : ∃ lead rest,
    String.utf8EncodeChar c = lead :: rest ∧ isContinuation lead = false ∧
      ∀ b ∈ rest, isContinuation b = true := by
  rcases utf8EncodeChar_cases c with ⟨hc, he⟩ | ⟨-, lead, rest, he, hl, hr⟩
  · exact ⟨_, _, he, isContinuation_eq_false (.inl (by rwa [toNat_ascii hc])), by simp⟩
  · exact ⟨lead, rest, he, isContinuation_eq_false (.inr hl), hr⟩

theorem ascii_mem_utf8EncodeChar {c x : Char} (hx : x.toNat < 128) :
    ascii x ∈ String.utf8EncodeChar c ↔ x = c := by
  rcases utf8EncodeChar_cases c with ⟨hc, he⟩ | ⟨hc, lead, rest, he, hl, hr⟩
  · rw [he, List.mem_singleton, ascii_inj hx hc]
  · have hb := toNat_ascii hx
    refine iff_of_false (fun h => ?_) (fun h => by subst h; omega)
    rw [he, List.mem_cons] at h
    rcases h with rfl | h
    · omega
    · have := isContinuation_iff.mp (hr _ h)
      omega

/-! ## The bytes of a text -/

variable {cs : List Char}

theorem encodeAll_cons_ascii {x : Char} (hx : x.toNat < 128) (cs : List Char) :
    encodeAll (x :: cs) = ascii x :: encodeAll cs := by
  rw [encodeAll_cons, utf8EncodeChar_ascii hx, List.singleton_append]

theorem ascii_mem_encodeAll {x : Char} (hx : x.toNat < 128) :
    ascii x ∈ encodeAll cs ↔ x ∈ cs := by
  rw [encodeAll, List.mem_flatMap]
  simp only [ascii_mem_utf8EncodeChar hx, exists_eq_right']

theorem encodeAll_inj {ds : List Char} : encodeAll cs = encodeAll ds ↔ cs = ds := by
  refine ⟨fun h => ?_, congrArg encodeAll⟩
  have hb : (String.ofList cs).toByteArray = (String.ofList ds).toByteArray := by
    rw [String.toByteArray_ofList, String.toByteArray_ofList]
    exact congrArg List.toByteArray h
  exact String.ofList_injective (String.toByteArray_inj.mp hb)

theorem encode_inj {a b : String} : encode a = encode b ↔ a = b := by
  rw [encode_eq, encode_eq, encodeAll_inj, String.toList_inj]

theorem encodeAll_eq_nil_iff : encodeAll cs = [] ↔ cs = [] :=
  ⟨fun h => encodeAll_inj.mp (h.trans encodeAll_nil.symm), fun h => h ▸ rfl⟩

/-- The boundaries of encoded text are the places between its characters. -/
theorem isBoundary_iff {i : Nat} :
    IsBoundary (encodeAll cs) i ↔ ∃ a b, cs = a ++ b ∧ (encodeAll a).length = i := by
  constructor
  · intro h
    induction cs generalizing i with
    | nil =>
      rcases h with rfl | ⟨b, hb, -⟩
      · exact ⟨[], [], rfl, rfl⟩
      · simp at hb
    | cons c cs ih =>
      obtain ⟨lead, rest, he, -, hr⟩ := utf8EncodeChar_eq_cons c
      by_cases hi : i = 0
      · exact ⟨[], c :: cs, rfl, hi.symm⟩
      by_cases hc : i < (String.utf8EncodeChar c).length
      · -- Inside a character all bytes are continuations.
        rcases h with h | ⟨b, hb, hn⟩
        · rw [h, encodeAll_cons, List.length_append] at hc
          omega
        · rw [encodeAll_cons, List.getElem?_append_left hc, he, List.getElem?_cons,
            if_neg hi] at hb
          rw [hr b (List.mem_of_getElem? hb)] at hn
          cases hn
      -- Behind the first character, a boundary is one of the rest.
      · obtain ⟨j, rfl⟩ := Nat.exists_eq_add_of_le (Nat.le_of_not_lt hc)
        have hj : IsBoundary (encodeAll cs) j := by
          rcases h with h | ⟨b, hb, hn⟩
          · rw [encodeAll_cons, List.length_append] at h
            exact .inl (by omega)
          · rw [encodeAll_cons, List.getElem?_append_right (by omega),
            Nat.add_sub_cancel_left] at hb
            exact .inr ⟨b, hb, hn⟩
        obtain ⟨a, b, rfl, hl⟩ := ih hj
        exact ⟨c :: a, b, rfl, by rw [encodeAll_cons, List.length_append, hl]⟩
  · rintro ⟨a, b, rfl, rfl⟩
    cases b with
    | nil => exact .inl (by rw [List.append_nil])
    | cons c b =>
      obtain ⟨lead, rest, he, hl, -⟩ := utf8EncodeChar_eq_cons c
      refine .inr ⟨lead, ?_, hl⟩
      rw [encodeAll_append, List.getElem?_append_right (Nat.le_refl _), Nat.sub_self,
        encodeAll_cons, he]
      rfl

/-- Where encoded text is cut at its end or before an ASCII character, the text is cut. -/
theorem encodeAll_eq_append {left right : List UInt8} (h : encodeAll cs = left ++ right)
    (hr : right = [] ∨ ∃ x rest, x.toNat < 128 ∧ right = ascii x :: rest) :
    ∃ a b, cs = a ++ b ∧ encodeAll a = left ∧ encodeAll b = right := by
  have hb : IsBoundary (encodeAll cs) left.length := by
    rcases hr with rfl | ⟨x, rest, hx, rfl⟩
    · exact .inl (by rw [h, List.append_nil])
    · refine .inr ⟨ascii x, by rw [h, List.getElem?_append_right (Nat.le_refl _)]; simp, ?_⟩
      exact isContinuation_eq_false (.inl (by rwa [toNat_ascii hx]))
  obtain ⟨a, b, rfl, hl⟩ := isBoundary_iff.mp hb
  rw [encodeAll_append] at h
  obtain ⟨ha, hb⟩ := List.append_inj h hl
  exact ⟨a, b, rfl, ha, hb⟩

theorem encodeAll_eq_cons_ascii {x : Char} {rest : List UInt8} (hx : x.toNat < 128)
    (h : encodeAll cs = ascii x :: rest) : ∃ ds, cs = x :: ds ∧ encodeAll ds = rest := by
  cases cs with
  | nil => cases h
  | cons c ds =>
    have hm : ascii x ∈ String.utf8EncodeChar c := by
      obtain ⟨lead, more, he, -, -⟩ := utf8EncodeChar_eq_cons c
      rw [encodeAll_cons, he, List.cons_append] at h
      rw [he, (List.cons.inj h).1]
      exact List.mem_cons_self
    obtain rfl := (ascii_mem_utf8EncodeChar hx).mp hm
    rw [encodeAll_cons_ascii hx] at h
    exact ⟨ds, rfl, (List.cons.inj h).2⟩

/-- Reading the bytes of a text back. -/
theorem fromUTF8?_encode (text : String) :
    String.fromUTF8? (encode text).toByteArray = some text := by
  have h : (encode text).toByteArray = text.toByteArray := String.utf8Encode_toList
  rw [h, String.fromUTF8?, dif_pos text.isValidUTF8]
  rfl

end CompositionGen.Utf8
