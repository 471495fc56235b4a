import CompositionGen.Proofs.Text.Encoding
import Mathlib.Data.String.Basic

/-!
# The order of encoded text

The order of texts, which goes by the values of their characters, is the order of their bytes.
-/

namespace CompositionGen.Utf8

variable {c d : Char} {cs ds : List Char} {a b : List UInt8} {m n : Nat}

theorem cons_ofNat_lt_iff (hm : m < 256) (hn : n < 256) :
    UInt8.ofNat m :: a < UInt8.ofNat n :: b ↔ m < n ∨ m = n ∧ a < b := by
  rw [List.cons_lt_cons_iff, UInt8.lt_iff_toNat_lt, ← UInt8.toNat_inj,
    UInt8.toNat_ofNat_of_lt' hm, UInt8.toNat_ofNat_of_lt' hn]

/-! ## Forms of one width -/

theorem two_lt (h : m < n) (hn : n ≤ 2047) :
    UInt8.ofNat (m / 64 % 32 + 192) :: UInt8.ofNat (m % 64 + 128) :: a <
      UInt8.ofNat (n / 64 % 32 + 192) :: UInt8.ofNat (n % 64 + 128) :: b := by
  rw [cons_ofNat_lt_iff (by omega) (by omega), cons_ofNat_lt_iff (by omega) (by omega)]
  omega

theorem three_lt (h : m < n) (hn : n ≤ 65535) :
    UInt8.ofNat (m / 4096 % 16 + 224) :: UInt8.ofNat (m / 64 % 64 + 128) ::
        UInt8.ofNat (m % 64 + 128) :: a <
      UInt8.ofNat (n / 4096 % 16 + 224) :: UInt8.ofNat (n / 64 % 64 + 128) ::
        UInt8.ofNat (n % 64 + 128) :: b := by
  rw [cons_ofNat_lt_iff (by omega) (by omega), cons_ofNat_lt_iff (by omega) (by omega),
    cons_ofNat_lt_iff (by omega) (by omega)]
  omega

theorem four_lt (h : m < n) (hn : n < 1114112) :
    UInt8.ofNat (m / 262144 % 8 + 240) :: UInt8.ofNat (m / 4096 % 64 + 128) ::
        UInt8.ofNat (m / 64 % 64 + 128) :: UInt8.ofNat (m % 64 + 128) :: a <
      UInt8.ofNat (n / 262144 % 8 + 240) :: UInt8.ofNat (n / 4096 % 64 + 128) ::
        UInt8.ofNat (n / 64 % 64 + 128) :: UInt8.ofNat (n % 64 + 128) :: b := by
  have hdigits (v : Nat) : v / 4096 / 64 = v / 262144 ∧ v / 64 / 64 = v / 4096 :=
    ⟨Nat.div_div_eq_div_mul v 4096 64, Nat.div_div_eq_div_mul v 64 64⟩
  obtain ⟨hm1, hm2⟩ := hdigits m
  obtain ⟨hn1, hn2⟩ := hdigits n
  have hle1 : m / 4096 ≤ n / 4096 := Nat.div_le_div_right (Nat.le_of_lt h)
  have hle2 : m / 64 ≤ n / 64 := Nat.div_le_div_right (Nat.le_of_lt h)
  rw [cons_ofNat_lt_iff (by omega) (by omega), cons_ofNat_lt_iff (by omega) (by omega),
    cons_ofNat_lt_iff (by omega) (by omega), cons_ofNat_lt_iff (by omega) (by omega)]
  -- The numbers differ first before the last two digits, before the last one, or in it.
  rcases Nat.lt_or_eq_of_le hle1 with hlt | heq
  · omega
  rcases Nat.lt_or_eq_of_le hle2 with hlt | heq
  · omega
  · omega

/-! ## Characters and texts -/

/-- The bytes of a smaller character come first, whatever follows. -/
theorem utf8EncodeChar_append_lt (h : c < d) (a b : List UInt8) :
    String.utf8EncodeChar c ++ a < String.utf8EncodeChar d ++ b := by
  have hlt : c.val.toNat < d.val.toNat := h
  have hd : d.val.toNat < 1114112 := by
    rcases d.valid with hv | hv
    · exact Nat.lt_trans hv (by decide)
    · exact hv.2
  simp only [String.utf8EncodeChar]
  generalize c.val.toNat = m at *
  generalize d.val.toNat = n at *
  have hleads {v w : Nat} {x y : List UInt8} (hw : w < 256) (hvw : v < w) :
      UInt8.ofNat v :: x < UInt8.ofNat w :: y :=
    (cons_ofNat_lt_iff (Nat.lt_trans hvw hw) hw).mpr (.inl hvw)
  -- A wider form has a greater leading byte.
  by_cases h1 : n ≤ 127
  · rw [if_pos (show m ≤ 127 by omega), if_pos h1]
    exact hleads (by omega) hlt
  rw [if_neg h1]
  by_cases h2 : n ≤ 2047
  · rw [if_pos h2]
    split
    · exact hleads (by omega) (by omega)
    · rw [if_pos (show m ≤ 2047 by omega)]
      exact two_lt hlt h2
  rw [if_neg h2]
  by_cases h3 : n ≤ 65535
  · rw [if_pos h3]
    split
    · exact hleads (by omega) (by omega)
    split
    · exact hleads (by omega) (by omega)
    · rw [if_pos (show m ≤ 65535 by omega)]
      exact three_lt hlt h3
  rw [if_neg h3]
  split
  · exact hleads (by omega) (by omega)
  split
  · exact hleads (by omega) (by omega)
  split
  · exact hleads (by omega) (by omega)
  · exact four_lt hlt hd

theorem encodeAll_lt (h : cs < ds) : encodeAll cs < encodeAll ds := by
  induction cs generalizing ds with
  | nil =>
    cases ds with
    | nil => exact absurd h (List.lt_irrefl _)
    | cons d ds =>
      obtain ⟨lead, rest, he, -, -⟩ := utf8EncodeChar_eq_cons d
      rw [encodeAll_cons, he]
      exact List.nil_lt_cons _ _
  | cons c cs ih =>
    cases ds with
    | nil => exact absurd h (List.not_lt_nil _)
    | cons d ds =>
      rw [encodeAll_cons, encodeAll_cons]
      rcases List.cons_lt_cons_iff.mp h with hlt | ⟨rfl, hlt⟩
      · exact utf8EncodeChar_append_lt hlt _ _
      · exact List.append_left_lt (ih hlt)

/-- Texts in their order have bytes in theirs. -/
theorem encode_lt {s t : String} (h : s < t) : encode s < encode t :=
  encodeAll_lt (String.lt_iff_toList_lt.mp h)

end CompositionGen.Utf8
