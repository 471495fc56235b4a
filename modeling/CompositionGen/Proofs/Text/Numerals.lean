import CompositionGen.Text.Decimal
import Mathlib.Data.List.Basic

/-!
# Numbers as digits

A number is written without a leading zero, and reading the digits gives it back. Of all the runs
of digits that are read as one number, writing gives the one without superfluous zeros.
-/

namespace CompositionGen.Decimal

variable {n : Nat} {cs : List Char}

theorem isDigit_eq (c : Char) : isDigit c = c.isDigit := by
  simp only [isDigit, Char.isDigit, Char.le_def, ge_iff_le]

theorem isDigit_iff {c : Char} : isDigit c = true ↔ 48 ≤ c.toNat ∧ c.toNat ≤ 57 := by
  simp only [isDigit, Bool.and_eq_true, decide_eq_true_eq, Char.le_def, UInt32.le_iff_toNat_le]
  rfl

theorem extend_eq (n : Nat) (cs : List Char) : extend n cs = Nat.ofDigitChars 10 cs n := by
  simp only [extend, Nat.ofDigitChars, Nat.mul_comm 10]
  rfl

/-- What is written is read back. -/
theorem value_digitsOf (n : Nat) : value (digitsOf n) = n := by
  rw [value, extend_eq]
  exact Nat.ofDigitChars_toDigits (by decide) (by decide)

theorem all_isDigit_digitsOf (n : Nat) : (digitsOf n).all isDigit = true := by
  rw [List.all_eq_true]
  intro c hc
  rw [isDigit_eq]
  exact Nat.isDigit_of_mem_toDigits (by decide) (by decide) hc

theorem digitsOf_ne_nil (n : Nat) : digitsOf n ≠ [] := Nat.toDigits_ne_nil

/-! ## Leading zeros -/

/-- No zero stands before other digits. -/
def IsShortest (cs : List Char) : Prop := cs.head? = some '0' → cs = ['0']

theorem isShortest_iff : IsShortest cs ↔ cs.length = 1 ∨ cs.head? ≠ some '0' := by
  constructor
  · intro h
    by_cases hhead : cs.head? = some '0'
    · exact Or.inl (by rw [h hhead]; rfl)
    · exact Or.inr hhead
  · rintro (h | h) hhead
    · obtain ⟨c, rfl⟩ := List.length_eq_one_iff.mp h
      rw [Option.some.inj hhead]
    · exact absurd hhead h

theorem digit_lt_ten {c : Char} (h : isDigit c = true) : digit c < 10 := by
  obtain ⟨-, h57⟩ := isDigit_iff.mp h
  show c.toNat - 48 < 10
  omega

theorem digitChar_digit {c : Char} (h : isDigit c = true) : Nat.digitChar (digit c) = c := by
  obtain ⟨h48, -⟩ := isDigit_iff.mp h
  rw [← Char.toNat_inj, Nat.toNat_digitChar_of_lt_ten (digit_lt_ten h)]
  show 48 + (c.toNat - 48) = c.toNat
  omega

theorem digit_eq_zero_iff {c : Char} (h : isDigit c = true) : digit c = 0 ↔ c = '0' := by
  refine ⟨fun hz => ?_, fun hc => hc ▸ rfl⟩
  rw [← digitChar_digit h, hz]
  rfl

/-- Behind a number that is not zero, digits are written as they are read. -/
theorem digitsOf_extend (hn : 0 < n) (h : cs.all isDigit = true) :
    digitsOf (extend n cs) = digitsOf n ++ cs := by
  induction cs generalizing n with
  | nil => exact (List.append_nil _).symm
  | cons c cs ih =>
    rw [List.all_cons, Bool.and_eq_true] at h
    have hlt := digit_lt_ten h.1
    have hone : digitsOf (10 * n + digit c) = digitsOf n ++ [c] := by
      rw [digitsOf, ← Nat.toDigits_append_toDigits (by decide) hn hlt, Nat.toDigits_of_lt_base hlt,
        digitChar_digit h.1]
      rfl
    show digitsOf (extend (n * 10 + digit c) cs) = _
    rw [Nat.mul_comm n 10, ih (by omega) h.2, hone, List.append_assoc, List.singleton_append]

/-- No number but zero is written with a zero first. -/
theorem head?_digitsOf (hn : 0 < n) : (digitsOf n).head? ≠ some '0' := by
  induction n using Nat.strongRecOn with
  | _ n ih =>
    by_cases hlt : n < 10
    · rw [digitsOf, Nat.toDigits_of_lt_base hlt, List.head?_cons, ne_eq, Option.some.injEq]
      intro hc
      have hzero := congrArg Char.toNat hc
      rw [Nat.toNat_digitChar_of_lt_ten hlt] at hzero
      have h48 : '0'.toNat = 48 := rfl
      omega
    · have hhead := ih (n / 10) (by omega) (by omega)
      rw [digitsOf, Nat.toDigits_of_base_le (by decide) (by omega),
        List.head?_append_of_ne_nil _ Nat.toDigits_ne_nil]
      exact hhead

theorem isShortest_digitsOf (n : Nat) : IsShortest (digitsOf n) := by
  intro h
  by_cases hn : 0 < n
  · exact absurd h (head?_digitsOf hn)
  · rw [Nat.eq_zero_of_not_pos hn]
    rfl

/-- Digits are written back as they were read exactly if no superfluous zero leads them. -/
theorem digitsOf_value_eq_iff (hne : cs ≠ []) (h : cs.all isDigit = true) :
    digitsOf (value cs) = cs ↔ IsShortest cs := by
  refine ⟨fun he => he ▸ isShortest_digitsOf _, fun hs => ?_⟩
  obtain ⟨c, cs, rfl⟩ := List.exists_cons_of_ne_nil hne
  rw [List.all_cons, Bool.and_eq_true] at h
  by_cases hc : c = '0'
  · rw [hs (by rw [hc]; rfl)]
    rfl
  · have hpos : 0 < digit c := Nat.pos_of_ne_zero ((digit_eq_zero_iff h.1).not.mpr hc)
    show digitsOf (extend (0 * 10 + digit c) cs) = _
    rw [Nat.zero_mul, Nat.zero_add, digitsOf_extend hpos h.2, digitsOf,
      Nat.toDigits_of_lt_base (digit_lt_ten h.1), digitChar_digit h.1, List.singleton_append]

end CompositionGen.Decimal
