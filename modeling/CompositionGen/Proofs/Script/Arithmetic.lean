import CompositionGen.Proofs.Outcome
import CompositionGen.Script.Arithmetic

/-!
# Values of expressions

Every value that an expression or a part of one comes to is a signed number of 64 bits. A part that
does not count for the value leaves the variables as they are. Both are shown for the four readers
together, step by step along the bound on their depth.
-/

namespace CompositionGen.Script.Arithmetic

variable {live : Bool} {vars : Variables} {cs : List Char} {r left : Reading} {limit least : Nat}

/-! ## Words of bits -/

/-- A number that 64 bits hold. -/
def IsWord (n : Int) : Prop := -9223372036854775808 ≤ n ∧ n < 9223372036854775808

theorem isWord_wrap (n : Int) : IsWord (wrap n) := by
  have hpos : 0 < modulus := by decide
  have hlow := Int.le_bmod (x := n) hpos
  have hhigh := Int.bmod_lt (x := n) hpos
  unfold IsWord wrap
  unfold modulus at hlow hhigh ⊢
  omega

theorem isWord_ofBool (b : Bool) : IsWord (ofBool b) := by
  unfold IsWord ofBool
  split <;> omega

theorem isWord_shifted {a : Int} (h : IsWord a) (k : Nat) :
    IsWord (Int.fdiv a (Int.ofNat (Nat.pow 2 k))) := by
  have hpos : 1 ≤ Int.ofNat (Nat.pow 2 k) := Int.ofNat_le.mpr (Nat.pow_pos (by decide))
  generalize Int.ofNat (Nat.pow 2 k) = d at hpos ⊢
  obtain ⟨hlow, hhigh⟩ := h
  rw [Int.fdiv_eq_ediv_of_nonneg a (by omega)]
  constructor
  · rw [Int.le_ediv_iff_mul_le (by omega)]
    omega
  · rw [Int.ediv_lt_iff_lt_mul (by omega)]
    omega

theorem isWord_tmod {a : Int} (h : IsWord a) (b : Int) : IsWord (Int.tmod a b) := by
  obtain ⟨hlow, hhigh⟩ := h
  have habs := Int.natAbs_tmod a b
  have hle := Nat.mod_le a.natAbs b.natAbs
  have hneg := Int.neg_tmod a b
  unfold IsWord
  rcases Int.le_total 0 a with hsign | hsign
  · have := Int.tmod_nonneg b hsign
    omega
  · have := Int.tmod_nonneg b (Int.neg_nonneg.mpr hsign)
    omega

theorem isWord_bitwise (f : Nat → Nat → Nat) (a b : Int) : IsWord (bitwise f a b) := isWord_wrap _

theorem isWord_apply {operator : String} {a b n : Int} (ha : IsWord a)
    (h : apply operator a b = .ok n) : IsWord n := by
  unfold apply at h
  split at h
  case h_17 =>
    split at h
    · cases h
    · rw [Except.ok.injEq] at h
      exact h ▸ isWord_wrap _
  case h_18 =>
    split at h
    · cases h
    · rw [Except.ok.injEq] at h
      exact h ▸ isWord_tmod ha b
  all_goals
    rw [Except.ok.injEq] at h
    subst h
  case h_4 => exact isWord_shifted ha _
  case h_3 | h_14 | h_15 | h_16 => exact isWord_wrap _
  case h_9 | h_10 | h_11 => exact isWord_bitwise _ a b
  all_goals exact isWord_ofBool _

theorem isWord_numeral {n : Nat} {rest : List Char} (h : numeral? cs = some (n, rest)) :
    IsWord n := by
  have hbound : n < Decimal.signBound := by
    have hread : ∀ (base : Nat) (digits more : List Char), (natural? base digits).map
        (fun n => (min n (Decimal.signBound - 1), more)) = some (n, rest) →
          n < Decimal.signBound := by
      intro base digits more hread
      rw [Option.map_eq_some_iff] at hread
      obtain ⟨value, -, hvalue⟩ := hread
      cases hvalue
      exact Nat.lt_of_le_of_lt (Nat.min_le_right _ _) (by decide)
    unfold numeral? at h
    dsimp only at h
    split at h
    · split at h
      · rw [Option.or_eq_some_iff] at h
        rcases h with h | ⟨-, h⟩
        · exact hread _ _ _ h
        · cases h
          decide
      · exact hread _ _ _ h
    · split at h
      · exact hread _ _ _ h
      · exact hread _ _ _ h
  unfold Decimal.signBound at hbound
  unfold IsWord
  omega

/-! ## Readers -/

/-- What is read has a value of 64 bits, and only a part that counts changes variables. -/
structure Sound (live : Bool) (vars : Variables) (r : Reading) : Prop where
  word : IsWord r.value
  kept : live = false → r.vars = vars

/-- Everything that is read within a depth is sound. -/
structure ReadsSoundly (limit : Nat) : Prop where
  expression : ∀ {live vars cs r}, expression limit live vars cs = .ok r → Sound live vars r
  binary : ∀ {live least vars cs r}, binary limit live least vars cs = .ok r → Sound live vars r
  joined : ∀ {live least vars left r}, Sound live vars left →
    joined limit live least left = .ok r → Sound live vars r
  operand : ∀ {live vars cs r}, operand limit live vars cs = .ok r → Sound live vars r

theorem isWord_valueOf {name : String} {n : Int} (h : valueOf vars name = .ok n) : IsWord n := by
  unfold valueOf at h
  dsimp only at h
  split at h
  · cases h
    exact isWord_wrap _
  · cases h

theorem operand_sound (h : ReadsSoundly limit) (hread : operand (limit + 1) live vars cs = .ok r) :
    Sound live vars r := by
  rw [operand] at hread
  split at hread
  · rw [Outcome.bind_ok_iff] at hread
    obtain ⟨inner, hinner, hread⟩ := hread
    split at hread
    · cases hread
      exact ⟨(h.expression hinner).word, (h.expression hinner).kept⟩
    · cases hread
  · rw [Outcome.bind_ok_iff] at hread
    obtain ⟨inner, hinner, hread⟩ := hread
    cases hread
    exact ⟨isWord_wrap _, (h.operand hinner).kept⟩
  · exact h.operand hread
  · rw [Outcome.bind_ok_iff] at hread
    obtain ⟨inner, hinner, hread⟩ := hread
    cases hread
    exact ⟨isWord_ofBool _, (h.operand hinner).kept⟩
  · rw [Outcome.bind_ok_iff] at hread
    obtain ⟨inner, hinner, hread⟩ := hread
    cases hread
    exact ⟨isWord_wrap _, (h.operand hinner).kept⟩
  · dsimp only at hread
    split at hread
    · rw [Outcome.bind_ok_iff] at hread
      obtain ⟨value, hvalue, hread⟩ := hread
      cases hread
      exact ⟨isWord_valueOf hvalue, fun _ => rfl⟩
    · split at hread
      · rename_i hnumeral
        cases hread
        exact ⟨isWord_numeral hnumeral, fun _ => rfl⟩
      · cases hread

theorem joined_sound (h : ReadsSoundly limit) (hleft : Sound live vars left)
    (hread : joined (limit + 1) live least left = .ok r) : Sound live vars r := by
  rw [joined] at hread
  split at hread
  · cases hread
    exact hleft
  · dsimp only at hread
    rw [Outcome.bind_ok_iff] at hread
    obtain ⟨right, hright, hread⟩ := hread
    have hkept : live = false → right.vars = vars := by
      intro hlive
      rw [(h.binary hright).kept (by rw [hlive]; rfl), hleft.kept hlive]
    split at hread
    · rw [Outcome.bind_ok_iff] at hread
      obtain ⟨value, hvalue, hread⟩ := hread
      refine h.joined ?_ hread
      exact ⟨isWord_apply hleft.word hvalue, hkept⟩
    · rw [Outcome.bind_ok_iff] at hread
      obtain ⟨value, hvalue, hread⟩ := hread
      cases hvalue
      refine h.joined ?_ hread
      exact ⟨isWord_ofBool false, hkept⟩

theorem binary_sound (h : ReadsSoundly limit)
    (hread : binary (limit + 1) live least vars cs = .ok r) : Sound live vars r := by
  rw [binary, Outcome.bind_ok_iff] at hread
  obtain ⟨left, hleft, hread⟩ := hread
  exact h.joined (h.operand hleft) hread

theorem expression_sound (h : ReadsSoundly limit)
    (hread : expression (limit + 1) live vars cs = .ok r) : Sound live vars r := by
  rw [expression] at hread
  dsimp only at hread
  -- Either an assignment to a name, or a condition that may have two alternatives.
  split at hread
  · rw [Outcome.bind_ok_iff] at hread
    obtain ⟨right, hright, hread⟩ := hread
    have hsound := h.expression hright
    split at hread
    · rw [Outcome.bind_ok_iff] at hread
      obtain ⟨value, hvalue, hread⟩ := hread
      cases hvalue
      cases hread
      refine ⟨hsound.word, fun hdead => ?_⟩
      dsimp only
      rw [hdead, if_neg Bool.false_ne_true, hsound.kept hdead]
    · split at hread
      · rename_i hlive
        rw [Outcome.bind_ok_iff] at hread
        obtain ⟨old, hold, hread⟩ := hread
        rw [Outcome.bind_ok_iff] at hread
        obtain ⟨value, hvalue, hread⟩ := hread
        cases hread
        refine ⟨isWord_apply (isWord_valueOf hold) hvalue, fun hdead => ?_⟩
        exact absurd (hdead.symm.trans hlive) Bool.false_ne_true
      · rw [Outcome.bind_ok_iff] at hread
        obtain ⟨value, hvalue, hread⟩ := hread
        cases hvalue
        cases hread
        exact ⟨isWord_ofBool false, hsound.kept⟩
  · rw [Outcome.bind_ok_iff] at hread
    obtain ⟨condition, hcondition, hread⟩ := hread
    have hsound := h.binary hcondition
    split at hread
    · rw [Outcome.bind_ok_iff] at hread
      obtain ⟨yes, hyes, hread⟩ := hread
      split at hread
      · rw [Outcome.bind_ok_iff] at hread
        obtain ⟨no, hno, hread⟩ := hread
        cases hread
        constructor
        · dsimp only
          split
          · exact (h.expression hyes).word
          · exact (h.expression hno).word
        -- In a dead expression both alternatives are dead, whatever the condition is.
        · intro hlive
          have hdead : ∀ b, (live && b) = false := fun b => by rw [hlive]; rfl
          rw [(h.expression hno).kept (hdead _), (h.expression hyes).kept (hdead _),
            hsound.kept hlive]
      · cases hread
    · cases hread
      exact hsound

theorem readsSoundly (limit : Nat) : ReadsSoundly limit := by
  induction limit with
  | zero =>
    constructor
    · intro live vars cs r hread
      rw [expression] at hread
      cases hread
    · intro live least vars cs r hread
      rw [binary] at hread
      cases hread
    · intro live least vars left r hleft hread
      rw [joined] at hread
      cases hread
      exact hleft
    · intro live vars cs r hread
      rw [operand] at hread
      cases hread
  | succ limit ih =>
    exact ⟨expression_sound ih, binary_sound ih, joined_sound ih, operand_sound ih⟩

/-- An expression that has a value has one of 64 bits. -/
theorem isWord_evaluate {vars' : Variables} {text : String} {n : Int}
    (h : evaluate vars text = .ok (n, vars')) : IsWord n := by
  unfold evaluate at h
  dsimp only at h
  split at h
  · cases h
    exact isWord_ofBool false
  · rw [Outcome.bind_ok_iff] at h
    obtain ⟨r, hr, h⟩ := h
    split at h
    · cases h
      exact ((readsSoundly _).expression hr).word
    · cases h

/-- What does not count is read without a trace. -/
theorem vars_of_dead (h : expression limit false vars cs = .ok r) : r.vars = vars :=
  ((readsSoundly limit).expression h).kept rfl

end CompositionGen.Script.Arithmetic
