import CompositionGen.Proofs.Sequences
import CompositionGen.Script.Pattern

/-!
# What patterns match

A pattern stands for the texts that are put together from what its parts stand for, and glyphs that
are no pattern stand for themselves alone. What an expansion cuts off is the shortest or the longest
piece that its pattern stands for.
-/

namespace CompositionGen.Script

namespace PatternPart

variable {parts : List PatternPart} {cs text : List Char}

/-- Parts stand for a text. -/
inductive StandFor : List PatternPart → List Char → Prop where
  | nil : StandFor [] []
  | anyText {parts : List PatternPart} {cs : List Char} (skipped : List Char)
    (rest : StandFor parts cs) : StandFor (.anyText :: parts) (skipped ++ cs)
  | one {part : PatternPart} {parts : List PatternPart} {c : Char} {cs : List Char}
    (hpart : part ≠ .anyText) (hc : part.admits c = true) (rest : StandFor parts cs) :
    StandFor (part :: parts) (c :: cs)

theorem standFor_anyText_cons_iff {c : Char} :
    StandFor (.anyText :: parts) (c :: cs) ↔
      StandFor parts (c :: cs) ∨ StandFor (.anyText :: parts) cs := by
  constructor
  · intro h
    generalize htext : c :: cs = text at h
    cases h with
    | anyText skipped rest =>
      cases skipped with
      | nil =>
        left
        exact rest
      | cons d skipped =>
        right
        obtain ⟨rfl, rfl⟩ := List.cons.inj htext
        exact .anyText skipped rest
    | one hpart hc rest => exact absurd rfl hpart
  · rintro (h | h)
    · exact .anyText [] h
    · cases h with
      | anyText skipped rest => exact .anyText (c :: skipped) rest
      | one hpart hc rest => exact absurd rfl hpart

/-- Matching decides what parts stand for. -/
theorem matchesAll_iff : matchesAll parts cs = true ↔ StandFor parts cs := by
  fun_induction matchesAll parts cs with
  | case1 cs =>
    rw [List.isEmpty_iff]
    constructor
    · rintro rfl
      exact .nil
    · rintro ⟨⟩
      rfl
  | case2 parts ih =>
    rw [ih]
    constructor
    · exact .anyText []
    · intro h
      -- A part for any text stands for a piece in front of the rest, so the text is generalized
      -- before the cases.
      generalize htext : ([] : List Char) = text at h
      cases h with
      | anyText skipped rest =>
        obtain ⟨rfl, rfl⟩ := List.append_eq_nil_iff.mp htext.symm
        exact rest
      | one hpart hc rest => exact absurd rfl hpart
  | case3 parts c cs ih1 ih2 =>
    rw [Bool.or_eq_true, ih1, ih2, standFor_anyText_cons_iff]
  | case4 part parts c cs hpart ih =>
    rw [Bool.and_eq_true, ih]
    constructor
    · rintro ⟨hc, hrest⟩
      exact .one (fun h => hpart h) hc hrest
    · intro h
      generalize htext : c :: cs = text at h
      cases h with
      | anyText skipped rest => exact absurd rfl hpart
      | one _ hc rest =>
        obtain ⟨rfl, rfl⟩ := List.cons.inj htext
        exact ⟨hc, rest⟩
  | case5 part parts hpart =>
    refine iff_of_false Bool.false_ne_true ?_
    intro h
    generalize htext : ([] : List Char) = text at h
    cases h with
    | anyText skipped rest => exact hpart rfl
    | one _ hc rest => cases htext

theorem standFor_exactly_iff : StandFor (cs.map .exactly) text ↔ text = cs := by
  induction cs generalizing text with
  | nil =>
    constructor
    · rintro ⟨⟩
      rfl
    · rintro rfl
      exact .nil
  | cons c cs ih =>
    rw [List.map_cons]
    constructor
    · intro h
      cases h with
      | one hpart hc rest => rw [ih.mp rest, of_decide_eq_true hc]
    · rintro rfl
      exact .one (by simp) (decide_eq_true rfl) (ih.mpr rfl)

end PatternPart

variable {parts : List PatternPart} {glyphs : List Glyph} {cs text : List Char}

/-! ## Glyphs that are no pattern -/

/-- A glyph is read as itself or with others as a part that stands for more than one text. -/
theorem exists_parse_cons (limit : Nat) (g : Glyph) (rest : List Glyph) :
    ∃ part after,
      PatternPart.parse (limit + 1) (g :: rest) = part :: PatternPart.parse limit after ∧
      ∀ c, part = .exactly c → c = g.char ∧ after = rest := by
  have hplain : ∀ c, PatternPart.exactly g.char = .exactly c → c = g.char ∧ rest = rest := by
    rintro c ⟨⟩
    exact ⟨rfl, rfl⟩
  rw [PatternPart.parse]
  split
  · exact ⟨_, rest, rfl, hplain⟩
  · split
    · refine ⟨_, rest, rfl, ?_⟩
      rintro c ⟨⟩
    · split
      · refine ⟨_, rest, rfl, ?_⟩
        rintro c ⟨⟩
      · split
        · split
          · rename_i part after hbrackets
            refine ⟨part, after, rfl, ?_⟩
            unfold PatternPart.brackets? at hbrackets
            dsimp only at hbrackets
            rw [Option.map_eq_some_iff] at hbrackets
            obtain ⟨_, -, heq⟩ := hbrackets
            cases heq
            rintro c ⟨⟩
          · exact ⟨_, rest, rfl, hplain⟩
        · exact ⟨_, rest, rfl, hplain⟩

theorem parse_of_exactly {limit : Nat} (hlimit : glyphs.length < limit)
    (h : ∀ part ∈ PatternPart.parse limit glyphs, ∃ c, part = .exactly c) :
    PatternPart.parse limit glyphs = (glyphs.map (·.char)).map .exactly := by
  induction limit generalizing glyphs with
  | zero => exact absurd hlimit (Nat.not_lt_zero _)
  | succ limit ih =>
    cases glyphs with
    | nil => rfl
    | cons g rest =>
      obtain ⟨part, after, hparse, hpart⟩ := exists_parse_cons limit g rest
      rw [hparse] at h ⊢
      obtain ⟨⟨c, rfl⟩, hafter⟩ := List.forall_mem_cons.mp h
      obtain ⟨rfl, rfl⟩ := hpart c rfl
      rw [ih (Nat.lt_of_succ_lt_succ hlimit) hafter]
      rfl

/-- Glyphs without a meaning of their own stand for their characters and for nothing else. -/
theorem matchesAll_of_not_hasPattern (h : hasPattern glyphs = false) :
    PatternPart.matchesAll (patternOf glyphs) text = true ↔ text = glyphs.map (·.char) := by
  have hexact : ∀ part ∈ patternOf glyphs, ∃ c, part = .exactly c := by
    intro part hpart
    have hnot := List.any_eq_false.mp h part hpart
    cases part with
    | exactly c => exact ⟨c, rfl⟩
    | _ => exact absurd rfl hnot
  rw [PatternPart.matchesAll_iff, patternOf, parse_of_exactly (Nat.lt_succ_self _) hexact,
    PatternPart.standFor_exactly_iff]

/-! ## Cutting off what matches -/

/-- A number is the best of some: the greatest or the least. -/
def IsBest (greatest : Bool) (among : Nat → Prop) (n : Nat) : Prop :=
  among n ∧ ∀ other, among other → if greatest then other ≤ n else n ≤ other

theorem isBest_of_find? {greatest : Bool} {k n : Nat} {p : Nat → Bool}
    (h : (if greatest then (List.range (k + 1)).reverse else List.range (k + 1)).find? p
      = some n) : IsBest greatest (fun i => i ≤ k ∧ p i = true) n := by
  have hmem : n ∈ List.range (k + 1) := by
    have hn := List.mem_of_find?_eq_some h
    split at hn
    · exact List.mem_reverse.mp hn
    · exact hn
  refine ⟨⟨Nat.le_of_lt_succ (List.mem_range.mp hmem), List.find?_some h⟩, ?_⟩
  rintro i ⟨hi, hp⟩
  have himem : i ∈ List.range (k + 1) := List.mem_range.mpr (Nat.lt_succ_of_le hi)
  cases greatest with
  | true =>
    rw [if_pos rfl] at h ⊢
    have hdown := List.pairwise_reverse.mpr (List.pairwise_lt_range (n := k + 1))
    rcases rel_of_find? hdown h (List.mem_reverse.mpr himem) hp with rfl | hlt
    · exact Nat.le_refl i
    · exact Nat.le_of_lt hlt
  | false =>
    rw [if_neg Bool.false_ne_true] at h ⊢
    rcases rel_of_find? List.pairwise_lt_range h himem hp with rfl | hlt
    · exact Nat.le_refl i
    · exact Nat.le_of_lt hlt

/-- The piece of so many characters at one of the ends of a text. -/
def pieceAt (atEnd : Bool) (cs : List Char) (n : Nat) : List Char :=
  if atEnd then cs.drop (cs.length - n) else cs.take n

/-- A text loses the best piece that its pattern stands for, and stays whole if there is none. -/
theorem cutMatch_spec (atEnd longest : Bool) (parts : List PatternPart) (cs : List Char) :
    ((∀ n ≤ cs.length, ¬PatternPart.StandFor parts (pieceAt atEnd cs n)) ∧
        cutMatch atEnd longest parts cs = cs) ∨
      ∃ n, IsBest longest (fun n => n ≤ cs.length ∧
          PatternPart.StandFor parts (pieceAt atEnd cs n)) n ∧
        cs = if atEnd then cutMatch atEnd longest parts cs ++ pieceAt atEnd cs n
          else pieceAt atEnd cs n ++ cutMatch atEnd longest parts cs := by
  have hstand : ∀ n, PatternPart.matchesAll parts
      (if atEnd then cs.drop (cs.length - n) else cs.take n) = true ↔
        PatternPart.StandFor parts (pieceAt atEnd cs n) :=
    fun n => PatternPart.matchesAll_iff
  unfold cutMatch
  dsimp only
  -- Lengths are tried in the order in which the best of them comes first.
  split
  · rename_i hnone
    left
    refine ⟨?_, rfl⟩
    intro n hn hmatch
    refine List.find?_eq_none.mp hnone n ?_ ((hstand n).mpr hmatch)
    have hmem : n ∈ List.range (cs.length + 1) := List.mem_range.mpr (Nat.lt_succ_of_le hn)
    split
    · exact List.mem_reverse.mpr hmem
    · exact hmem
  · rename_i n hfound
    right
    have hbest := isBest_of_find? hfound
    simp only [hstand] at hbest
    refine ⟨n, hbest, ?_⟩
    cases atEnd with
    | true => exact (List.take_append_drop (cs.length - n) cs).symm
    | false => exact (List.take_append_drop n cs).symm

end CompositionGen.Script
