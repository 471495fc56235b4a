import CompositionGen.Text.Split
import Mathlib.Data.List.Basic
import Mathlib.Data.List.Infix

/-!
# Replacing a marked word

A word whose first character does not come again in it, such as a name in braces, never overlaps
another occurrence of itself. So replacing it goes from one occurrence to the next, and how often
any other character comes afterwards depends only on the number of occurrences.
-/

namespace CompositionGen.Text

/-- The number of places where a word begins in a text. -/
def occurrences (word text : List Char) : Nat := text.tails.countP word.isPrefixOf

variable {word replacement text a b : List Char} {c first : Char}

theorem replaceFrom_append (word replacement a b : List Char) :
    replaceFrom word replacement a.length (a ++ b) = replace word replacement b := by
  induction a with
  | nil => rfl
  | cons c a ih => exact ih

theorem replace_word (hne : word ≠ []) (b : List Char) :
    replace word replacement (word ++ b) = replacement ++ replace word replacement b := by
  obtain ⟨c, rest, rfl⟩ := List.exists_cons_of_ne_nil hne
  have hprefix : (c :: rest).isPrefixOf (c :: (rest ++ b)) = true :=
    List.isPrefixOf_iff_prefix.mpr (List.prefix_append (c :: rest) b)
  rw [replace, List.cons_append, replaceFrom, if_pos hprefix]
  exact congrArg (replacement ++ ·) (replaceFrom_append (c :: rest) replacement rest b)

theorem replace_cons (h : ¬word <+: c :: text) :
    replace word replacement (c :: text) = c :: replace word replacement text := by
  rw [replace, replaceFrom, if_neg fun hp => h (List.isPrefixOf_iff_prefix.mp hp)]
  rfl

/-- Text in which no occurrence begins is left as it is. -/
theorem replace_append (h : ∀ tail, tail ≠ [] → tail <:+ a → ¬word <+: tail ++ b) :
    replace word replacement (a ++ b) = a ++ replace word replacement b := by
  induction a with
  | nil => rfl
  | cons c a ih =>
    have hfirst : ¬word <+: c :: (a ++ b) := h (c :: a) (List.cons_ne_nil c a) (List.suffix_refl _)
    rw [List.cons_append, replace_cons hfirst,
      ih fun tail hne htail => h tail hne (htail.trans (List.suffix_cons c a))]
    rfl

/-- Pieces in which the word is replaced whatever follows them are replaced one by one. -/
theorem replace_flatMap {α : Type} {f g : α → List Char}
    (h : ∀ x b, replace word replacement (f x ++ b) = g x ++ replace word replacement b)
    (items : List α) : replace word replacement (items.flatMap f) = items.flatMap g := by
  induction items with
  | nil => rfl
  | cons x rest ih => rw [List.flatMap_cons, h, ih, List.flatMap_cons]

/-! ## Counting occurrences -/

theorem occurrences_cons (word : List Char) (c : Char) (text : List Char) :
    occurrences word (c :: text) =
      occurrences word text + if word.isPrefixOf (c :: text) then 1 else 0 := by
  rw [occurrences, List.tails_cons, List.countP_cons]
  rfl

theorem occurrences_cons_of_first (h : word <+: c :: text) :
    occurrences word (c :: text) = occurrences word text + 1 := by
  rw [occurrences_cons, if_pos (List.isPrefixOf_iff_prefix.mpr h)]

theorem occurrences_cons_of_not (h : ¬word <+: c :: text) :
    occurrences word (c :: text) = occurrences word text := by
  rw [occurrences_cons, if_neg fun hp => h (List.isPrefixOf_iff_prefix.mp hp), Nat.add_zero]

theorem occurrences_le_append (word a b : List Char) :
    occurrences word b ≤ occurrences word (a ++ b) := by
  induction a with
  | nil => exact Nat.le_refl _
  | cons c a ih =>
    rw [List.cons_append, occurrences_cons]
    omega

theorem occurrences_lt_append {tail : List Char} (hne : tail ≠ []) (htail : tail <:+ a)
    (h : word <+: tail ++ b) : occurrences word b < occurrences word (a ++ b) := by
  obtain ⟨before, rfl⟩ := htail
  obtain ⟨c, rest, rfl⟩ := List.exists_cons_of_ne_nil hne
  have hbegins : occurrences word (c :: (rest ++ b)) = occurrences word (rest ++ b) + 1 :=
    occurrences_cons_of_first h
  have hrest := occurrences_le_append word rest b
  have hbefore := occurrences_le_append word before (c :: (rest ++ b))
  rw [List.append_assoc, List.cons_append]
  omega

/-! ## Words that do not overlap -/

/-- The first character is needed where an occurrence begins. -/
theorem not_prefix_of_not_mem (h : first ∉ a) {tail : List Char} (hne : tail ≠ [])
    (htail : tail <:+ a) : ¬first :: word <+: tail ++ b := by
  obtain ⟨c, rest, rfl⟩ := List.exists_cons_of_ne_nil hne
  intro hprefix
  obtain ⟨rfl, -⟩ := List.cons_prefix_cons.mp hprefix
  exact h (htail.subset List.mem_cons_self)

theorem occurrences_append_of_not_mem (h : first ∉ a) :
    occurrences (first :: word) (a ++ b) = occurrences (first :: word) b := by
  induction a with
  | nil => rfl
  | cons c a ih =>
    rw [List.cons_append, occurrences_cons_of_not, ih fun hm => h (List.mem_cons_of_mem c hm)]
    exact not_prefix_of_not_mem h (List.cons_ne_nil c a) (List.suffix_refl _)

theorem suffix_of_append (h : first ∉ a) (hs : first :: word <:+ a ++ b) :
    first :: word <:+ b := by
  induction a with
  | nil => exact hs
  | cons c a ih =>
    rw [List.mem_cons, not_or] at h
    rw [List.cons_append, List.suffix_cons_iff] at hs
    rcases hs with heq | hs
    · exact absurd (List.cons.inj heq).1 h.1
    · exact ih h.2 hs

theorem occurrences_word (h : first ∉ word) :
    occurrences (first :: word) (first :: (word ++ b)) = occurrences (first :: word) b + 1 := by
  have hprefix : first :: word <+: first :: (word ++ b) := List.prefix_append (first :: word) b
  rw [occurrences_cons_of_first hprefix, occurrences_append_of_not_mem h]

/-- Each occurrence makes room for one replacement. -/
theorem count_replace {x : Char} (h : first ∉ word) (hx : x ∉ first :: word)
    (replacement text : List Char) :
    (replace (first :: word) replacement text).count x =
      text.count x + occurrences (first :: word) text * replacement.count x := by
  -- An occurrence is replaced as a whole, so what is left may be shorter by more than one.
  induction hn : text.length using Nat.strongRecOn generalizing text with
  | _ n ih =>
    by_cases hprefix : first :: word <+: text
    · obtain ⟨rest, rfl⟩ := hprefix
      have hlt : rest.length < n := by
        rw [← hn, List.length_append, List.length_cons]
        omega
      rw [replace_word (List.cons_ne_nil first word), List.count_append,
        ih rest.length hlt rest rfl, List.count_append, List.count_eq_zero_of_not_mem hx,
        List.cons_append, occurrences_word h, Nat.succ_mul]
      omega
    · cases text with
      | nil => simp [replace, replaceFrom, occurrences]
      | cons c text =>
        rw [replace_cons hprefix, occurrences_cons_of_not hprefix, List.count_cons, List.count_cons,
          ih text.length (by rw [← hn]; exact Nat.lt_succ_self _) text rfl]
        omega

end CompositionGen.Text
