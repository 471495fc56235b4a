import CompositionGen.Text.Split

/-!
# Cutting and joining

Joining with a separator undoes cutting at it, so a text is determined by its parts. What is cut
out of parts that were joined is what is cut out of each of them.
-/

namespace CompositionGen.Text

variable {c : Char} {text a b : List Char} {parts : List (List Char)}

theorem split_ne_nil (c : Char) (text : List Char) : split c text ≠ [] := by
  cases text with
  | nil => simp [split]
  | cons d rest =>
    rw [split]
    split
    · exact List.cons_ne_nil _ _
    · split
      · exact List.cons_ne_nil _ _
      · exact List.cons_ne_nil _ _

theorem split_cons_of_ne {d : Char} {part : List Char} (hd : d ≠ c)
    (h : split c text = part :: parts) : split c (d :: text) = (d :: part) :: parts := by
  rw [split, if_neg hd, h]

theorem split_append_cons (c : Char) (a b : List Char) :
    split c (a ++ c :: b) = split c a ++ split c b := by
  induction a with
  | nil => simp [split]
  | cons d a ih =>
    rw [List.cons_append]
    by_cases hd : d = c
    · rw [split, if_pos hd, split, if_pos hd, ih, List.cons_append]
    · obtain ⟨part, parts, hs⟩ := List.exists_cons_of_ne_nil (split_ne_nil c a)
      rw [split_cons_of_ne hd hs, split_cons_of_ne hd (ih.trans (by rw [hs, List.cons_append])),
        List.cons_append]

theorem split_eq_singleton (h : c ∉ text) : split c text = [text] := by
  induction text with
  | nil => rfl
  | cons d rest ih =>
    rw [List.mem_cons, not_or] at h
    exact split_cons_of_ne (Ne.symm h.1) (ih h.2)

theorem flatMap_split_eq_self (h : ∀ part ∈ parts, c ∉ part) :
    parts.flatMap (split c) = parts := by
  induction parts with
  | nil => rfl
  | cons part parts ih =>
    obtain ⟨hpart, hrest⟩ := List.forall_mem_cons.mp h
    rw [List.flatMap_cons, split_eq_singleton hpart, ih hrest, List.singleton_append]

/-- Parts that each come after a separator are cut apart there. -/
theorem split_append_flatMap {part : List Char} (hpart : c ∉ part) (h : ∀ p ∈ parts, c ∉ p) :
    split c (part ++ parts.flatMap (c :: ·)) = part :: parts := by
  induction parts generalizing part with
  | nil => rw [List.flatMap_nil, List.append_nil, split_eq_singleton hpart]
  | cons next parts ih =>
    obtain ⟨hnext, hrest⟩ := List.forall_mem_cons.mp h
    rw [List.flatMap_cons, List.cons_append, split_append_cons, split_eq_singleton hpart,
      ih hnext hrest, List.singleton_append]

theorem join_cons_cons (c : Char) (part next : List Char) (parts : List (List Char)) :
    join [c] (part :: next :: parts) = part ++ c :: join [c] (next :: parts) := by
  simp [join]

theorem join_append {others : List (List Char)} (hne : parts ≠ []) (hne' : others ≠ []) :
    join [c] (parts ++ others) = join [c] parts ++ c :: join [c] others := by
  obtain ⟨next, others, rfl⟩ := List.exists_cons_of_ne_nil hne'
  induction parts with
  | nil => exact absurd rfl hne
  | cons part parts ih =>
    cases parts with
    | nil => exact join_cons_cons c part next others
    | cons second parts =>
      rw [List.cons_append, List.cons_append, join_cons_cons, ← List.cons_append,
        ih (List.cons_ne_nil _ _), join_cons_cons, List.append_assoc, List.cons_append]

theorem join_split (c : Char) (text : List Char) : join [c] (split c text) = text := by
  induction text with
  | nil => rfl
  | cons d rest ih =>
    obtain ⟨part, parts, hs⟩ := List.exists_cons_of_ne_nil (split_ne_nil c rest)
    by_cases hd : d = c
    · rw [split, if_pos hd, hs, join_cons_cons, ← hs, ih, hd, List.nil_append]
    · rw [split_cons_of_ne hd hs, ← ih, hs]
      cases parts with
      | nil => rfl
      | cons next parts => rw [join_cons_cons, join_cons_cons, List.cons_append]

/-- A text is determined by the parts that it is cut into. -/
theorem split_inj : split c a = split c b ↔ a = b := by
  constructor
  · intro h
    rw [← join_split c a, h, join_split]
  · exact congrArg (split c)

theorem split_join (h : parts ≠ []) : split c (join [c] parts) = parts.flatMap (split c) := by
  induction parts with
  | nil => exact absurd rfl h
  | cons part parts ih =>
    cases parts with
    | nil => simp [join]
    | cons next parts =>
      rw [join_cons_cons, split_append_cons, ih (List.cons_ne_nil _ _)]
      rfl

theorem mem_join {d : Char} (hd : d ∈ join [c] parts) : d = c ∨ ∃ part ∈ parts, d ∈ part := by
  induction parts with
  | nil => simp [join] at hd
  | cons part parts ih =>
    cases parts with
    | nil => exact .inr ⟨part, List.mem_cons_self, hd⟩
    | cons next parts =>
      rw [join_cons_cons, List.mem_append, List.mem_cons] at hd
      rcases hd with hd | rfl | hd
      · exact .inr ⟨part, List.mem_cons_self, hd⟩
      · exact .inl rfl
      · rcases ih hd with hd | ⟨other, ho, hd⟩
        · exact .inl hd
        · exact .inr ⟨other, List.mem_cons_of_mem _ ho, hd⟩

end CompositionGen.Text
