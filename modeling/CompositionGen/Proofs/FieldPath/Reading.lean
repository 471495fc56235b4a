import CompositionGen.FieldPath.Parser
import Mathlib.Data.List.Basic

/-!
# How a path is read

A text is cut at its next special character: it begins with a run of name characters, with a
bracket that is closed or not, or with a character that no step begins with. What reading does is
stated for each of these shapes, so that later proofs follow the shapes and not the reader.
-/

namespace CompositionGen.FieldPath

/-! ## Cutting off one step -/

/-- A text at which no name goes on: it is empty or begins with a special character. -/
def EndsName (cs : List Char) : Prop := ∀ c ∈ cs.head?, Segment.isNameChar c = false

/-- How a text begins, up to the place where its first step is cut off. -/
inductive Shape : List Char → Prop where
  | nil : Shape []
  | dot (rest : List Char) : Shape ('.' :: rest)
  | closing (rest : List Char) : Shape (']' :: rest)
  | unterminated {rest : List Char} : ']' ∉ rest → Shape ('[' :: rest)
  | bracket {inner after : List Char} : ']' ∉ inner → Shape ('[' :: (inner ++ ']' :: after))
  | name {name after : List Char} : name ≠ [] → (∀ c ∈ name, Segment.isNameChar c = true) →
      EndsName after → Shape (name ++ after)

theorem isNameChar_iff {c : Char} :
    Segment.isNameChar c = true ↔ c ≠ '.' ∧ c ≠ '[' ∧ c ≠ ']' := by
  simp [Segment.isNameChar, and_assoc]

theorem endsName_cons {c : Char} {cs : List Char} :
    EndsName (c :: cs) ↔ c = '.' ∨ c = '[' ∨ c = ']' := by
  simp only [EndsName, List.head?_cons, Option.mem_def, Option.some.injEq, forall_eq']
  rw [← Bool.not_eq_true, isNameChar_iff]
  tauto

theorem splitName_append {name after : List Char} (hn : ∀ c ∈ name, Segment.isNameChar c = true)
    (ha : EndsName after) : splitName (name ++ after) = (name, after) := by
  induction name with
  | nil =>
    cases after with
    | nil => rfl
    | cons c rest =>
      rw [List.nil_append, splitName, if_neg]
      rw [ha c (by simp)]
      exact Bool.false_ne_true
  | cons c name ih =>
    obtain ⟨hc, hname⟩ := List.forall_mem_cons.mp hn
    rw [List.cons_append, splitName, if_pos hc, ih hname]

theorem exists_name (cs : List Char) : ∃ name after, cs = name ++ after ∧
    (∀ c ∈ name, Segment.isNameChar c = true) ∧ EndsName after := by
  refine ⟨cs.takeWhile Segment.isNameChar, cs.dropWhile Segment.isNameChar,
    List.takeWhile_append_dropWhile.symm, fun c hc => ?_, fun c hc => ?_⟩
  · exact List.all_eq_true.mp List.all_takeWhile c hc
  · have h := List.head?_dropWhile_not Segment.isNameChar cs
    rw [Option.mem_def.mp hc] at h
    exact h

theorem splitBracket_append {inner : List Char} (h : ']' ∉ inner) (after : List Char) :
    splitBracket (inner ++ ']' :: after) = some (inner, after) := by
  induction inner with
  | nil => rfl
  | cons c inner ih =>
    rw [List.mem_cons, not_or] at h
    rw [List.cons_append, splitBracket, ih h.2]
    · rfl
    · exact fun hc => h.1 hc.symm

theorem splitBracket_eq_none {cs : List Char} (h : ']' ∉ cs) : splitBracket cs = none := by
  induction cs with
  | nil => rfl
  | cons c rest ih =>
    rw [List.mem_cons, not_or] at h
    rw [splitBracket, ih h.2]
    · rfl
    · exact fun hc => h.1 hc.symm

theorem shape_of (cs : List Char) : Shape cs := by
  cases cs with
  | nil => exact .nil
  | cons c rest =>
    by_cases hdot : c = '.'
    · exact hdot ▸ .dot rest
    by_cases hclosing : c = ']'
    · exact hclosing ▸ .closing rest
    by_cases hopening : c = '['
    · subst hopening
      by_cases h : ']' ∈ rest
      · obtain ⟨inner, after, rfl, hi⟩ := List.eq_append_cons_of_mem h
        exact .bracket hi
      · exact .unterminated h
    · obtain ⟨name, after, rfl, hn, ha⟩ := exists_name rest
      exact .name (List.cons_ne_nil c name)
        (List.forall_mem_cons.mpr ⟨isNameChar_iff.mpr ⟨hdot, hopening, hclosing⟩, hn⟩) ha

/-! ## Reading on after one step -/

section Reading

variable {offset : Nat} {afterDot : Bool}

/-- What reading does behind a step: a dot is consumed, and a name has to follow it. -/
def parseOn (offset : Nat) (segment : Segment) (after : List Char) :
    Except ParseError (List Segment) :=
  match after with
  | '.' :: rest => (parseFrom (offset + 1) true rest).map (segment :: ·)
  | after => (parseFrom offset false after).map (segment :: ·)

theorem parseOn_dot (segment : Segment) (rest : List Char) :
    parseOn offset segment ('.' :: rest) =
      (parseFrom (offset + 1) true rest).map (segment :: ·) := rfl

theorem parseOn_of_head?_ne {segment : Segment} {after : List Char} (h : after.head? ≠ some '.') :
    parseOn offset segment after = (parseFrom offset false after).map (segment :: ·) := by
  rw [parseOn]
  rintro rest rfl
  exact h rfl

theorem parseFrom_nil :
    parseFrom offset afterDot [] = if afterDot then .error (.emptyField offset) else .ok [] := by
  rw [parseFrom]

theorem parseFrom_dot (rest : List Char) :
    parseFrom offset afterDot ('.' :: rest) = .error (.emptyField offset) := by
  rw [parseFrom]

theorem parseFrom_closing (rest : List Char) :
    parseFrom offset afterDot (']' :: rest) = .error (.unexpected ']' offset) := by
  rw [parseFrom]

theorem parseFrom_opening_afterDot (rest : List Char) :
    parseFrom offset true ('[' :: rest) = .error (.emptyField offset) := by
  rw [parseFrom]
  rfl

theorem parseFrom_unterminated {rest : List Char} (h : ']' ∉ rest) :
    parseFrom offset false ('[' :: rest) = .error (.unterminated offset) := by
  rw [parseFrom, if_neg Bool.false_ne_true]
  split
  · rfl
  · rename_i hs
    rw [splitBracket_eq_none h] at hs
    cases hs

theorem parseFrom_name {name after : List Char} (hne : name ≠ [])
    (hn : ∀ c ∈ name, Segment.isNameChar c = true) (ha : EndsName after) :
    parseFrom offset afterDot (name ++ after) =
      parseOn (offset + byteLength name) (.field (String.ofList name)) after := by
  obtain ⟨c, name, rfl⟩ := List.exists_cons_of_ne_nil hne
  obtain ⟨hc, hname⟩ := List.forall_mem_cons.mp hn
  obtain ⟨hdot, hopening, hclosing⟩ := isNameChar_iff.mp hc
  rw [List.cons_append, parseFrom]
  · simp only [splitName_append hname ha]
    split
    · rename_i hd
      obtain ⟨rest, rfl⟩ := List.head?_eq_some_iff.mp hd
      rfl
    · rename_i hd
      rw [parseOn_of_head?_ne hd]
  · exact hdot
  · exact hclosing
  · exact hopening

/-- What is read of a bracket, with what follows it still to be read. -/
theorem parseFrom_opening {inner : List Char} (h : ']' ∉ inner) (after : List Char) :
    parseFrom offset false ('[' :: (inner ++ ']' :: after)) =
      match bracketSegment offset inner with
      | .error e => .error e
      | .ok segment =>
        let next := offset + byteLength inner + 2
        match after.head? with
        | none => .ok [segment]
        | some '[' => (parseFrom next false after).map (segment :: ·)
        | some '.' => (parseFrom (next + 1) true after.tail).map (segment :: ·)
        | some c => .error (.unexpected (leadByte c) next) := by
  rw [parseFrom, if_neg Bool.false_ne_true]
  split
  · rename_i hs
    rw [splitBracket_append h] at hs
    cases hs
  · rename_i inner' after' hs
    rw [splitBracket_append h] at hs
    cases hs
    rfl

theorem parseFrom_bracket {inner after : List Char} (h : ']' ∉ inner)
    (ha : ∀ c ∈ after.head?, c = '.' ∨ c = '[') :
    parseFrom offset false ('[' :: (inner ++ ']' :: after)) =
      (bracketSegment offset inner).bind fun segment =>
        parseOn (offset + byteLength inner + 2) segment after := by
  rw [parseFrom_opening h]
  cases bracketSegment offset inner with
  | error e => rfl
  | ok segment =>
    cases after with
    | nil =>
      show Except.ok [segment] = parseOn (offset + byteLength inner + 2) segment []
      rw [parseOn_of_head?_ne (by simp), parseFrom_nil]
      rfl
    | cons d rest =>
      rcases ha d rfl with rfl | rfl
      · rfl
      · rfl

/-- Behind a bracket only a dot or another bracket may follow. -/
theorem parseFrom_bracket_unexpected {inner rest : List Char} {c : Char} (h : ']' ∉ inner)
    (hdot : c ≠ '.') (hopening : c ≠ '[') :
    parseFrom offset false ('[' :: (inner ++ ']' :: c :: rest)) =
      (bracketSegment offset inner).bind fun _ =>
        .error (.unexpected (leadByte c) (offset + byteLength inner + 2)) := by
  rw [parseFrom_opening h]
  cases bracketSegment offset inner with
  | error e => rfl
  | ok segment =>
    simp only [List.head?_cons]
    rfl

end Reading

end CompositionGen.FieldPath
