import CompositionGen.Files.Path
import CompositionGen.Proofs.Text.ByteStrings
import CompositionGen.Proofs.Text.Splitting

/-!
# Names at the end of paths

A name that an entry of a directory may have is one component of its own, so that a path joined
with it has the components of the path and the name after them. The path above another one is never
that path itself.
-/

namespace CompositionGen.Path

/-- Whether an entry of a directory may have a name: it is not empty, no dots that stand for a
directory, and without slashes. -/
def isEntryName (name : ByteString) : Bool :=
  !isBlankPiece name && name != ".." && !name.toList.contains '/'

variable {name : ByteString} {p q : Path} {names : List ByteString}

theorem isEntryName_iff : isEntryName name = true ↔
    name ≠ "" ∧ name ≠ "." ∧ name ≠ ".." ∧ '/' ∉ name.toList := by
  simp [isEntryName, isBlankPiece, and_assoc]

theorem isEntryName_of_mem {c : Char} (hs : '/' ∉ name.toList)
    (hc : c ∈ name.toList) (hd : c ≠ '.') : isEntryName name = true := by
  rw [isEntryName_iff]
  refine ⟨?_, ?_, ?_, hs⟩
  all_goals
    rintro rfl
    simp [hd] at hc

/-- What makes a name one of an entry is ASCII, and so the same in its bytes. -/
theorem isEntryName_ofText {text : String} :
    isEntryName (.ofText text) = true ↔ isEntryName text = true := by
  have hofText {ascii : String} (h : ByteString.ofText ascii = ascii) :
      ByteString.ofText text = ascii ↔ text = ascii :=
    ⟨fun ht => ByteString.ofText_injective (ht.trans h.symm), fun ht => ht ▸ h⟩
  rw [isEntryName_iff, isEntryName_iff, ByteString.mem_ofText (by decide), Ne, Ne, Ne,
    hofText (by decide +kernel), hofText (by decide +kernel), hofText (by decide +kernel)]

theorem isEntryName_display (h : isEntryName name = true) : isEntryName name.display = true := by
  obtain ⟨he, hd, hdd, hs⟩ := isEntryName_iff.mp h
  rw [isEntryName_iff]
  refine ⟨fun heq => he ?_, fun heq => hd ?_, fun heq => hdd ?_, fun hm => hs ?_⟩
  · exact ByteString.eq_of_display (by decide) heq
  · exact ByteString.eq_of_display (by decide) heq
  · exact ByteString.eq_of_display (by decide) heq
  · exact ByteString.mem_of_mem_display (by decide) hm

theorem innerComponent?_name (h : isEntryName name = true) :
    innerComponent? name = some (.name name) := by
  obtain ⟨he, hd, hdd, -⟩ := isEntryName_iff.mp h
  simp [innerComponent?, isBlankPiece, he, hd, hdd]

theorem firstComponent?_name (h : isEntryName name = true) :
    firstComponent? false name = some (.name name) := by
  obtain ⟨-, hd, -, -⟩ := isEntryName_iff.mp h
  simp [firstComponent?, hd, innerComponent?_name h]

theorem pieces_name (h : isEntryName name = true) : pieces ⟨name⟩ = [name] := by
  obtain ⟨-, -, -, hs⟩ := isEntryName_iff.mp h
  rw [pieces, Text.split_eq_singleton hs]
  simp

theorem stepOf_name (h : isEntryName name = true) : stepOf name = .down name := by
  obtain ⟨he, hd, hdd, -⟩ := isEntryName_iff.mp h
  simp [stepOf, isBlankPiece, he, hd, hdd]

theorem isAbsolute_name (h : isEntryName name = true) : isAbsolute ⟨name⟩ = false := by
  obtain ⟨he, -, -, hs⟩ := isEntryName_iff.mp h
  rw [isAbsolute]
  rcases hl : name.toList with _ | ⟨d, rest⟩
  · rfl
  · have hd : '/' ≠ d := by
      rintro rfl
      simp [hl] at hs
    simp [List.isPrefixOf, hd]

theorem components_name (h : isEntryName name = true) : components ⟨name⟩ = [.name name] := by
  simp [components, pieces_name h, isAbsolute_name h, firstComponent?_name h]

/-- A piece after a slash is read like every piece that is not the first. -/
theorem components_append {front : List String} {first piece : String}
    (hq : q.pieces = first :: front ++ [piece]) : q.components =
      (firstComponent? q.isAbsolute first).toList ++ front.filterMap innerComponent? ++
        (innerComponent? piece).toList := by
  rw [components, hq]
  cases hp : innerComponent? piece with
  | none => simp [hp]
  | some component => simp [hp]

theorem pieces_append_slash (text rest : String) : pieces ⟨text ++ "/" ++ rest⟩ =
    pieces ⟨text⟩ ++ pieces ⟨rest⟩ := by
  simp [pieces, Text.split_append_cons]

theorem isAbsolute_append {text : String} (h : text ≠ "") (rest : String) :
    isAbsolute ⟨text ++ rest⟩ = isAbsolute ⟨text⟩ := by
  rw [isAbsolute, isAbsolute, String.toList_append]
  rcases hl : text.toList with _ | ⟨d, tail⟩
  · exact absurd (String.toList_eq_nil_iff.mp hl) h
  · simp [List.isPrefixOf]

theorem pieces_ne_nil (p : Path) : p.pieces ≠ [] := by
  rw [pieces, Ne, List.map_eq_nil_iff]
  exact Text.split_ne_nil '/' _

theorem components_join_of_slash {text : String} (h : isEntryName name = true) :
    components ⟨text ++ "/" ++ name⟩ = components ⟨text ++ "/"⟩ ++ [.name name] := by
  obtain ⟨first, front, hp⟩ := List.exists_cons_of_ne_nil (pieces_ne_nil ⟨text⟩)
  have hslash : pieces ⟨text ++ "/"⟩ = first :: front ++ [""] := by
    have := pieces_append_slash text ""
    rwa [String.append_empty, hp] at this
  have hname : pieces ⟨text ++ "/" ++ name⟩ = first :: front ++ [name] := by
    rw [pieces_append_slash, hp, pieces_name h]
  rw [components_append hname, components_append hslash, isAbsolute_append (by simp),
    innerComponent?_name h]
  simp [innerComponent?, isBlankPiece]

theorem components_join_of_ne {text : String} (ht : text ≠ "") (h : isEntryName name = true) :
    components ⟨text ++ "/" ++ name⟩ = components ⟨text⟩ ++ [.name name] := by
  obtain ⟨first, front, hp⟩ := List.exists_cons_of_ne_nil (pieces_ne_nil ⟨text⟩)
  have hname : pieces ⟨text ++ "/" ++ name⟩ = first :: front ++ [name] := by
    rw [pieces_append_slash, hp, pieces_name h]
  rw [components_append hname, String.append_assoc, isAbsolute_append ht, innerComponent?_name h,
    components, hp]
  rfl

/-- A path joined with the name of an entry leads to one more component. -/
theorem components_join_name (p : Path) (h : isEntryName name = true) :
    (p.join ⟨name⟩).components = p.components ++ [.name name] := by
  obtain ⟨text⟩ := p
  rw [join, isAbsolute_name h, if_neg Bool.false_ne_true]
  -- A slash is put between unless the path is empty or ends in one.
  by_cases he : text = ""
  · subst he
    show components ⟨"" ++ name⟩ = [.name name]
    rw [String.empty_append, components_name h]
  · split
    · rename_i hl
      have hlast : text.toList.getLast? = some '/' := by
        simpa [he] using hl
      obtain ⟨front, hf⟩ := List.getLast?_eq_some_iff.mp hlast
      obtain rfl : text = String.ofList front ++ "/" := by
        rw [← String.toList_inj, hf]
        simp
      exact components_join_of_slash h
    · exact components_join_of_ne he h

/-- Paths joined with two names of entries lead to different places unless the names are equal. -/
theorem same_join_iff {other : String} (p : Path) (h : isEntryName name = true)
    (h' : isEntryName other = true) :
    (p.join ⟨name⟩).same (p.join ⟨other⟩) = true ↔ name = other := by
  rw [same, beq_iff_eq, components_join_name p h, components_join_name p h']
  simp

/-! ## The path above -/

/-- The path above another one is the empty one, the root, or has the first of its pieces. -/
theorem parent?_cases {above : Path} (h : p.parent? = some above) :
    above = ⟨""⟩ ∨ above = ⟨"/"⟩ ∨ ∃ first kept more, p.pieces = first :: (kept ++ more) ∧
      more ≠ [] ∧ above = ⟨Text.joinTexts "/" (first :: kept)⟩ := by
  unfold parent? at h
  split at h
  · cases h
  · next first rest hpieces =>
    split at h
    · split at h
      · cases h
      · exact .inl (Option.some.inj h).symm
    · next last earlier hrest =>
      dsimp only at h
      split at h
      · exact .inr (.inl (Option.some.inj h).symm)
      · obtain ⟨skipped, hskipped⟩ := List.dropWhile_suffix isBlankPiece (l := earlier)
        obtain ⟨blank, hblank⟩ := List.dropWhile_suffix isBlankPiece (l := rest.reverse)
        refine .inr (.inr ⟨first, (earlier.dropWhile isBlankPiece).reverse,
          (blank ++ last :: skipped).reverse, ?_, by simp, (Option.some.inj h).symm⟩)
        rw [hpieces, ← List.reverse_append, List.append_assoc, List.cons_append, hskipped, ← hrest,
          hblank, List.reverse_reverse]

/-- A path goes on after the one above it. -/
theorem parent?_ne {above : Path} (h : p.parent? = some above) : above ≠ p := by
  rintro rfl
  obtain hempty | hroot | ⟨first, kept, more, hpieces, hmore, habove⟩ := parent?_cases h
  · rw [hempty] at h
    exact absurd h (by decide +kernel)
  · rw [hroot] at h
    exact absurd h (by decide +kernel)
  · have hsplit : Text.split '/' above.text.toList = above.pieces.map String.toList := by
      simp [pieces, Function.comp_def]
    have hmore' : more.map String.toList ≠ [] := by simpa using hmore
    have hlength := congrArg (List.length ∘ String.toList ∘ text) habove
    have hwhole := congrArg List.length (Text.join_split '/' above.text.toList)
    rw [hsplit, hpieces, ← List.cons_append, List.map_append,
      Text.join_append (by simp) hmore', List.length_append, List.length_cons] at hwhole
    simp only [Function.comp_apply, Text.joinTexts, String.toList_ofList] at hlength
    have hslash : "/".toList = ['/'] := by decide
    rw [hslash] at hlength
    omega

end CompositionGen.Path
