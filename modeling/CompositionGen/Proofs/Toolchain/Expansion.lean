import CompositionGen.Toolchain
import CompositionGen.Proofs.Dictionary
import CompositionGen.Proofs.Text.ByteStrings
import CompositionGen.Proofs.Text.Replacing

/-!
# Putting paths into commands

The path of an artifact is put into a text first, and the path of the unit after that. This is the
same as putting in both at once, unless the end of an inserted artifact path begins a placeholder of
the unit, alone or with the text behind it: that one is replaced as well.
-/

namespace CompositionGen.Toolchain

/-- Every placeholder of a text is replaced by its path and all the rest stays, all at once. -/
inductive Substituted (output unit : List Char) : List Char → List Char → Prop where
  | nil : Substituted output unit [] []
  | output {text result : List Char} : Substituted output unit text result →
      Substituted output unit (outputMark ++ text) (output ++ result)
  | unit {text result : List Char} : Substituted output unit text result →
      Substituted output unit (unitMark ++ text) (unit ++ result)
  | char {c : Char} {text result : List Char} :
      ¬outputMark <+: c :: text → ¬unitMark <+: c :: text →
      Substituted output unit text result → Substituted output unit (c :: text) (c :: result)

/-- The end of an inserted path, with what follows it, begins a placeholder of the unit. -/
def Reopens (output after : List Char) : Prop :=
  ∃ tail, tail ≠ [] ∧ tail <:+ output ∧ unitMark <+: tail ++ after

/-- Somewhere in a text the artifact's path is put in where it begins a placeholder of the unit. -/
def ExpandedAgain (output text : List Char) : Prop :=
  ∃ after, outputMark ++ after <:+ text ∧ Reopens output after

/-! ## The two placeholders -/

/-- The characters of a placeholder after its opening brace. -/
def outputName : List Char := outputMark.tail

/-- The characters of a placeholder after its opening brace. -/
def unitName : List Char := unitMark.tail

theorem outputMark_eq : outputMark = '{' :: outputName := by decide

theorem unitMark_eq : unitMark = '{' :: unitName := by decide

theorem not_mem_outputName : '{' ∉ outputName := by decide

theorem not_mem_unitName : '{' ∉ unitName ∧ '/' ∉ unitName := by decide

theorem marks_differ (text : List Char) :
    ¬outputMark <+: unitMark ++ text ∧ ¬unitMark <+: outputMark ++ text := by
  have houtput : outputName = 'o' :: outputName.tail := by decide
  have hunit : unitName = 'u' :: unitName.tail := by decide
  rw [outputMark_eq, unitMark_eq, houtput, hunit]
  simp

variable {output unit text result after : List Char} {c : Char}

theorem replace_outputMark_unitMark (output text : List Char) :
    Text.replace outputMark output (unitMark ++ text) =
      unitMark ++ Text.replace outputMark output text := by
  refine Text.replace_append fun tail hne htail => ?_
  rw [unitMark_eq, List.suffix_cons_iff] at htail
  rcases htail with rfl | htail
  · rw [← unitMark_eq]
    exact (marks_differ text).1
  · rw [outputMark_eq]
    exact Text.not_prefix_of_not_mem not_mem_unitName.1 hne htail

theorem occurrences_outputMark (text : List Char) :
    Text.occurrences unitMark (outputMark ++ text) = Text.occurrences unitMark text := by
  have hfirst := (marks_differ text).2
  rw [outputMark_eq, List.cons_append] at hfirst ⊢
  rw [Text.occurrences_cons_of_not hfirst, unitMark_eq,
    Text.occurrences_append_of_not_mem not_mem_outputName]

theorem occurrences_unitMark (text : List Char) :
    Text.occurrences unitMark (unitMark ++ text) = Text.occurrences unitMark text + 1 := by
  rw [unitMark_eq]
  exact Text.occurrences_word not_mem_unitName.1

theorem eq_or_suffix (h : outputMark ++ after <:+ outputMark ++ text) :
    after = text ∨ outputMark ++ after <:+ text := by
  rw [outputMark_eq, List.cons_append, List.cons_append, List.suffix_cons_iff] at h
  rcases h with heq | h
  · exact .inl (List.append_cancel_left (List.cons.inj heq).2)
  · rw [outputMark_eq]
    exact .inr (Text.suffix_of_append not_mem_outputName h)

theorem suffix_of_unitMark (h : outputMark ++ after <:+ unitMark ++ text) :
    outputMark ++ after <:+ text := by
  have hfirst := (marks_differ text).1
  rw [unitMark_eq, List.cons_append] at h hfirst
  rcases List.suffix_cons_iff.mp h with heq | h
  · exact absurd ⟨after, heq⟩ hfirst
  · rw [outputMark_eq, List.cons_append] at h ⊢
    exact Text.suffix_of_append not_mem_unitName.1 h

/-- Whatever a text is, it has one of the shapes that are told apart. -/
theorem exists_substituted (output unit text : List Char) :
    ∃ result, Substituted output unit text result := by
  induction hn : text.length using Nat.strongRecOn generalizing text with
  | _ n ih =>
    by_cases houtput : outputMark <+: text
    · obtain ⟨rest, rfl⟩ := houtput
      have hlt : rest.length < n := by
        rw [← hn, List.length_append, outputMark_eq, List.length_cons]
        omega
      obtain ⟨result, h⟩ := ih rest.length hlt rest rfl
      exact ⟨_, h.output⟩
    by_cases hunit : unitMark <+: text
    · obtain ⟨rest, rfl⟩ := hunit
      have hlt : rest.length < n := by
        rw [← hn, List.length_append, unitMark_eq, List.length_cons]
        omega
      obtain ⟨result, h⟩ := ih rest.length hlt rest rfl
      exact ⟨_, h.unit⟩
    cases text with
    | nil => exact ⟨[], .nil⟩
    | cons c rest =>
      obtain ⟨result, h⟩ := ih rest.length (by rw [← hn]; exact Nat.lt_succ_self _) rest rfl
      exact ⟨_, .char houtput hunit h⟩

/-! ## One path after the other -/

section

variable (hroot : output.head? = some '/')

include hroot

/-- What goes on a placeholder that is begun is not put in, as inserted paths begin with a slash. -/
theorem prefix_replace_iff {word : List Char} (hbrace : '{' ∉ word) (hslash : '/' ∉ word)
    (text : List Char) : word <+: Text.replace outputMark output text ↔ word <+: text := by
  induction word generalizing text with
  | nil => simp
  | cons c word ih =>
    rw [List.mem_cons, not_or] at hbrace hslash
    by_cases hmark : outputMark <+: text
    · obtain ⟨rest, rfl⟩ := hmark
      -- A brace stood here, and now a slash does: the word goes on with neither.
      obtain ⟨others, rfl⟩ := List.head?_eq_some_iff.mp hroot
      rw [Text.replace_word (by decide), outputMark_eq, List.cons_append, List.cons_append,
        List.cons_prefix_cons, List.cons_prefix_cons]
      exact iff_of_false (fun h => hslash.1 h.1.symm) fun h => hbrace.1 h.1.symm
    · cases text with
      | nil => rfl
      | cons d text =>
        rw [Text.replace_cons hmark, List.cons_prefix_cons, List.cons_prefix_cons,
          ih hbrace.2 hslash.2]

theorem prefix_append_replace_iff {word : List Char} (hbrace : '{' ∉ word) (hslash : '/' ∉ word)
    (before text : List Char) :
    word <+: before ++ Text.replace outputMark output text ↔ word <+: before ++ text := by
  induction before generalizing word with
  | nil => exact prefix_replace_iff hroot hbrace hslash text
  | cons c before ih =>
    cases word with
    | nil => simp
    | cons d word =>
      rw [List.mem_cons, not_or] at hbrace hslash
      rw [List.cons_append, List.cons_append, List.cons_prefix_cons, List.cons_prefix_cons,
        ih hbrace.2 hslash.2]

theorem unitMark_prefix_iff {before : List Char} (hne : before ≠ []) (text : List Char) :
    unitMark <+: before ++ Text.replace outputMark output text ↔ unitMark <+: before ++ text := by
  obtain ⟨c, before, rfl⟩ := List.exists_cons_of_ne_nil hne
  rw [unitMark_eq, List.cons_append, List.cons_append, List.cons_prefix_cons,
    List.cons_prefix_cons, prefix_append_replace_iff hroot not_mem_unitName.1 not_mem_unitName.2]

theorem not_prefix_replace (h : ¬unitMark <+: c :: text) :
    ¬unitMark <+: c :: Text.replace outputMark output text :=
  (unitMark_prefix_iff hroot (List.cons_ne_nil c []) text).not.mpr h

theorem reopens_replace_iff :
    Reopens output (Text.replace outputMark output text) ↔ Reopens output text :=
  exists_congr fun _ => and_congr_right fun hne => and_congr_right fun _ =>
    unitMark_prefix_iff hroot hne text

theorem replace_eq_of_substituted (h : Substituted output unit text result)
    (honce : ¬ExpandedAgain output text) :
    Text.replace unitMark unit (Text.replace outputMark output text) = result := by
  have later {before text : List Char} (h : ¬ExpandedAgain output (before ++ text)) :
      ¬ExpandedAgain output text := fun ⟨after, hafter, hreopens⟩ =>
    h ⟨after, hafter.trans (List.suffix_append before text), hreopens⟩
  induction h with
  | nil => rfl
  | @output text result _ ih =>
    have hclosed : ¬Reopens output text := fun hreopens =>
      honce ⟨text, List.suffix_refl _, hreopens⟩
    rw [← reopens_replace_iff hroot] at hclosed
    rw [Text.replace_word (by decide), Text.replace_append, ih (later honce)]
    exact fun tail hne htail hprefix => hclosed ⟨tail, hne, htail, hprefix⟩
  | @unit text result _ ih =>
    rw [replace_outputMark_unitMark, Text.replace_word (by decide), ih (later honce)]
  | @char c text result houtput hunit _ ih =>
    have honce' : ¬ExpandedAgain output ([c] ++ text) := honce
    rw [Text.replace_cons houtput, Text.replace_cons (not_prefix_replace hroot hunit),
      ih (later honce')]

omit hroot in
theorem count_of_substituted (h : Substituted output unit text result) :
    result.count '/' = (Text.replace outputMark output text).count '/' +
      Text.occurrences unitMark text * unit.count '/' := by
  induction h with
  | nil =>
    have hnone : Text.occurrences unitMark [] = 0 := by decide
    rw [hnone, Nat.zero_mul]
    rfl
  | @output text result _ ih =>
    rw [Text.replace_word (by decide), occurrences_outputMark, List.count_append,
      List.count_append, ih, Nat.add_assoc]
  | @unit text result _ ih =>
    have hmark : unitMark.count '/' = 0 := by decide
    rw [replace_outputMark_unitMark, occurrences_unitMark, List.count_append, List.count_append,
      hmark, ih, Nat.succ_mul]
    omega
  | @char c text result houtput hunit _ ih =>
    rw [Text.replace_cons houtput, Text.occurrences_cons_of_not hunit, List.count_cons,
      List.count_cons, ih]
    omega

/-- Putting in artifact paths takes away no placeholder of the unit, and may add some. -/
theorem occurrences_of_substituted (h : Substituted output unit text result) :
    Text.occurrences unitMark text ≤
        Text.occurrences unitMark (Text.replace outputMark output text) ∧
      (ExpandedAgain output text → Text.occurrences unitMark text <
        Text.occurrences unitMark (Text.replace outputMark output text)) := by
  induction h with
  | nil =>
    refine ⟨Nat.le_refl _, fun ⟨after, hafter, _⟩ => ?_⟩
    exact absurd (List.suffix_nil.mp hafter) (by rw [outputMark_eq]; exact List.cons_ne_nil _ _)
  | @output text result _ ih =>
    rw [Text.replace_word (by decide), occurrences_outputMark]
    refine ⟨ih.1.trans (Text.occurrences_le_append _ output _), ?_⟩
    rintro ⟨after, hafter, hreopens⟩
    -- The path that is expanded again is the one just put in, or one that comes later.
    rcases eq_or_suffix hafter with rfl | hafter
    · obtain ⟨tail, hne, htail, hprefix⟩ := (reopens_replace_iff hroot).mpr hreopens
      exact ih.1.trans_lt (Text.occurrences_lt_append hne htail hprefix)
    · exact (ih.2 ⟨after, hafter, hreopens⟩).trans_le (Text.occurrences_le_append _ output _)
  | @unit text result _ ih =>
    rw [replace_outputMark_unitMark, occurrences_unitMark, occurrences_unitMark]
    refine ⟨Nat.succ_le_succ ih.1, fun ⟨after, hafter, hreopens⟩ => ?_⟩
    exact Nat.succ_lt_succ (ih.2 ⟨after, suffix_of_unitMark hafter, hreopens⟩)
  | @char c text result houtput hunit _ ih =>
    rw [Text.replace_cons houtput, Text.occurrences_cons_of_not hunit,
      Text.occurrences_cons_of_not (not_prefix_replace hroot hunit)]
    refine ⟨ih.1, fun ⟨after, hafter, hreopens⟩ => ih.2 ⟨after, ?_, hreopens⟩⟩
    rcases List.suffix_cons_iff.mp hafter with heq | hafter
    · exact absurd ⟨after, heq⟩ houtput
    · exact hafter

/-- Putting one path in after the other is putting both in at once exactly if no inserted path is
expanded again. -/
theorem substituted_replace_iff (hunit : '/' ∈ unit) :
    Substituted output unit text
        (Text.replace unitMark unit (Text.replace outputMark output text)) ↔
      ¬ExpandedAgain output text := by
  constructor
  · intro h hagain
    -- Each slash of the unit's path that comes in shows a placeholder that was expanded.
    have hcount := count_of_substituted h
    have hreplace : (Text.replace unitMark unit (Text.replace outputMark output text)).count '/' =
        (Text.replace outputMark output text).count '/' +
          Text.occurrences unitMark (Text.replace outputMark output text) * unit.count '/' := by
      rw [unitMark_eq]
      exact Text.count_replace not_mem_unitName.1 (by decide) _ _
    have hmore := (occurrences_of_substituted hroot h).2 hagain
    have hslash : 0 < unit.count '/' := List.count_pos_iff.mpr hunit
    have hlt := Nat.mul_lt_mul_of_pos_right hmore hslash
    omega
  · intro honce
    obtain ⟨result, h⟩ := exists_substituted output unit text
    rwa [replace_eq_of_substituted hroot h honce]

end

/-- A path is never expanded again exactly if no placeholder of the unit is in it and none begins
with its end. -/
theorem never_expandedAgain_iff : (∀ text, ¬ExpandedAgain output text) ↔
    ¬unitMark <:+: output ∧ ∀ tail, tail ≠ [] → tail <:+ output → ¬tail <+: unitMark := by
  constructor
  · refine fun h => ⟨?_, ?_⟩
    · rintro ⟨before, rest, rfl⟩
      have hne : unitMark ++ rest ≠ [] := by simp [unitMark_eq]
      refine h outputMark ⟨[], by rw [List.append_nil], unitMark ++ rest, hne, ?_, ?_⟩
      · exact ⟨before, by rw [List.append_assoc]⟩
      · exact ⟨rest, by rw [List.append_nil]⟩
    · rintro tail hne htail ⟨rest, hrest⟩
      exact h (outputMark ++ rest) ⟨rest, List.suffix_refl _, tail, hne, htail, by rw [hrest]⟩
  · rintro ⟨hnone, hend⟩ text ⟨after, -, tail, hne, htail, hprefix⟩
    rcases List.prefix_or_prefix_of_prefix hprefix (List.prefix_append tail after) with h | h
    · exact hnone (h.isInfix.trans htail.isInfix)
    · exact hend tail hne htail h

/-! ## Commands -/

theorem head?_absolute (fs : FileSystem) (p : Path) :
    (fs.absolute p).text.toList.head? = some '/' := by
  unfold FileSystem.absolute Path.join
  split
  · next h =>
    obtain ⟨rest, hrest⟩ := List.isPrefixOf_iff_prefix.mp h
    rw [← hrest]
    rfl
  · split <;> simp [FileSystem.pathOf]

theorem head?_display_absolute (fs : FileSystem) (p : Path) :
    (fs.absolute p).display.toList.head? = some '/' :=
  ByteString.head?_display (by decide) (head?_absolute fs p)

theorem slash_mem_display_absolute (fs : FileSystem) (p : Path) :
    '/' ∈ (fs.absolute p).display.toList :=
  List.mem_of_mem_head? (head?_display_absolute fs p)

/-- What is given in the place of a text is the text with the paths put in, both at once, exactly if
nothing in it is expanded again. -/
def GivenFor (output source text : String) (given : ByteString) : Prop :=
  ∃ result, given.text? = some result ∧
    (Substituted output.toList source.toList text.toList result.toList ↔
      ¬ExpandedAgain output.toList text.toList)

theorem givenFor_expand (fs : FileSystem) (artifact unit : Path) (text : String) :
    let output := (fs.absolute artifact).display
    let source := (fs.absolute unit).display
    GivenFor output source text (.ofText (expand output source text)) := by
  intro output source
  refine ⟨_, ByteString.text?_ofText _, ?_⟩
  unfold expand
  rw [String.toList_ofList]
  exact substituted_replace_iff (head?_display_absolute fs artifact)
    (slash_mem_display_absolute fs unit)

theorem get?_programCommand (program : String) (args : List String)
    (env : List (String × String)) (fs : FileSystem) (unit : BuildUnit) (artifact : Path)
    (name : String) :
    let output := (fs.absolute artifact).display
    let source := (fs.absolute unit.sourcePath).display
    (programCommand program args env fs unit artifact).env.get? name =
      if name = unitVariable then some (.ofText source)
      else (env.filterMap fun e => if e.1 = name then some e.2 else none).getLast?.map
        fun text => .ofText (expand output source text) := by
  intro output source
  have hgiven : (env.map fun e => (e.1, ByteString.ofText (expand output source e.2))).filterMap
        (fun e => if e.1 = name then some e.2 else none) =
      (env.filterMap fun e => if e.1 = name then some e.2 else none).map
        fun text => ByteString.ofText (expand output source text) := by
    rw [List.filterMap_map, List.map_filterMap]
    refine List.filterMap_congr fun e _ => ?_
    rw [Function.comp_apply]
    split
    · rfl
    · rfl
  show ((Dictionary.empty.insertAll
    (env.map fun e => (e.1, ByteString.ofText (expand output source e.2)))).insert
      unitVariable (.ofText source)).get? name = _
  have hempty : (Dictionary.empty : Dictionary ByteString).get? name = none := rfl
  rw [Dictionary.get?_insert, Dictionary.get?_insertAll, hgiven, List.getLast?_map, hempty,
    Option.or_none]

/-- Each argument of a command and each of its variables is a configured text with the paths of the
artifact and the unit put in, except for the one that always holds the unit's path. No inserted text
is expanded again, unless somewhere the end of the artifact's path begins a placeholder of the unit;
then what is given is something else. This cannot happen, whatever texts are configured, exactly if
the artifact's path holds no such placeholder and does not end with the beginning of one. -/
theorem programCommand_expands_iff (program : String) (args : List String)
    (env : List (String × String)) (fs : FileSystem) (unit : BuildUnit) (artifact : Path) :
    let output := (fs.absolute artifact).display
    let source := (fs.absolute unit.sourcePath).display
    let command := programCommand program args env fs unit artifact
    List.Forall₂ (GivenFor output source) args command.args ∧
    (∀ name, name ≠ unitVariable → Option.Rel (GivenFor output source)
      (env.filterMap fun e => if e.1 = name then some e.2 else none).getLast?
      (command.env.get? name)) ∧
    command.env.get? unitVariable = some (.ofText source) ∧
    ((∀ text, ¬ExpandedAgain output.toList text) ↔ ¬unitMark <:+: output.toList ∧
      ∀ tail, tail ≠ [] → tail <:+ output.toList → ¬tail <+: unitMark) := by
  intro output source command
  refine ⟨?_, fun name hname => ?_, ?_, never_expandedAgain_iff⟩
  · show List.Forall₂ (GivenFor output source) args
      (args.map fun text => ByteString.ofText (expand output source text))
    rw [List.forall₂_map_right_iff, List.forall₂_same]
    exact fun text _ => givenFor_expand fs artifact unit.sourcePath text
  · rw [get?_programCommand, if_neg hname]
    cases (env.filterMap fun e => if e.1 = name then some e.2 else none).getLast? with
    | none => exact .none
    | some text => exact .some (givenFor_expand fs artifact unit.sourcePath text)
  · rw [get?_programCommand, if_pos rfl]

theorem programCommand_expands_iff_touch :
    let fs : FileSystem := ⟨.directory [], []⟩
    let unit : BuildUnit := ⟨⟨"/src/example"⟩, "example"⟩
    let artifact : Path := ⟨"/plugins/example.so"⟩
    let command := programCommand "sh" ["-c", "touch \x7boutput\x7d"] [("UNIT", "\x7bunit\x7d")]
      fs unit artifact
    command.args = ["-c", "touch /plugins/example.so"] ∧
      command.env.get? "UNIT" = some "/src/example" ∧
      Substituted "/plugins/example.so".toList "/src/example".toList
        "touch \x7boutput\x7d".toList "touch /plugins/example.so".toList := by
  intro fs unit artifact command
  obtain ⟨hargs, -, -, hnever⟩ := programCommand_expands_iff "sh" ["-c", "touch \x7boutput\x7d"]
    [("UNIT", "\x7bunit\x7d")] fs unit artifact
  have hcommand : command.args = ["-c", "touch /plugins/example.so"] := by decide +kernel
  have houtput : (fs.absolute artifact).display = "/plugins/example.so" := by decide +kernel
  have hsource : (fs.absolute unit.sourcePath).display = "/src/example" := by decide +kernel
  have honce : ∀ text, ¬ExpandedAgain "/plugins/example.so".toList text := by
    rw [houtput] at hnever
    refine hnever.mpr ⟨fun h => ?_, fun tail hne htail hprefix => ?_⟩
    · have hmem : '{' ∈ "/plugins/example.so".toList := h.subset (by decide)
      exact absurd hmem (by decide)
    · have hlast : tail.getLast hne = 'o' := by
        rw [htail.getLast hne]
        rfl
      have hmem : 'o' ∈ unitMark := hprefix.subset (hlast ▸ List.getLast_mem hne)
      exact absurd hmem (by decide)
  refine ⟨hcommand, by decide +kernel, ?_⟩
  change List.Forall₂ _ _ command.args at hargs
  rw [hcommand, houtput, hsource] at hargs
  cases hargs with
  | cons _ hargs =>
    cases hargs with
    | cons hgiven _ =>
      obtain ⟨result, hresult, hgiven⟩ := hgiven
      have htouch : result = "touch /plugins/example.so" :=
        Option.some.inj (hresult.symm.trans (by decide +kernel))
      rw [htouch] at hgiven
      exact hgiven.mpr (honce _)

/-- The artifact's path stands in the command with the unit's path put in for a part of it. -/
theorem programCommand_expands_twice :
    let fs : FileSystem := ⟨.directory [], []⟩
    let unit : BuildUnit := ⟨⟨"/src/\x7bunit\x7d"⟩, "unit"⟩
    let artifact : Path := ⟨"/plugins/\x7bunit\x7d.so"⟩
    let output := (fs.absolute artifact).display.toList
    let source := (fs.absolute unit.sourcePath).display.toList
    (programCommand "touch" ["\x7boutput\x7d"] [] fs unit artifact).args =
        ["/plugins//src/\x7bunit\x7d.so"] ∧
      Substituted output source outputMark "/plugins/\x7bunit\x7d.so".toList ∧
      ¬Substituted output source outputMark "/plugins//src/\x7bunit\x7d.so".toList := by
  intro fs unit artifact output source
  have hgiven : Text.replace unitMark source (Text.replace outputMark output outputMark) =
      "/plugins//src/\x7bunit\x7d.so".toList := by decide +kernel
  have houtput : output = "/plugins/\x7bunit\x7d.so".toList := by decide +kernel
  have hsuffix : unitMark ++ ".so".toList <:+ output :=
    ⟨"/plugins/".toList, by decide +kernel⟩
  refine ⟨by decide +kernel, ?_, ?_⟩
  · rw [← houtput]
    have hnil : Substituted output source [] [] := .nil
    have hmark := hnil.output
    rwa [List.append_nil, List.append_nil] at hmark
  · rw [← hgiven, substituted_replace_iff (head?_display_absolute fs artifact)
      (slash_mem_display_absolute fs unit.sourcePath), not_not]
    refine ⟨[], ?_, _, ?_, hsuffix, ?_⟩
    · rw [List.append_nil]
    · rw [unitMark_eq]
      exact List.cons_ne_nil _ _
    · rw [List.append_assoc]
      exact List.prefix_append unitMark _

end CompositionGen.Toolchain
