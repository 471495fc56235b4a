import CompositionGen.BuildUnit.Discovery
import CompositionGen.Proofs.Dictionary
import CompositionGen.Proofs.Files.Following
import CompositionGen.Toolchain

/-!
# Names of artifacts

The name of an artifact forgets which of its underscores stand for slashes, and what the names on
the way are where they are no texts. Two units have the same name, and with it the same artifact and
the same target directory, exactly when their ways from the search root, as they are shown, are the
same once they are cut at underscores too.
-/

namespace CompositionGen.BuildUnit

variable {fs : FileSystem} {root : Path} {marker : String} {exclude : List Path}
  {units : List BuildUnit} {location : Location} {unit : BuildUnit}

/-- The way from the search root to a unit as it is shown, cut at slashes and at underscores; for
the search root the name of its directory. -/
def parts (fs : FileSystem) (root : Path) (unit : BuildUnit) : List (List Char) :=
  match (root.below? unit.sourcePath).getD unit.sourcePath.components with
  | [] => Text.split '_' (directoryName fs root).toList
  | components => components.flatMap fun component => Text.split '_' component.text.display.toList

theorem toList_joinTexts (names : List String) :
    (Text.joinTexts "_" names).toList = Text.join ['_'] (names.map String.toList) := by
  simp [Text.joinTexts]

theorem split_artifactName (fs : FileSystem) (root sourcePath : Path) :
    Text.split '_' (of fs root sourcePath).artifactName.toList =
      (of fs root sourcePath).parts fs root := by
  cases hc : (root.below? sourcePath).getD sourcePath.components with
  | nil => simp only [of, parts, hc]
  | cons first rest =>
    simp only [of, parts, hc]
    rw [nameOf, toList_joinTexts, Text.split_join (by simp)]
    simp only [List.flatMap_map]

/-- Two units have the same name exactly when their ways have the same parts. -/
theorem artifactName_eq_iff {p q : Path} :
    (of fs root p).artifactName = (of fs root q).artifactName ↔
      (of fs root p).parts fs root = (of fs root q).parts fs root := by
  rw [← split_artifactName, ← split_artifactName, Text.split_inj, String.toList_inj]

/-! ## What is found -/

theorem components_joinAll (root : Path) (h : ∀ name ∈ location, Path.isEntryName name = true) :
    (root.joinAll location).components = root.components ++ location.map .name := by
  unfold Path.joinAll
  induction location generalizing root with
  | nil => simp
  | cons name rest ih =>
    obtain ⟨hname, hrest⟩ := List.forall_mem_cons.mp h
    rw [List.foldl_cons, ih (root.join ⟨name⟩) hrest, Path.components_join_name root hname]
    simp

theorem below?_joinAll (root : Path) (h : ∀ name ∈ location, Path.isEntryName name = true) :
    root.below? (root.joinAll location) = some (location.map .name) := by
  simp [Path.below?, components_joinAll root h]

/-- Where the units of a search lie. -/
theorem found_eq (h : found fs root marker exclude = .ok units) : ∃ start marked,
    fs.walkRoot root = .ok start ∧ List.Sublist marked (searched exclude start) ∧
      units = marked.map fun location => of fs root (root.joinAll location) := by
  unfold found at h
  split at h
  · cases h
  · rename_i start hs
    split at h
    · cases h
    · cases h
      exact ⟨start, _, hs, List.filter_sublist, rfl⟩

theorem of_mem_searched {start : WalkRoot} (hs : start.node.isWellFormed = true)
    (h : location ∈ searched exclude start) :
    start.node.hasDirectoryAt location = true ∧
      ∀ name ∈ location, Path.isEntryName name = true := by
  have hd : start.node.hasDirectoryAt location = true := by
    rw [searched, List.mem_append, FileNode.mem_directoriesBelow_iff hs] at h
    rcases h with h | ⟨name, rest, rfl, hd, -⟩
    · split at h
      · rename_i hin
        rw [List.mem_singleton.mp h]
        exact (Bool.and_eq_true_iff.mp hin).1
      · cases h
    · exact hd
  refine ⟨hd, ?_⟩
  rw [FileNode.hasDirectoryAt, Option.any_eq_true] at hd
  obtain ⟨child, hat, -⟩ := hd
  exact (FileNode.of_at? hs hat).2

theorem nodup_searched {start : WalkRoot} (hs : start.node.isWellFormed = true) :
    (searched exclude start).Nodup := by
  rw [searched, List.nodup_append]
  refine ⟨?_, FileNode.nodup_directoriesBelow hs, ?_⟩
  · split
    · simp
    · exact .nil
  · rintro location hm _ hm' rfl
    obtain ⟨name, rest, rfl, -, -⟩ := (FileNode.mem_directoriesBelow_iff hs).mp hm'
    split at hm
    · simp at hm
    · cases hm

/-! ## Names of artifacts as names of entries -/

theorem isEntryName_joinTexts {names : List String} (hne : names ≠ [])
    (h : ∀ name ∈ names, Path.isEntryName name = true) :
    Path.isEntryName (Text.joinTexts "_" names) = true := by
  match names, hne with
  | [name], _ =>
    have : Text.joinTexts "_" [name] = name := by simp [Text.joinTexts, Text.join]
    rw [this]
    exact h name List.mem_cons_self
  | first :: second :: rest, _ =>
    refine Path.isEntryName_of_mem (c := '_') ?_ ?_ (by decide)
    · rw [toList_joinTexts]
      intro hm
      rcases Text.mem_join hm with hc | ⟨part, hp, hm⟩
      · cases hc
      · obtain ⟨name, hn, rfl⟩ := List.mem_map.mp hp
        exact (Path.isEntryName_iff.mp (h name hn)).2.2.2 hm
    · rw [toList_joinTexts, List.map_cons, List.map_cons, Text.join_cons_cons]
      simp

theorem isEntryName_directoryName (hw : fs.root.isWellFormed = true) :
    Path.isEntryName (directoryName fs root) = true := by
  unfold directoryName
  rcases hl : fs.locate root with cause | location
  · show Path.isEntryName "root" = true
    decide
  · obtain ⟨node, hat⟩ := FileSystem.at?_of_locate hl
    have hnames := (FileNode.of_at? hw hat).2
    rcases hlast : location.getLast? with _ | name
    · simp only [Except.toOption, Option.bind_some, hlast, Option.elim_none]
      decide
    · simp only [Except.toOption, Option.bind_some, hlast, Option.elim_some]
      exact Path.isEntryName_display (hnames name (List.mem_of_getLast? hlast))

theorem isEntryName_artifactName (hw : fs.root.isWellFormed = true)
    (h : ∀ name ∈ location, Path.isEntryName name = true) :
    Path.isEntryName (of fs root (root.joinAll location)).artifactName = true := by
  rw [of]
  dsimp only
  rw [below?_joinAll root h, Option.getD_some]
  split
  · exact isEntryName_directoryName hw
  · rename_i hne
    rw [nameOf, List.map_map]
    refine isEntryName_joinTexts (by simpa using hne) fun shown hshown => ?_
    obtain ⟨name, hname, rfl⟩ := List.mem_map.mp hshown
    exact Path.isEntryName_display (h name hname)

theorem isEntryName_artifactFile (h : Path.isEntryName unit.artifactName = true) :
    Path.isEntryName unit.artifactFile = true := by
  have hs := (Path.isEntryName_iff.mp h).2.2.2
  refine Path.isEntryName_of_mem (c := 's') ?_ ?_ (by decide)
  · simp [artifactFile, hs]
  · simp [artifactFile]

theorem same_join_ofText_iff {name other : String} (p : Path)
    (h : Path.isEntryName name = true) (h' : Path.isEntryName other = true) :
    (p.join (.ofText name)).same (p.join (.ofText other)) = true ↔ name = other := by
  rw [Path.ofText, Path.ofText, Path.same_join_iff p (Path.isEntryName_ofText.mpr h)
    (Path.isEntryName_ofText.mpr h'), ByteString.ofText_injective.eq_iff]

/-- The directory in which cargo is told to keep what it makes of a unit. -/
theorem get?_targetVariable (cargo : String) (targetRoot : Path) (release : Bool)
    (host : FileSystem) (unit : BuildUnit) :
    (Toolchain.cargoCommand cargo targetRoot release host unit).env.get?
        Toolchain.targetVariable =
      some ((host.absolute targetRoot).join (.ofText unit.artifactName)).text := by
  rw [Toolchain.cargoCommand, Dictionary.get?_insert, if_neg (by decide), Dictionary.get?_insert,
    if_pos rfl]

/-! ## Units of a search -/

theorem discover_perm (h : discover fs root marker exclude = .ok units) :
    ∃ earlier, found fs root marker exclude = .ok earlier ∧ units.Perm earlier := by
  rw [discover, Outcome.map_ok_iff] at h
  obtain ⟨earlier, hf, rfl⟩ := h
  exact ⟨earlier, hf, List.mergeSort_perm earlier mayPrecede⟩

theorem walkRoot_isWellFormed (hw : fs.root.isWellFormed = true) {start : WalkRoot}
    (h : fs.walkRoot root = .ok start) : start.node.isWellFormed = true :=
  (FileNode.of_at? hw (FileSystem.at?_of_walkRoot h)).1

/-- A unit of a search is the unit of a location below its root. -/
theorem of_mem_discover (hw : fs.root.isWellFormed = true)
    (h : discover fs root marker exclude = .ok units) (hu : unit ∈ units) :
    ∃ location, (∀ name ∈ location, Path.isEntryName name = true) ∧
      unit = of fs root (root.joinAll location) := by
  obtain ⟨earlier, hf, hp⟩ := discover_perm h
  obtain ⟨start, marked, hs, hm, rfl⟩ := found_eq hf
  obtain ⟨location, hl, rfl⟩ := List.mem_map.mp (hp.mem_iff.mp hu)
  exact ⟨location, (of_mem_searched (walkRoot_isWellFormed hw hs) (hm.mem hl)).2, rfl⟩

/-- No directory is a unit twice. -/
theorem nodup_sourcePath (hw : fs.root.isWellFormed = true)
    (h : discover fs root marker exclude = .ok units) : (units.map sourcePath).Nodup := by
  obtain ⟨earlier, hf, hp⟩ := discover_perm h
  obtain ⟨start, marked, hs, hm, rfl⟩ := found_eq hf
  have hstart := walkRoot_isWellFormed hw hs
  rw [(hp.map sourcePath).nodup_iff, List.map_map, List.Nodup, List.pairwise_map]
  refine (hm.nodup (nodup_searched hstart)).imp_of_mem fun {a b} ha hb hne heq => hne ?_
  -- Paths below one root with the same components have been led through the same names.
  have hcomponents : (root.joinAll a).components = (root.joinAll b).components :=
    congrArg Path.components heq
  rw [components_joinAll root (of_mem_searched hstart (hm.mem ha)).2,
    components_joinAll root (of_mem_searched hstart (hm.mem hb)).2] at hcomponents
  exact (List.map_inj_right fun _ _ => Path.Component.name.inj).mp
    (List.append_cancel_left hcomponents)

/-- The units of a search have names of their own exactly when their ways differ in their parts.
Where two names are equal, so are the files of the artifacts and the target directories, and
nowhere else. -/
theorem discover_names_nodup_iff (fs : FileSystem) (root : Path) (marker : String)
    (exclude : List Path) (units : List BuildUnit) (hw : fs.root.isWellFormed = true)
    (h : discover fs root marker exclude = .ok units) :
    (units.map sourcePath).Nodup ∧
    ((units.map artifactName).Nodup ↔ (units.map (parts fs root)).Nodup) ∧
    ∀ u ∈ units, ∀ v ∈ units,
      (u.artifactName = v.artifactName ↔ u.parts fs root = v.parts fs root) ∧
      (∀ pluginDir : Path,
        (pluginDir.join (.ofText u.artifactFile)).same
          (pluginDir.join (.ofText v.artifactFile)) = true ↔
            u.artifactName = v.artifactName) ∧
      (∀ (cargo : String) (targetRoot : Path) (release : Bool) (host : FileSystem), ∃ d d' : Path,
        (Toolchain.cargoCommand cargo targetRoot release host u).env.get?
          Toolchain.targetVariable = some d.text ∧
        (Toolchain.cargoCommand cargo targetRoot release host v).env.get?
          Toolchain.targetVariable = some d'.text ∧
        (d.same d' = true ↔ u.artifactName = v.artifactName)) := by
  -- Below one root units differ in their ways alone, and a name is the way with its parts joined.
  have hname : ∀ u ∈ units, ∀ v ∈ units,
      (u.artifactName = v.artifactName ↔ u.parts fs root = v.parts fs root) := by
    intro u hu v hv
    obtain ⟨a, -, rfl⟩ := of_mem_discover hw h hu
    obtain ⟨b, -, rfl⟩ := of_mem_discover hw h hv
    exact artifactName_eq_iff
  have hentry : ∀ u ∈ units, Path.isEntryName u.artifactName = true := by
    intro u hu
    obtain ⟨a, ha, rfl⟩ := of_mem_discover hw h hu
    exact isEntryName_artifactName hw ha
  refine ⟨nodup_sourcePath hw h, ?_, fun u hu v hv => ⟨hname u hu v hv, ?_, ?_⟩⟩
  · rw [List.Nodup, List.Nodup, List.pairwise_map, List.pairwise_map]
    exact List.Pairwise.iff_of_mem fun hu hv => not_congr (hname _ hu _ hv)
  · intro pluginDir
    rw [same_join_ofText_iff pluginDir (isEntryName_artifactFile (hentry u hu))
      (isEntryName_artifactFile (hentry v hv))]
    simp [artifactFile]
  · intro cargo targetRoot release host
    exact ⟨_, _, get?_targetVariable cargo targetRoot release host u,
      get?_targetVariable cargo targetRoot release host v,
      same_join_ofText_iff _ (hentry u hu) (hentry v hv)⟩

/-! Two directories that only a slash and an underscore tell apart. -/

def markedDirectory : FileNode := .directory [("Cargo.toml", .file [] false)]

def collidingFiles : FileSystem where
  root := .directory [("compositions", .directory [
    ("a", .directory [("b", markedDirectory)]),
    ("a_b", markedDirectory)])]
  cwd := []

def collidingUnits : List BuildUnit :=
  [⟨⟨"compositions/a/b"⟩, "a_b"⟩, ⟨⟨"compositions/a_b"⟩, "a_b"⟩]

theorem discover_collidingFiles :
    (discover collidingFiles ⟨"compositions"⟩ "Cargo.toml" []) =
      .ok (collidingUnits.mergeSort mayPrecede) := by
  have hfound : found collidingFiles ⟨"compositions"⟩ "Cargo.toml" [] = .ok collidingUnits := by
    decide +kernel
  rw [discover, hfound]
  rfl

/-- Not every search gives its units names of their own. -/
theorem discover_names_collide : ∃ units,
    discover collidingFiles ⟨"compositions"⟩ "Cargo.toml" [] = .ok units ∧
      (units.map sourcePath).Nodup ∧ ¬(units.map artifactName).Nodup := by
  have hp := List.mergeSort_perm collidingUnits mayPrecede
  refine ⟨_, discover_collidingFiles, ?_, ?_⟩
  · rw [(hp.map sourcePath).nodup_iff]
    decide
  · rw [(hp.map artifactName).nodup_iff]
    decide

/-- The condition fails for them. -/
theorem discover_names_nodup_iff_colliding :
    ¬((collidingUnits.mergeSort mayPrecede).map
      (parts collidingFiles ⟨"compositions"⟩)).Nodup := by
  have hw : collidingFiles.root.isWellFormed = true := by decide +kernel
  have h := discover_names_nodup_iff _ _ _ _ _ hw discover_collidingFiles
  rw [← h.2.1, ((List.mergeSort_perm collidingUnits mayPrecede).map artifactName).nodup_iff]
  decide

/-! ## Names without underscores -/

/-- A unit below the search root whose way is made of texts without underscores. -/
def IsPlain (root : Path) (unit : BuildUnit) : Prop :=
  ∃ texts : List String, texts ≠ [] ∧ (∀ text ∈ texts, '_' ∉ text.toList) ∧
    root.below? unit.sourcePath = some (texts.map fun text => .name (.ofText text))

theorem parts_of_plain {texts : List String} (hne : texts ≠ [])
    (plain : ∀ text ∈ texts, '_' ∉ text.toList)
    (hb : root.below? unit.sourcePath = some (texts.map fun text => .name (.ofText text))) :
    unit.parts fs root = texts.map String.toList := by
  have hparts : unit.parts fs root = (texts.map String.toList).flatMap (Text.split '_') := by
    rw [List.flatMap_map]
    cases texts with
    | nil => exact absurd rfl hne
    | cons first rest =>
      simp only [parts, hb, Option.getD_some, List.map_cons, List.flatMap_cons, List.flatMap_map,
        Path.Component.text, ByteString.display_ofText]
  rw [hparts, Text.flatMap_split_eq_self]
  simpa using plain

/-- Where the search root is no unit and no way has an underscore, all names differ. -/
theorem nodup_artifactName_of_plain (hw : fs.root.isWellFormed = true)
    (h : discover fs root marker exclude = .ok units)
    (plain : ∀ unit ∈ units, unit.IsPlain root) : (units.map artifactName).Nodup := by
  have hnodup := nodup_sourcePath hw h
  rw [List.Nodup, List.pairwise_map] at hnodup ⊢
  refine hnodup.imp_of_mem fun {u v} hu hv hne heq => hne ?_
  obtain ⟨tu, hnu, hpu, hbu⟩ := plain u hu
  obtain ⟨tv, hnv, hpv, hbv⟩ := plain v hv
  obtain ⟨a, ha, rfl⟩ := of_mem_discover hw h hu
  obtain ⟨b, hb, rfl⟩ := of_mem_discover hw h hv
  have hparts := artifactName_eq_iff.mp heq
  rw [parts_of_plain hnu hpu hbu, parts_of_plain hnv hpv hbv] at hparts
  have htexts : tu = tv := (List.map_inj_right fun _ _ => String.toList_inj.mp).mp hparts
  have hways : a.map Path.Component.name = b.map .name := by
    have hcu := hbu.symm.trans (below?_joinAll root ha)
    have hcv := hbv.symm.trans (below?_joinAll root hb)
    rw [← Option.some.inj hcu, ← Option.some.inj hcv, htexts]
  have hab : a = b := (List.map_inj_right fun _ _ => Path.Component.name.inj).mp hways
  rw [hab]

end CompositionGen.BuildUnit
