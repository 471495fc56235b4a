import CompositionGen.Proofs.BuildUnit.Naming
import CompositionGen.Proofs.Files.Reaching
import Mathlib.Data.List.Sort
import Mathlib.Data.String.Basic

/-!
# What a search finds

The search prunes on its way: it does not enter a hidden or an excluded directory. What it finds is
nevertheless said by finished ways alone, since what is hidden or excluded is so with all that it
holds. Units come in the order of their ways.

A name is hidden only if it is a text. A directory whose name begins with a dot and is no text is
entered, and what it holds is found. What is not found is a marker whose path is too long.
-/

namespace CompositionGen

namespace BuildUnit

variable {fs : FileSystem} {root : Path} {marker : String} {exclude : List Path}
  {location : Location} {name : ByteString}

theorem isHidden_iff : isHidden name = true ↔
    name.text?.isSome = true ∧ name.toList.head? = some '.' := by
  rw [isHidden]
  cases htext : name.text? with
  | none => simp
  | some text =>
    have hhead : ['.'].isPrefixOf text.toList = true ↔ text.toList.head? = some '.' := by
      rw [List.isPrefixOf_iff_prefix, List.head?_eq_some_iff]
      exact exists_congr fun rest => eq_comm
    rw [Option.any_some, hhead, ByteString.head?_of_text? (by decide) htext]
    simp

theorem isExcluded_mono {front : Location} (h : isExcluded exclude front = true)
    (hfront : front <+: location) : isExcluded exclude location = true := by
  obtain ⟨p, hp, hprefix⟩ := List.any_eq_true.mp h
  rw [List.isPrefixOf_iff_prefix] at hprefix
  refine List.any_eq_true.mpr ⟨p, hp, ?_⟩
  rw [List.isPrefixOf_iff_prefix]
  exact hprefix.trans (hfront.map Path.Component.name)

/-- A directory is searched if nothing on the way to it is hidden and it is not excluded itself. -/
theorem enters_admits_iff : FileNode.enters (admits exclude) [] location = true ↔
    (∀ name ∈ location, isHidden name = false) ∧
      (location ≠ [] → isExcluded exclude location = false) := by
  rw [FileNode.enters_iff]
  simp only [List.nil_append, admits, Bool.and_eq_true, Bool.not_eq_true']
  constructor
  · intro h
    constructor
    · intro name hname
      -- The way up to a name ends in it.
      obtain ⟨front, back, rfl⟩ := List.append_of_mem hname
      have hlast := (h (front ++ [name]) (by simp) ⟨back, by simp⟩).1
      simpa using hlast
    · intro hne
      exact (h location hne List.prefix_rfl).2
  · rintro ⟨hvisible, hkept⟩ front hne hfront
    constructor
    · rw [List.getLast?_eq_some_getLast hne]
      exact hvisible _ (hfront.subset (List.getLast_mem hne))
    · have hlocation : location ≠ [] := by
        rintro rfl
        exact hne (List.prefix_nil.mp hfront)
      by_contra hex
      rw [Bool.not_eq_false] at hex
      rw [isExcluded_mono hex hfront] at hkept
      exact Bool.noConfusion (hkept hlocation)

/-- A location is one of a directory that holds the marker as a regular file. -/
def IsMarked (node : FileNode) (marker : String) (location : Location) : Prop :=
  ∃ entries content executable, node.at? location = some (.directory entries) ∧
    lookup? (ByteString.ofText marker) entries = some (.file content executable)

/-- No exclusion begins the way to a location. -/
def IsKept (exclude : List Path) (location : Location) : Prop :=
  location ≠ [] → ∀ p ∈ exclude, ¬p.components <+: location.map .name

/-- A location below a directory that is to be a unit. -/
structure Qualifies (node : FileNode) (marker : String) (exclude : List Path)
    (location : Location) : Prop where
  marked : IsMarked node marker location
  visible : ∀ name ∈ location, name.toList.head? ≠ some '.'
  kept : IsKept exclude location

/-- The path of the marker at a location is short enough to be looked at. -/
def Fits (root : Path) (marker : String) (location : Location) : Prop :=
  ((root.joinAll location).join (.ofText marker)).text.length ≤ FileSystem.pathLimit

/-- A location at which the search sees the marker. -/
structure IsSeen (root : Path) (node : FileNode) (marker : String) (exclude : List Path)
    (location : Location) : Prop where
  marked : IsMarked node marker location
  entered : ∀ name ∈ location, isHidden name = false
  kept : IsKept exclude location
  fits : Fits root marker location

theorem isExcluded_eq_false_iff : isExcluded exclude location = false ↔
    ∀ p ∈ exclude, ¬p.components <+: location.map .name := by
  simp [isExcluded]

variable {base : Location} {node : FileNode}

theorem mem_searched_iff (hw : node.isWellFormed = true) (hd : node.isDirectory = true) :
    location ∈ searched exclude ⟨base, node, false⟩ ↔
      node.hasDirectoryAt location = true ∧
        FileNode.enters (admits exclude) [] location = true := by
  rw [searched, List.mem_append, FileNode.mem_directoriesBelow_iff hw, hd]
  constructor
  · rintro (h | ⟨name, rest, rfl, h⟩)
    · rw [List.mem_singleton.mp h]
      exact ⟨hd, rfl⟩
    · exact h
  · intro h
    cases location with
    | nil => exact .inl (List.mem_singleton.mpr rfl)
    | cons name rest => exact .inr ⟨name, rest, rfl, h⟩

/-! ## Markers -/

theorem hasFile_iff {p : Path} : fs.hasFile p = true ↔
    ∃ place content executable,
      fs.resolve p = .ok (.occupied place (.file content executable)) := by
  rw [FileSystem.hasFile, Option.any_eq_true]
  constructor
  · rintro ⟨found, hfound, hfile⟩
    obtain ⟨place, hplace⟩ := FileSystem.stat_eq_ok_iff.mp (Outcome.toOption_eq_some_iff.mp hfound)
    cases found with
    | file content executable => exact ⟨place, content, executable, hplace⟩
    | _ => cases hfile
  · rintro ⟨place, content, executable, hplace⟩
    exact ⟨_, Outcome.toOption_eq_some_iff.mpr (FileSystem.stat_eq_ok_iff.mpr ⟨place, hplace⟩), rfl⟩

/-- A marker is seen by its path where it stands, unless the path is too long. -/
theorem hasFile_join_iff {dir : Path} {entries : Entries}
    (hdir : fs.resolve dir = .ok (.occupied location (.directory entries)))
    (hlink : FileNode.areLinkFree entries = true) (hname : Path.isFileName name = true) :
    fs.hasFile (dir.join ⟨name⟩) = true ↔
      (∃ content executable, lookup? name entries = some (.file content executable)) ∧
        (dir.join ⟨name⟩).text.length ≤ FileSystem.pathLimit := by
  obtain ⟨hentry, -, -⟩ := Path.isFileName_iff.mp hname
  rw [hasFile_iff]
  constructor
  · rintro ⟨place, content, executable, hplace⟩
    have hlength := (FileSystem.checkPath_eq_ok_iff.mp (FileSystem.leads_of_resolve hplace).1).2.2
    refine ⟨⟨content, executable, ?_⟩, hlength⟩
    cases hl : lookup? name entries with
    | none =>
      have hplaces := FileSystem.resolve_join_of_none hdir hentry hl hplace
      cases hplaces
    | some found =>
      have hfree := FileNode.isLinkFree_of_mem hlink (mem_of_lookup? hl)
      have hfound : ∀ target, found ≠ .link target := by
        rintro target rfl
        cases hfree
      have hplaces := FileSystem.resolve_join_of_ok hdir hentry hfound hl hplace
      cases hplaces
      rfl
  · rintro ⟨⟨content, executable, hl⟩, hlength⟩
    exact ⟨_, content, executable, FileSystem.resolve_join hdir hname nofun hl hlength⟩

theorem mem_marked_iff (hmarker : Path.isFileName (.ofText marker) = true)
    (hroot : fs.resolve root = .ok (.occupied base node))
    (hread : fs.Reaches root node FileNode.isDirectory)
    (hw : node.isWellFormed = true) (hd : node.isDirectory = true)
    (hlink : node.isLinkFree = true) :
    location ∈ (searched exclude ⟨base, node, false⟩).filter
        (fun location => fs.hasFile ((root.joinAll location).join (.ofText marker))) ↔
      IsSeen root node marker exclude location := by
  -- The path of the marker leads where its directory's path does, which is why the directory has to
  -- be found by its own path first.
  have hmarks : ∀ entries, node.at? location = some (.directory entries) →
      (fs.hasFile ((root.joinAll location).join (.ofText marker)) = true ↔
        (∃ content executable,
          lookup? (ByteString.ofText marker) entries = some (.file content executable)) ∧
          Fits root marker location) := by
    intro entries hat
    have hfree := FileNode.isLinkFree_of_at? hlink hat
    rw [FileNode.isLinkFree] at hfree
    have hdir : ∀ target, FileNode.directory entries ≠ .link target := by
      rintro target ⟨⟩
    exact hasFile_join_iff (hread.resolve (fun _ => rfl) hroot hw hat rfl hdir) hfree hmarker
  rw [List.mem_filter, mem_searched_iff hw hd, enters_admits_iff, isExcluded_eq_false_iff]
  constructor
  · rintro ⟨⟨hat, hentered, hkept⟩, hfile⟩
    obtain ⟨child, hchild, hd⟩ := (Option.any_eq_true _ _).mp hat
    cases child with
    | directory entries =>
      obtain ⟨⟨content, executable, hl⟩, hfits⟩ := (hmarks entries hchild).mp hfile
      exact ⟨⟨entries, content, executable, hchild, hl⟩, hentered, hkept, hfits⟩
    | _ => cases hd
  · rintro ⟨⟨entries, content, executable, hat, hl⟩, hentered, hkept, hfits⟩
    refine ⟨⟨?_, hentered, hkept⟩, (hmarks entries hat).mpr ⟨⟨content, executable, hl⟩, hfits⟩⟩
    rw [FileNode.hasDirectoryAt, hat]
    rfl

/-- What is seen is what qualifies, up to markers with too long paths and names that are no
texts. -/
theorem isSeen_iff_qualifies_iff : (∀ location, IsSeen root node marker exclude location ↔
    Qualifies node marker exclude location) ↔
      (∀ location, Qualifies node marker exclude location → Fits root marker location) ∧
      ∀ location, IsSeen root node marker exclude location →
        ∀ name ∈ location, name.toList.head? = some '.' → name.text?.isSome = true := by
  constructor
  · intro h
    refine ⟨fun location hq => ((h location).mpr hq).fits, fun location hs name hname hdot => ?_⟩
    exact absurd hdot (((h location).mp hs).visible name hname)
  · rintro ⟨hfits, htexts⟩ location
    constructor
    · intro hs
      refine ⟨hs.marked, fun name hname hdot => ?_, hs.kept⟩
      have hhidden := isHidden_iff.mpr ⟨htexts location hs name hname hdot, hdot⟩
      rw [hs.entered name hname] at hhidden
      cases hhidden
    · intro hq
      refine ⟨hq.marked, fun name hname => ?_, hq.kept, hfits location hq⟩
      rw [← Bool.not_eq_true, isHidden_iff]
      exact fun hhidden => hq.visible name hname hhidden.2

/-! ## The order of units -/

theorem lex_names (a b : List String) :
    (a.map Path.Component.name).lex (b.map Path.Component.name) Path.Component.lt =
      decide (a < b) := by
  induction a generalizing b with
  | nil => cases b <;> simp
  | cons first a ih =>
    cases b with
    | nil => simp
    | cons second b =>
      rw [List.map_cons, List.map_cons, List.cons_lex_cons, ih, Bool.eq_iff_iff]
      simp only [Path.Component.lt, Bool.or_eq_true, Bool.and_eq_true, beq_iff_eq,
        decide_eq_true_eq, Path.Component.name.injEq, List.cons_lt_cons_iff]

theorem lt_self (c : Path.Component) : c.lt c = false := by
  cases c with
  | name text => exact decide_eq_false (lt_irrefl text)
  | _ => rfl

theorem precedes_joinAll (root : Path) {a b : Location}
    (ha : ∀ name ∈ a, Path.isEntryName name = true)
    (hb : ∀ name ∈ b, Path.isEntryName name = true) :
    (root.joinAll a).precedes (root.joinAll b) = decide (a < b) := by
  rw [Path.precedes, components_joinAll root ha, components_joinAll root hb, ← lex_names]
  induction root.components with
  | nil => rfl
  | cons component rest ih =>
    rw [List.cons_append, List.cons_append, List.cons_lex_cons, lt_self, beq_self_eq_true,
      Bool.false_or, Bool.true_and]
    exact ih

/-- Sorting units by their paths sorts the ways to them. -/
theorem map_mergeSort_ways {locations : List Location}
    (h : ∀ location ∈ locations, ∀ name ∈ location, Path.isEntryName name = true) :
    (locations.map fun location => of fs root (root.joinAll location)).mergeSort mayPrecede =
      (locations.mergeSort fun a b => decide (a ≤ b)).map fun location =>
        of fs root (root.joinAll location) := by
  refine (List.map_mergeSort fun a ha b hb => ?_).symm
  show decide (a ≤ b) = !((root.joinAll b).precedes (root.joinAll a))
  rw [precedes_joinAll root (h b hb) (h a ha), Bool.eq_iff_iff]
  simp only [decide_eq_true_eq, Bool.not_eq_true', decide_eq_false_iff_not]
  exact not_lt.symm

theorem pairwise_lt_mergeSort {locations : List Location} (h : locations.Nodup) :
    (locations.mergeSort fun a b => decide (a ≤ b)).Pairwise (· < ·) := by
  have hsorted := List.pairwise_mergeSort' (· ≤ ·) locations
  have hnodup : (locations.mergeSort fun a b => decide (a ≤ b)).Nodup :=
    (List.mergeSort_perm locations _).nodup_iff.mpr h
  exact (hsorted.and hnodup).imp fun hab => lt_of_le_of_ne hab.1 hab.2

theorem walkRoot_of_resolveEntry {entries : Entries}
    (h : fs.resolveEntry root = .ok (.occupied base (.directory entries))) :
    fs.walkRoot root = .ok ⟨base, .directory entries, false⟩ := by
  rw [FileSystem.walkRoot, h]

/-- Where all directories that are searched can be opened, the marked ones are found. -/
theorem discover_eq_of_walkRoot {start : WalkRoot} (h : fs.walkRoot root = .ok start)
    (hopen : fs.openAll root (searched exclude start) = .ok ()) :
    discover fs root marker exclude =
      .ok ((((searched exclude start).filter fun location =>
        fs.hasFile ((root.joinAll location).join (.ofText marker))).map fun location =>
          of fs root (root.joinAll location)).mergeSort mayPrecede) := by
  rw [discover, found, h]
  dsimp only
  rw [hopen]
  rfl

/-- In a tree without links whose directories can be read, a search finds exactly the directories
at which it sees the marker, each once and in the order of their paths. These are the ones that
qualify exactly if no marker of one that does has too long a path, and nothing is found below a name
that begins with a dot and is no text. The name of a unit below the root says the way to it
alone. -/
theorem discover_qualifying (fs : FileSystem) (root : Path) (marker : String)
    (exclude : List Path) (entries : Entries) (hw : fs.root.isWellFormed = true)
    (hroot : fs.entryStat root = .ok (.directory entries))
    (hlink : (FileNode.directory entries).isLinkFree = true)
    (hread : fs.Reaches root (.directory entries) FileNode.isDirectory)
    (hmarker : Path.isFileName (.ofText marker) = true) : ∃ locations : List Location,
      discover fs root marker exclude =
        .ok (locations.map fun location => of fs root (root.joinAll location)) ∧
      (∀ location, location ∈ locations ↔
        IsSeen root (.directory entries) marker exclude location) ∧
      ((∀ location, location ∈ locations ↔
        Qualifies (.directory entries) marker exclude location) ↔
          (∀ location, Qualifies (.directory entries) marker exclude location →
            Fits root marker location) ∧
          ∀ location ∈ locations, ∀ name ∈ location,
            name.toList.head? = some '.' → name.text?.isSome = true) ∧
      (locations.Pairwise fun a b =>
        (root.joinAll a).precedes (root.joinAll b) = true) ∧
      ∀ location ∈ locations,
        (root.joinAll location).components = root.components ++ location.map .name ∧
        (location ≠ [] → (of fs root (root.joinAll location)).artifactName =
          nameOf (location.map .name)) := by
  obtain ⟨base, hentry, hresolve⟩ := FileSystem.resolve_of_entryStat hroot nofun
  have hwalk := walkRoot_of_resolveEntry hentry
  have hstart := walkRoot_isWellFormed hw hwalk
  have hopen : fs.openAll root (searched exclude ⟨base, .directory entries, false⟩) = .ok () := by
    refine FileSystem.openAll_eq_ok_iff.mpr fun location hlocation => ?_
    obtain ⟨child, hchild, hd⟩ := (Option.any_eq_true _ _).mp (of_mem_searched hstart hlocation).1
    exact hread location child hchild hd
  -- Sorting changes neither what is found nor that it is found once, so all but the order is shown
  -- of the directories as the search meets them.
  set marked := (searched exclude ⟨base, .directory entries, false⟩).filter fun location =>
    fs.hasFile ((root.joinAll location).join (.ofText marker)) with hmarked
  have hnames : ∀ location ∈ marked, ∀ name ∈ location, Path.isEntryName name = true := by
    intro location hm
    exact (of_mem_searched hstart (List.mem_filter.mp hm).1).2
  have hmem : ∀ location, location ∈ marked.mergeSort (fun a b => decide (a ≤ b)) ↔
      location ∈ marked := fun location => (List.mergeSort_perm marked _).mem_iff
  have hseen : ∀ location, location ∈ marked.mergeSort (fun a b => decide (a ≤ b)) ↔
      IsSeen root (.directory entries) marker exclude location := by
    intro location
    rw [hmem]
    exact mem_marked_iff hmarker hresolve hread hstart rfl hlink
  refine ⟨marked.mergeSort fun a b => decide (a ≤ b), ?_, hseen, ?_, ?_, ?_⟩
  · rw [discover_eq_of_walkRoot hwalk hopen]
    exact congrArg _ (map_mergeSort_ways hnames)
  · simp only [hseen]
    exact isSeen_iff_qualifies_iff
  · have hnodup : marked.Nodup := (nodup_searched hstart).filter _
    refine (pairwise_lt_mergeSort hnodup).imp_of_mem fun {a b} ha hb hlt => ?_
    rw [precedes_joinAll root (hnames a ((hmem a).mp ha)) (hnames b ((hmem b).mp hb))]
    exact decide_eq_true hlt
  · intro location hm
    have hlegal := hnames location ((hmem location).mp hm)
    refine ⟨components_joinAll root hlegal, fun hne => ?_⟩
    rw [of]
    dsimp only
    rw [below?_joinAll root hlegal, Option.getD_some]
    split
    · rename_i hnil
      exact absurd (List.map_eq_nil_iff.mp hnil) hne
    · rfl

/-! A unit lies in another one; of the other marked directories one is hidden, one lies in a hidden
directory, and one lies in an excluded one. -/

def nestedEntries : Entries := [
  (".git", .directory [("hooks", markedDirectory)]),
  ("Cargo.toml", .file [] false),
  ("app", .directory [
    ("Cargo.toml", .file [] false),
    ("part", markedDirectory)]),
  ("target", .directory [("app", markedDirectory)])]

def nestedFiles : FileSystem where
  root := .directory [("compositions", .directory nestedEntries)]
  cwd := []

theorem discover_nestedFiles : ∃ locations : List Location,
    discover nestedFiles ⟨"compositions"⟩ "Cargo.toml" [⟨"target"⟩, ⟨"app/other"⟩] =
      .ok (locations.map fun location =>
        of nestedFiles ⟨"compositions"⟩ (Path.joinAll ⟨"compositions"⟩ location)) ∧
      ["app", "part"] ∈ locations ∧ [".git", "hooks"] ∉ locations := by
  obtain ⟨locations, hfound, hmem, -, -, -⟩ := discover_qualifying nestedFiles ⟨"compositions"⟩
    "Cargo.toml" [⟨"target"⟩, ⟨"app/other"⟩] nestedEntries (by decide +kernel) rfl
    (by decide +kernel) (FileSystem.reaches_of_all (by decide +kernel) (by decide +kernel))
    (by decide +kernel)
  have hmarker : ByteString.ofText "Cargo.toml" = "Cargo.toml" := by decide +kernel
  refine ⟨locations, hfound, ?_, ?_⟩
  · rw [hmem]
    refine ⟨⟨_, [], false, rfl, ?_⟩, by decide +kernel, fun _ => ?_, ?_⟩
    · rw [hmarker]
      rfl
    · decide +kernel
    · unfold Fits
      decide +kernel
  · rw [hmem]
    intro h
    have hentered := h.entered ".git" (by decide)
    exact absurd hentered (by decide +kernel)

/-! The name of a directory begins with a dot, but the byte after the dot begins no character. -/

def undecodableFiles : FileSystem where
  root := .directory [("compositions", .directory [(".\xff", markedDirectory)])]
  cwd := []

/-- The search finds such a directory. -/
theorem discover_enters_undecodable :
    discover undecodableFiles ⟨"compositions"⟩ "Cargo.toml" [] =
      .ok [of undecodableFiles ⟨"compositions"⟩ (Path.joinAll ⟨"compositions"⟩ [".\xff"])] ∧
    ¬Qualifies (.directory [(".\xff", markedDirectory)]) "Cargo.toml" [] [".\xff"] := by
  constructor
  · have hfound : found undecodableFiles ⟨"compositions"⟩ "Cargo.toml" [] =
        .ok [of undecodableFiles ⟨"compositions"⟩ (Path.joinAll ⟨"compositions"⟩ [".\xff"])] := by
      decide +kernel
    rw [discover, hfound]
    exact congrArg Except.ok (List.mergeSort_singleton _)
  · intro h
    exact h.visible ".\xff" List.mem_cons_self (by decide +kernel)

end BuildUnit

end CompositionGen
