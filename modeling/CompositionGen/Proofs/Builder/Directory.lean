import CompositionGen.Proofs.Builder.Runs
import CompositionGen.Proofs.Files.Writing
import Mathlib.Data.List.Nodup

/-!
# Compositions in a directory

Compositions are written to files that are named after them. A file that is written again holds the
composition of the last write, and a name with a slash is that of a file somewhere else, so that a
directory holds what was written to it exactly if all names differ and none has a slash.
-/

namespace CompositionGen

variable {fs written : FileSystem} {dir : Path} {name text : String} {cs : List Composition}
  {builders : List (String × Builder)} {dropped : Nat} {final : FileSystem}

namespace Composition

/-- The file name of a composition. -/
def fileName (name : String) : ByteString := ByteString.ofText (name ++ ".yaml")

/-- The file of a composition, with its name. -/
def fileOf (c : Composition) : ByteString × FileNode :=
  (fileName c.name, .file (.ofText (Yaml.document c.toJson)) false)

theorem isEntryName_fileName : Path.isEntryName (fileName name) = true ↔ '/' ∉ name.toList := by
  rw [fileName, Path.isEntryName_ofText]
  constructor
  · intro h hslash
    refine (Path.isEntryName_iff.mp h).2.2.2 ?_
    rw [String.toList_append]
    exact List.mem_append_left _ hslash
  · intro h
    refine Path.isEntryName_of_mem (c := 'y') ?_ ?_ (by decide)
    · simp [h]
    · simp

theorem fileName_injective : Function.Injective fileName := by
  intro name other h
  have htexts : name ++ ".yaml" = other ++ ".yaml" := ByteString.ofText_injective h
  rw [← String.toList_inj, String.toList_append, String.toList_append] at htexts
  exact String.toList_inj.mp (List.append_cancel_right htexts)

theorem nodup_fileNames_iff :
    ((cs.map fileOf).map (·.1)).Nodup ↔ (cs.map Composition.name).Nodup := by
  have hfiles : (cs.map fileOf).map (·.1) = (cs.map Composition.name).map fileName := by
    rw [List.map_map, List.map_map]
    rfl
  rw [hfiles, List.nodup_map_iff fileName_injective]

/-- A directory has a file for each composition, named after it and with what it is written as, and
nothing else. -/
def HeldIn (cs : List Composition) (fs : FileSystem) (dir : Path) : Prop :=
  ∃ entries, fs.stat dir = .ok (.directory entries) ∧ entries.Perm (cs.map fileOf)

end Composition

/-! ## One write -/

theorem write_directory_ok (h : (Writer.directory dir).write fs name text = (written, .ok ())) :
    ∃ made, fs.createDirectories dir = .ok made ∧
      made.writeText (dir.join ⟨Composition.fileName name⟩) text = .ok written := by
  simp only [Writer.directory] at h
  split at h
  · cases h
  · rename_i made hmade
    split at h
    · cases h
    · rename_i result hresult
      cases h
      exact ⟨made, hmade, hresult⟩

theorem isWellFormed_write_directory (hw : fs.root.isWellFormed = true)
    (h : (Writer.directory dir).write fs name text = (written, .ok ())) :
    written.root.isWellFormed = true := by
  obtain ⟨made, hmade, hwritten⟩ := write_directory_ok h
  have hgrown := FileSystem.grows_createDirectories hmade
  exact (hgrown.trans (FileSystem.grows_write hwritten)).root.legal hw

variable {location : Location} {entries : Dictionary FileNode}

theorem resolve_of_write_directory
    (h : fs.resolve dir = .ok (.occupied location (.directory entries.entries)))
    (hplain : FileSystem.ArePlain entries.entries) (hname : '/' ∉ name.toList)
    (hwrite : (Writer.directory dir).write fs name text = (written, .ok ())) :
    written.resolve dir = .ok (.occupied location (.directory
      (entries.insert (Composition.fileName name) (.file (.ofText text) false)).entries)) := by
  obtain ⟨made, hmade, hwritten⟩ := write_directory_ok hwrite
  rw [FileSystem.createDirectories_of_directory h] at hmade
  cases hmade
  exact FileSystem.resolve_of_writeText h hplain (Composition.isEntryName_fileName.mpr hname)
    hwritten

/-! ## Whole runs -/

/-- Where no name has a slash, the directory has the last composition of each name. -/
theorem Runs.resolve_directory (h : Runs (Writer.directory dir) builders fs cs dropped final)
    (hdir : fs.resolve dir = .ok (.occupied location (.directory entries.entries)))
    (hplain : FileSystem.ArePlain entries.entries) (hnames : ∀ c ∈ cs, '/' ∉ c.name.toList) :
    final.resolve dir = .ok (.occupied location (.directory
      (entries.insertAll (cs.map Composition.fileOf)).entries)) := by
  induction h generalizing entries with
  | done fs => exact hdir
  | dropped composed next ih => exact ih hdir hplain hnames
  | written composed writes next ih =>
    obtain ⟨hname, hrest⟩ := List.forall_mem_cons.mp hnames
    have hwritten := resolve_of_write_directory hdir hplain hname writes
    exact ih hwritten (hplain.alterEntries _ _) hrest

theorem nodup_of_heldIn (hw : fs.root.isWellFormed = true) (h : Composition.HeldIn cs fs dir) :
    (cs.map Composition.name).Nodup ∧ ∀ c ∈ cs, '/' ∉ c.name.toList := by
  obtain ⟨entries, hstat, hperm⟩ := h
  obtain ⟨location, hresolve⟩ := FileSystem.stat_eq_ok_iff.mp hstat
  have hwell : FileNode.areWellFormed entries = true := by
    have hnode := (FileNode.of_at? hw (FileSystem.at?_of_resolve hresolve)).1
    rwa [FileNode.isWellFormed] at hnode
  constructor
  · rw [← Composition.nodup_fileNames_iff, ← (hperm.map (·.1)).nodup_iff, List.Nodup,
      List.pairwise_map]
    refine (FileNode.sorted_of_areWellFormed hwell).imp fun hlt heq => ?_
    rw [heq] at hlt
    exact String.lt_irrefl _ hlt
  · intro c hc
    have hmem : c.fileOf ∈ entries := hperm.mem_iff.mpr (List.mem_map_of_mem hc)
    exact Composition.isEntryName_fileName.mp (FileNode.of_mem_areWellFormed hwell hmem).1

theorem heldIn_of_stat (hnodup : (cs.map Composition.name).Nodup)
    (hstat : fs.stat dir =
      .ok (.directory (Dictionary.empty.insertAll (cs.map Composition.fileOf)).entries)) :
    Composition.HeldIn cs fs dir := by
  refine ⟨_, hstat, ?_⟩
  exact Dictionary.perm_insertAll _ (Composition.nodup_fileNames_iff.mpr hnodup) fun _ _ => rfl

/-- After a run that has written everything to an empty directory, the directory has a file for each
composition that was written, and nothing else, exactly if their names differ and none has a slash.
Without slashes there is the last composition of each name. -/
theorem run_heldIn_iff (fs : FileSystem) (dir : Path) (builders : List (String × Builder))
    (summary : RunSummary) (hw : fs.root.isWellFormed = true)
    (hempty : fs.stat dir = .ok (.directory []))
    (h : (runBuilders (Writer.directory dir) builders fs).outcome = .ok summary) :
    ∃ cs : List Composition,
      Runs (Writer.directory dir) builders fs cs summary.dropped
        (runBuilders (Writer.directory dir) builders fs).state ∧
      summary.written = cs.length ∧
      (Composition.HeldIn cs (runBuilders (Writer.directory dir) builders fs).state dir ↔
        (cs.map Composition.name).Nodup ∧ ∀ c ∈ cs, '/' ∉ c.name.toList) ∧
      ((∀ c ∈ cs, '/' ∉ c.name.toList) →
        (runBuilders (Writer.directory dir) builders fs).state.stat dir =
          .ok (.directory (Dictionary.empty.insertAll (cs.map Composition.fileOf)).entries)) := by
  obtain ⟨cs, n, hruns, rfl⟩ := runs_of_runFrom h
  have hruns' : Runs (Writer.directory dir) builders fs cs n
    (runBuilders (Writer.directory dir) builders fs).state := hruns
  -- Names without slashes stay in the directory, where a later composition replaces an earlier one
  -- of its name.
  have hstat : (∀ c ∈ cs, '/' ∉ c.name.toList) →
      (runBuilders (Writer.directory dir) builders fs).state.stat dir =
        .ok (.directory (Dictionary.empty.insertAll (cs.map Composition.fileOf)).entries) := by
    intro hnames
    obtain ⟨location, hdir⟩ := FileSystem.stat_eq_ok_iff.mp hempty
    have hplain : FileSystem.ArePlain (Dictionary.empty : Dictionary FileNode).entries := nofun
    exact FileSystem.stat_eq_ok_iff.mpr ⟨location, hruns'.resolve_directory hdir hplain hnames⟩
  have hwell : (runBuilders (Writer.directory dir) builders fs).state.root.isWellFormed = true :=
    hruns'.preserves (P := fun fs => fs.root.isWellFormed = true)
      (fun _ _ _ _ hs hwrite => isWellFormed_write_directory hs hwrite) hw
  refine ⟨cs, ?_, by simp, ?_, hstat⟩
  · simpa using hruns'
  · constructor
    · exact nodup_of_heldIn hwell
    · rintro ⟨hnodup, hnames⟩
      exact heldIn_of_stat hnodup (hstat hnames)

/-! One builder fails, and the other two give their compositions names. -/

def namedBuilder (name : String) : Builder where
  composite := .ofValue ⟨"example.org", "v1", "XThing"⟩ (.object [])
  build _ := ({}, .done [.withName name])

def failingBuilder : Builder where
  composite := .ofValue ⟨"example.org", "v1", "XThing"⟩ (.object [])
  build _ := ({}, .failed ["out of paper"])

def emptyOutput : FileSystem where
  root := .directory [("out", .directory [])]
  cwd := []

def differentNames : List (String × Builder) :=
  [("a", namedBuilder "first"), ("b", failingBuilder), ("c", namedBuilder "second")]

theorem run_heldIn_differentNames : ∃ summary cs,
    (runBuilders (Writer.directory ⟨"out/"⟩) differentNames emptyOutput).outcome = .ok summary ∧
      Runs (Writer.directory ⟨"out/"⟩) differentNames emptyOutput cs summary.dropped
        (runBuilders (Writer.directory ⟨"out/"⟩) differentNames emptyOutput).state ∧
      summary.written = cs.length := by
  have hok : (runBuilders (Writer.directory ⟨"out/"⟩) differentNames emptyOutput).outcome.isOk =
      true := by
    decide +kernel
  cases h : (runBuilders (Writer.directory ⟨"out/"⟩) differentNames emptyOutput).outcome with
  | ok summary =>
    obtain ⟨cs, hruns, hwritten, -⟩ :=
      run_heldIn_iff emptyOutput ⟨"out/"⟩ differentNames summary (by decide +kernel) rfl h
    exact ⟨summary, cs, rfl, hruns, hwritten⟩
  | error e => simp [h, Except.isOk, Except.toBool] at hok

/-! Two builders give their compositions one name. -/

def sameNames : List (String × Builder) :=
  [("a", namedBuilder "same"), ("b", namedBuilder "same")]

/-- What is counted as written is not always in the directory. -/
theorem run_overwrites_sameNames :
    emptyOutput.stat ⟨"out"⟩ = .ok (.directory []) ∧
      (runBuilders (Writer.directory ⟨"out"⟩) sameNames emptyOutput).outcome.toOption =
        some ⟨2, 0⟩ ∧
      ((runBuilders (Writer.directory ⟨"out"⟩) sameNames emptyOutput).state.entriesAt
        ⟨"out"⟩).map (·.1) = ["same.yaml"] := by
  refine ⟨rfl, ?_, ?_⟩
  · decide +kernel
  · decide +kernel

end CompositionGen
