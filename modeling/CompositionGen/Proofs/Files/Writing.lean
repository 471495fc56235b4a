import CompositionGen.Proofs.Files.Growing

/-!
# Writing files

A directory that is there is not made again. A directory of plain files that a path leads to is
there again after a file in it has been written, at the same path and with that file alone added or
changed.
-/

namespace CompositionGen.FileSystem

variable {fs written : FileSystem} {p dir : Path} {place : Place} {location : Location}
  {node : FileNode} {entries : Entries} {name : ByteString} {text : String}

/-! ## Directories that are there -/

theorem createDirectory_of_resolve (h : fs.resolve p = .ok (.occupied location node)) :
    fs.createDirectory p = .error .alreadyExists := by
  obtain ⟨hcheck, hwalk⟩ := leads_of_resolve h
  obtain ⟨stays, hsteps, hstays⟩ := p.steps_eq_entrySteps_append
  rw [hsteps] at hwalk
  obtain ⟨there, found, hentry⟩ := (hwalk.of_append_stays hstays).entry_of_followed _ _ rfl
  rw [createDirectory, create, hcheck]
  show (walkLinks fs.root false linkLimit (startOf fs.cwd p) p.entrySteps >>= _) = _
  rw [hentry.walkLinks_eq]
  rfl

/-- Making a directory that is there changes nothing. -/
theorem createDirectories_of_directory
    (h : fs.resolve p = .ok (.occupied location (.directory entries))) :
    fs.createDirectories p = .ok fs := by
  have hdirectory : fs.hasDirectory p = true := by
    rw [hasDirectory, stat_eq_ok_iff.mpr ⟨location, h⟩]
    rfl
  have htext := text_ne_of_resolve h
  obtain ⟨above, habove⟩ : ∃ above, p.ancestors = p :: above := by
    rw [Path.ancestors]
    cases p.components.length with
    | zero => exact ⟨_, rfl⟩
    | succ limit => exact ⟨_, rfl⟩
  rw [createDirectories, habove, createFirst]
  simp [htext, createDirectory_of_resolve h, hdirectory]

/-! ## Files in a directory -/

/-- Entries that are plain files. -/
def ArePlain (entries : Entries) : Prop :=
  ∀ name node, lookup? name entries = some node → ∃ content, node = .file content false

theorem ArePlain.alterEntries (h : ArePlain entries) (name : ByteString) (content : Content) :
    ArePlain (Dictionary.alterEntries name (fun _ => .file content false) entries) := by
  intro other node hl
  rw [Dictionary.lookup?_alterEntries_const] at hl
  split at hl
  · cases hl
    exact ⟨content, rfl⟩
  · exact h other node hl

theorem place_of_join (h : fs.resolve dir = .ok (.occupied location (.directory entries)))
    (hplain : ArePlain entries) (hname : Path.isEntryName name = true)
    (hp : fs.resolve (dir.join ⟨name⟩) = .ok place) :
    place = .vacant location name ∨
      ∃ content, place = .occupied (location ++ [name]) (.file content false) := by
  obtain ⟨left, hleads⟩ := leads_of_join h hname hp
  have hdir := at?_of_resolve h
  cases hleads with
  | vacant hat hsize hl => exact .inl rfl
  | entry last hat hsize hl => cases last
  | link follow hat hsize hl next =>
    cases hdir.symm.trans hat
    obtain ⟨content, hfile⟩ := hplain _ _ hl
    cases hfile
  | down hnode hat hsize hl next =>
    cases hdir.symm.trans hat
    obtain ⟨content, rfl⟩ := hplain _ _ hl
    cases next with
    | done hfound =>
      rw [FileNode.at?_entry hat, hl] at hfound
      cases hfound
      exact .inr ⟨content, rfl⟩

/-- A file that is written into a directory is the only change to it. -/
theorem resolve_of_writeText (h : fs.resolve dir = .ok (.occupied location (.directory entries)))
    (hplain : ArePlain entries) (hname : Path.isEntryName name = true)
    (hwrite : fs.writeText (dir.join ⟨name⟩) text = .ok written) :
    written.resolve dir = .ok (.occupied location (.directory
      (Dictionary.alterEntries name (fun _ => .file (.ofText text) false) entries))) := by
  rw [writeText, write, Outcome.bind_ok_iff] at hwrite
  obtain ⟨place, hplace, hwrite⟩ := hwrite
  have hput : written = fs.put (location ++ [name]) (.file (.ofText text) false) := by
    rcases place_of_join h hplain hname (resolve_of_resolveFile hplace) with rfl | ⟨_, rfl⟩
    · cases hwrite
      rfl
    · cases hwrite
      rfl
  have hat := at?_of_resolve h
  obtain ⟨hcheck, hwalk⟩ := leads_of_resolve h
  have hextends : (fs.root.put (location ++ [name]) (.file (.ofText text) false)).Extends
      fs.root := by
    refine FileNode.extends_put hat fun old hl => ?_
    obtain ⟨_, rfl⟩ := hplain name old hl
    exact FileNode.extends_file rfl
  obtain ⟨other, hother⟩ := hwalk.extends hextends _ _ rfl
  have hafter := hother.at? _ _ rfl
  rw [FileNode.at?_put_front hat] at hafter
  cases hafter
  subst hput
  rw [resolve, hcheck]
  exact hother.walkLinks_eq

end CompositionGen.FileSystem
