import CompositionGen.Proofs.Files.Reaching

/-!
# Growing trees

Files are written and directories are made, but no operation that programs have takes anything out
of a tree: what was at a location is still there and is a file, a directory or the same link as
before, so that every path that led somewhere still leads there. Names stay legal.
-/

namespace CompositionGen

namespace FileNode

variable {before middle after node new : FileNode} {location front : Location} {entries : Entries}
  {name : ByteString}

/-- A tree has come out of another one with nothing taken away. -/
structure Grows (before after : FileNode) : Prop where
  legal : before.isWellFormed = true → after.isWellFormed = true
  keeps : after.Extends before

theorem Grows.refl (node : FileNode) : node.Grows node := ⟨id, extends_refl node⟩

theorem Grows.trans (h : before.Grows middle) (h' : middle.Grows after) : before.Grows after :=
  ⟨fun hw => h'.legal (h.legal hw), h'.keeps.trans h.keeps⟩

theorem grows_put_file {old content : Content} {flag executable : Bool}
    (h : node.at? location = some (file old flag)) :
    node.Grows (node.put location (file content executable)) := by
  refine ⟨fun hw => isWellFormed_put hw rfl ?_, extends_put_file h⟩
  intro name hname
  exact (of_at? hw h).2 name (List.mem_of_getLast? hname)

theorem grows_put_vacant (h : node.at? front = some (directory entries))
    (hl : lookup? name entries = none) (hname : Path.isEntryName name = true)
    (hnew : new.isWellFormed = true) : node.Grows (node.put (front ++ [name]) new) := by
  refine ⟨fun hw => isWellFormed_put hw hnew ?_, extends_put h ?_⟩
  · intro last hlast
    obtain rfl : name = last := by simpa using hlast
    exact hname
  · intro old hold
    rw [hl] at hold
    cases hold

end FileNode

namespace FileSystem

variable {fs made written copied : FileSystem} {p source target : Path} {place : Place}
  {name : ByteString} {content : Content} {executable : Bool} {node : FileNode}

/-- Files have changed with nothing taken away. -/
structure Grows (before after : FileSystem) : Prop where
  root : before.root.Grows after.root
  cwd : after.cwd = before.cwd

theorem Grows.refl (fs : FileSystem) : fs.Grows fs := ⟨.refl fs.root, rfl⟩

theorem Grows.trans {before middle after : FileSystem} (h : before.Grows middle)
    (h' : middle.Grows after) : before.Grows after :=
  ⟨h.root.trans h'.root, h'.cwd.trans h.cwd⟩

/-- What a path leads to is at the same location after files have grown. -/
theorem Grows.resolve {location : Location} (h : fs.Grows made)
    (hp : fs.resolve p = .ok (.occupied location node)) :
    ∃ other, made.resolve p = .ok (.occupied location other) ∧ other.shape = node.shape := by
  obtain ⟨hcheck, hwalk⟩ := leads_of_resolve hp
  rw [← h.cwd] at hwalk
  obtain ⟨other, hother⟩ := hwalk.extends h.root.keeps location node rfl
  obtain ⟨found, hfound, hshape⟩ := h.root.keeps location node (hwalk.at? location node rfl)
  have hsame : found = other := Option.some.inj (hfound.symm.trans (hother.at? location other rfl))
  exact ⟨other, resolve_of_leads hcheck hother, hsame ▸ hshape⟩

theorem Grows.hasDirectory (h : fs.Grows made) (hp : fs.hasDirectory p = true) :
    made.hasDirectory p = true := by
  unfold FileSystem.hasDirectory at hp ⊢
  rw [Option.any_eq_true] at hp ⊢
  obtain ⟨node, hnode, hd⟩ := hp
  rw [Outcome.toOption_eq_some_iff, stat_eq_ok_iff] at hnode
  obtain ⟨location, hlocation⟩ := hnode
  obtain ⟨other, hother, hshape⟩ := h.resolve hlocation
  refine ⟨other, Outcome.toOption_eq_some_iff.mpr (stat_eq_ok_iff.mpr ⟨location, hother⟩), ?_⟩
  cases node with
  | directory entries =>
    obtain ⟨others, rfl⟩ := FileNode.eq_directory_of_shape hshape
    rfl
  | _ => cases hd

/-! ## Writing -/

theorem resolve_of_resolveFile (h : fs.resolveFile p = .ok place) : fs.resolve p = .ok place := by
  unfold resolveFile at h
  split at h
  · rw [Outcome.bind_ok_iff] at h
    obtain ⟨_, -, h⟩ := h
    rw [Outcome.bind_ok_iff] at h
    obtain ⟨place, -, h⟩ := h
    split at h
    · cases h
    · cases h
    · cases h
  · exact h

theorem isEntryName_of_resolve {parent : Location} (h : fs.resolve p = .ok (.vacant parent name)) :
    Path.isEntryName name = true := by
  refine (leads_of_resolve h).2.isEntryName (fun _ hm => ?_) parent name rfl
  exact Path.isLegal_of_mem_steps hm

theorem grows_write (h : fs.write p content executable = .ok written) : fs.Grows written := by
  rw [write, Outcome.bind_ok_iff] at h
  obtain ⟨place, hplace, h⟩ := h
  have hresolve := resolve_of_resolveFile hplace
  split at h
  · cases h
    exact ⟨FileNode.grows_put_file (at?_of_resolve hresolve), rfl⟩
  · rw [Outcome.map_ok_iff] at h
    obtain ⟨_, -, rfl⟩ := h
    exact .refl fs
  · cases h
  · cases h
    obtain ⟨entries, hat, hl⟩ := (leads_of_resolve hresolve).2.at?_parent _ _ rfl
    exact ⟨FileNode.grows_put_vacant hat hl (isEntryName_of_resolve hresolve) rfl, rfl⟩

theorem grows_create (hnode : node.isWellFormed = true) (h : fs.create p node = .ok made) :
    fs.Grows made := by
  rw [create, Outcome.bind_ok_iff] at h
  obtain ⟨_, -, h⟩ := h
  rw [Outcome.bind_ok_iff] at h
  obtain ⟨place, hplace, h⟩ := h
  cases place with
  | occupied location node => cases h
  | vacant parent name =>
    cases h
    have hleads := leads_of_walkLinks hplace
    obtain ⟨entries, hat, hl⟩ := hleads.at?_parent parent name rfl
    refine ⟨FileNode.grows_put_vacant hat hl ?_ hnode, rfl⟩
    obtain ⟨stays, hsteps, -⟩ := p.steps_eq_entrySteps_append
    refine hleads.isEntryName (fun step hstep => ?_) parent name rfl
    exact Path.isLegal_of_mem_steps (hsteps ▸ List.mem_append_left stays hstep)

theorem grows_createDirectory (h : fs.createDirectory p = .ok made) : fs.Grows made :=
  grows_create rfl h

theorem grows_createFirst {paths : List Path} (h : fs.createFirst paths = .ok made) :
    fs.Grows made := by
  -- The first path is tried before the ones above it, and again after they were made.
  induction paths generalizing made with
  | nil =>
    cases h
    exact .refl fs
  | cons p above ih =>
    unfold createFirst at h
    split at h
    · cases h
      exact .refl fs
    · split at h
      · rename_i hmade
        cases h
        exact grows_createDirectory hmade
      · rw [Outcome.bind_ok_iff] at h
        obtain ⟨first, hfirst, h⟩ := h
        have hgrown := ih hfirst
        split at h
        · rename_i hmade
          cases h
          exact hgrown.trans (grows_createDirectory hmade)
        · split at h
          · cases h
            exact hgrown
          · cases h
      · split at h
        · cases h
          exact .refl fs
        · cases h

theorem grows_createDirectories (h : fs.createDirectories p = .ok made) : fs.Grows made :=
  grows_createFirst h

theorem grows_copy (h : fs.copy source target = .ok copied) : fs.Grows copied := by
  rw [copy, Outcome.bind_ok_iff] at h
  obtain ⟨node, -, h⟩ := h
  split at h
  · rw [Outcome.bind_ok_iff] at h
    obtain ⟨emptied, hemptied, h⟩ := h
    rw [Outcome.bind_ok_iff] at h
    obtain ⟨content, -, h⟩ := h
    rw [Outcome.bind_ok_iff] at h
    obtain ⟨filled, hfilled, h⟩ := h
    rw [Outcome.bind_ok_iff] at h
    obtain ⟨place, hplace, h⟩ := h
    have hgrown := (grows_write hemptied).trans (grows_write hfilled)
    split at h
    · cases h
      exact hgrown.trans ⟨FileNode.grows_put_file (at?_of_resolve hplace), rfl⟩
    · cases h
      exact hgrown
  · cases h

end FileSystem

end CompositionGen
