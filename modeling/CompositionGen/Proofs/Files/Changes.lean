import CompositionGen.Proofs.Files.Trees

/-!
# Changing trees

What a node that is put into a tree leaves as it was. Putting a file where there is a file, or
nothing, keeps every node at its location; putting a node under a name that an entry may have keeps
a tree well-formed.
-/

namespace CompositionGen

/-- A name gets its value and the others keep theirs, in whatever order they stand. -/
theorem Dictionary.lookup?_alterEntries_const {α : Type} (key name : String) (value : α)
    (entries : List (String × α)) :
    lookup? key (alterEntries name (fun _ => value) entries) =
      if key = name then some value else lookup? key entries := by
  induction entries with
  | nil => simp [alterEntries, lookup?, eq_comm]
  | cons entry rest ih =>
    obtain ⟨other, old⟩ := entry
    rw [alterEntries]
    split
    · rw [lookup?]
      simp only [eq_comm]
    · split
      · rename_i hname
        subst hname
        rw [lookup?, lookup?]
        by_cases hkey : name = key
        · rw [if_pos hkey, if_pos hkey.symm]
        · rw [if_neg hkey, if_neg (Ne.symm hkey), if_neg hkey]
      · rename_i hname
        rw [lookup?, lookup?, ih]
        by_cases hkey : other = key
        · rw [if_pos hkey, if_pos hkey, if_neg (fun h => hname (hkey.trans h).symm)]
        · rw [if_neg hkey, if_neg hkey]

namespace FileNode

variable {node child new : FileNode} {entries : Entries} {location front : Location}
  {name : String}

/-! ## Putting a node into a directory -/

theorem put_cons (h : lookup? name entries = some child) (rest : Location) :
    (directory entries).put (name :: rest) new =
      directory (Dictionary.alterEntries name (fun _ => child.put rest new) entries) := by
  cases rest with
  | nil => rfl
  | cons next rest => simp only [put, h]

/-- The directory that a node is put into, with the node under its name. -/
theorem at?_put_front (h : node.at? front = some (directory entries)) :
    (node.put (front ++ [name]) new).at? front =
      some (directory (Dictionary.alterEntries name (fun _ => new) entries)) := by
  induction front generalizing node with
  | nil =>
    cases h
    rfl
  | cons first front ih =>
    rw [at?_cons, Option.bind_eq_some_iff] at h
    obtain ⟨child, hchild, h⟩ := h
    cases node with
    | directory others =>
      rw [FileNode.entries] at hchild
      rw [List.cons_append, put_cons hchild, at?_cons]
      show ((lookup? first (Dictionary.alterEntries first _ others)).bind _) = _
      rw [Dictionary.lookup?_alterEntries_const, if_pos rfl]
      exact ih h
    | _ => cases hchild

/-! ## What stays where it was -/

/-- What a node is to those who pass it: its content does not count, and neither do entries. -/
def shape : FileNode → FileNode
  | file _ _ => file [] false
  | directory _ => directory []
  | other => other

/-- Every node of a tree is at its location in another one, where it has the same shape. -/
def Extends (after before : FileNode) : Prop :=
  ∀ location node, before.at? location = some node →
    ∃ other, after.at? location = some other ∧ other.shape = node.shape

theorem extends_alterEntries {after : FileNode} {others : Entries}
    (h : ∀ old, lookup? name others = some old → after.Extends old) :
    (directory (Dictionary.alterEntries name (fun _ => after) others)).Extends
      (directory others) := by
  intro location found hat
  cases location with
  | nil =>
    cases hat
    exact ⟨_, rfl, rfl⟩
  | cons first rest =>
    rw [at?_cons, FileNode.entries] at hat ⊢
    rw [Dictionary.lookup?_alterEntries_const]
    by_cases hfirst : first = name
    · subst hfirst
      rw [if_pos rfl]
      obtain ⟨old, hold, hat⟩ := Option.bind_eq_some_iff.mp hat
      exact h old hold rest found hat
    · rw [if_neg hfirst]
      exact ⟨found, hat, rfl⟩

theorem extends_file {content : Content} {executable : Bool} (h : node.isFile = true) :
    (file content executable).Extends node := by
  intro location found hat
  cases node with
  | file old flag =>
    cases location with
    | nil =>
      cases hat
      exact ⟨_, rfl, rfl⟩
    | cons first rest =>
      rw [at?_cons] at hat
      cases hat
  | _ => cases h

/-- Nothing moves when a node is put into a directory, or replaces one that it extends. -/
theorem extends_put (h : node.at? front = some (directory entries))
    (hold : ∀ old, lookup? name entries = some old → new.Extends old) :
    (node.put (front ++ [name]) new).Extends node := by
  induction front generalizing node with
  | nil =>
    cases h
    exact extends_alterEntries hold
  | cons first front ih =>
    rw [at?_cons, Option.bind_eq_some_iff] at h
    obtain ⟨child, hchild, h⟩ := h
    cases node with
    | directory others =>
      rw [FileNode.entries] at hchild
      rw [List.cons_append, put_cons hchild]
      refine extends_alterEntries fun old hl => ?_
      cases hchild.symm.trans hl
      exact ih h
    | _ => cases hchild

theorem extends_refl (node : FileNode) : node.Extends node := by
  intro location found hat
  exact ⟨found, hat, rfl⟩

theorem Extends.trans {last middle first : FileNode} (h : last.Extends middle)
    (h' : middle.Extends first) : last.Extends first := by
  intro location found hat
  obtain ⟨there, hthere, hshape⟩ := h' location found hat
  obtain ⟨other, hother, hshape'⟩ := h location there hthere
  exact ⟨other, hother, hshape'.trans hshape⟩

/-- Nothing moves when another file is put in the place of a file. -/
theorem extends_put_file {old content : Content} {flag executable : Bool}
    (h : node.at? location = some (file old flag)) :
    (node.put location (file content executable)).Extends node := by
  rcases location.eq_nil_or_concat with rfl | ⟨front, name, rfl⟩
  · cases h
    rw [put]
    exact extends_file rfl
  · rw [List.concat_eq_append, at?_append, Option.bind_eq_some_iff] at h
    obtain ⟨parent, hparent, h⟩ := h
    rw [List.concat_eq_append]
    cases parent with
    | directory entries =>
      refine extends_put hparent fun other hl => ?_
      have hold : lookup? name entries = some (file old flag) := by
        rw [← at?_entry hparent, at?_append, hparent]
        exact h
      cases hold.symm.trans hl
      exact extends_file rfl
    | _ => cases h

/-! ## Legal names -/

theorem areWellFormed_alterEntries (h : areWellFormed entries = true)
    (hname : Path.isEntryName name = true) (hnew : new.isWellFormed = true) :
    areWellFormed (Dictionary.alterEntries name (fun _ => new) entries) = true := by
  induction entries with
  | nil =>
    rw [Dictionary.alterEntries, areWellFormed_cons_iff]
    exact ⟨hname, hnew, by simp, rfl⟩
  | cons entry rest ih =>
    obtain ⟨other, old⟩ := entry
    obtain ⟨hother, hold, hlt, hrest⟩ := areWellFormed_cons_iff.mp h
    rw [Dictionary.alterEntries]
    split
    · rename_i hbefore
      refine areWellFormed_cons_iff.mpr ⟨hname, hnew, fun entry hm => ?_, h⟩
      rcases List.mem_cons.mp hm with rfl | hm
      · exact hbefore
      · exact String.lt_trans hbefore (hlt entry hm)
    · split
      · exact areWellFormed_cons_iff.mpr ⟨hother, hnew, hlt, hrest⟩
      · rename_i hnot hne
        refine areWellFormed_cons_iff.mpr ⟨hother, hold, fun entry hm => ?_, ih hrest⟩
        rcases Dictionary.mem_alterEntries hm with hn | ⟨value, hm⟩
        · show other < entry.1
          rw [hn]
          exact Decidable.byContradiction fun hge => hne (String.le_antisymm hge hnot)
        · exact hlt (entry.1, value) hm

/-- A node that is put under a legal name keeps a tree well-formed. -/
theorem isWellFormed_put (h : node.isWellFormed = true) (hnew : new.isWellFormed = true)
    (hname : ∀ name, location.getLast? = some name → Path.isEntryName name = true) :
    (node.put location new).isWellFormed = true := by
  induction location generalizing node with
  | nil => rwa [put]
  | cons first rest ih =>
    cases node with
    | directory entries =>
      rw [isWellFormed] at h
      cases rest with
      | nil =>
        rw [put, isWellFormed]
        exact areWellFormed_alterEntries h (hname first rfl) hnew
      | cons next rest =>
        simp only [put]
        split
        · rename_i child hchild
          obtain ⟨hfirst, hwell⟩ := of_mem_areWellFormed h (mem_of_lookup? hchild)
          rw [isWellFormed]
          refine areWellFormed_alterEntries h hfirst (ih hwell fun name hlast => hname name ?_)
          rwa [List.getLast?_cons_cons]
        · rwa [isWellFormed]
    | _ => simpa only [put] using h

end FileNode

end CompositionGen
