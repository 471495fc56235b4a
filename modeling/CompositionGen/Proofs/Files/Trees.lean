import CompositionGen.Files
import CompositionGen.Proofs.Dictionary
import CompositionGen.Proofs.Files.Paths

/-!
# Well-formed trees

In a tree that a system can hold, every entry has a name that is a component of its own, and the
names in a directory ascend. Such a tree is determined by what is at its locations, and a list of
its directories has each of them once.
-/

namespace CompositionGen

namespace FileNode

mutual

/-- Whether the names in a tree are ones that entries may have and ascend in every directory. -/
def isWellFormed : FileNode → Bool
  | directory entries => areWellFormed entries
  | _ => true

/-- Whether entries have names that they may have, in ascending order, and well-formed nodes. -/
def areWellFormed : Entries → Bool
  | [] => true
  | (name, node) :: rest =>
    Path.isEntryName name && isWellFormed node && rest.all (fun entry => decide (name < entry.1))
      && areWellFormed rest

end

variable {node child : FileNode} {entries : Entries} {here location : Location}

theorem areWellFormed_cons_iff {name : String} :
    areWellFormed ((name, node) :: entries) = true ↔
      Path.isEntryName name = true ∧ node.isWellFormed = true ∧
        (∀ entry ∈ entries, name < entry.1) ∧ areWellFormed entries = true := by
  simp [areWellFormed, and_assoc]

theorem sorted_of_areWellFormed (h : areWellFormed entries = true) :
    entries.Pairwise fun a b => a.1 < b.1 := by
  induction entries with
  | nil => exact .nil
  | cons entry rest ih =>
    obtain ⟨-, -, hlt, hr⟩ := areWellFormed_cons_iff.mp h
    exact List.pairwise_cons.mpr ⟨hlt, ih hr⟩

theorem of_mem_areWellFormed {name : String} (h : areWellFormed entries = true)
    (hm : (name, node) ∈ entries) : Path.isEntryName name = true ∧ node.isWellFormed = true := by
  induction entries with
  | nil => cases hm
  | cons entry rest ih =>
    obtain ⟨hname, hnode, -, hr⟩ := areWellFormed_cons_iff.mp h
    rcases List.mem_cons.mp hm with rfl | hm
    · exact ⟨hname, hnode⟩
    · exact ih hr hm

theorem areWellFormed_entries (h : node.isWellFormed = true) :
    areWellFormed node.entries = true := by
  cases node with
  | directory entries => rwa [isWellFormed] at h
  | _ => rfl

/-! ## Locations -/

theorem at?_cons (node : FileNode) (name : String) (rest : Location) :
    node.at? (name :: rest) = (lookup? name node.entries).bind fun child => child.at? rest := by
  rw [at?]

theorem at?_append (node : FileNode) (a b : Location) :
    node.at? (a ++ b) = (node.at? a).bind fun child => child.at? b := by
  induction a generalizing node with
  | nil => rfl
  | cons name a ih =>
    rw [List.cons_append, at?_cons, at?_cons, Option.bind_assoc]
    exact congrArg _ (funext fun child => ih child)

theorem at?_entry (h : node.at? location = some (directory entries)) (name : String) :
    node.at? (location ++ [name]) = lookup? name entries := by
  rw [at?_append, h, Option.bind_some, at?_cons, FileNode.entries]
  cases lookup? name entries with
  | none => rfl
  | some child => rfl

theorem of_at? (h : node.isWellFormed = true) (hat : node.at? location = some child) :
    child.isWellFormed = true ∧ ∀ name ∈ location, Path.isEntryName name = true := by
  induction location generalizing node with
  | nil =>
    cases hat
    exact ⟨h, by simp⟩
  | cons name rest ih =>
    rw [at?_cons, Option.bind_eq_some_iff] at hat
    obtain ⟨next, hn, hat⟩ := hat
    obtain ⟨hname, hnext⟩ := of_mem_areWellFormed (areWellFormed_entries h) (mem_of_lookup? hn)
    obtain ⟨hchild, hrest⟩ := ih hnext hat
    exact ⟨hchild, List.forall_mem_cons.mpr ⟨hname, hrest⟩⟩

/-! ## Trees without links -/

mutual

/-- Whether nothing in a tree is a link. -/
def isLinkFree : FileNode → Bool
  | link _ => false
  | directory entries => areLinkFree entries
  | _ => true

/-- Whether nothing in the trees of entries is a link. -/
def areLinkFree : Entries → Bool
  | [] => true
  | (_, node) :: rest => isLinkFree node && areLinkFree rest

end

theorem isLinkFree_of_mem {name : String} (h : areLinkFree entries = true)
    (hm : (name, node) ∈ entries) : node.isLinkFree = true := by
  induction entries with
  | nil => cases hm
  | cons entry rest ih =>
    rw [areLinkFree, Bool.and_eq_true] at h
    rcases List.mem_cons.mp hm with rfl | hm
    · exact h.1
    · exact ih h.2 hm

theorem isLinkFree_of_at? (h : node.isLinkFree = true) (hat : node.at? location = some child) :
    child.isLinkFree = true := by
  induction location generalizing node with
  | nil =>
    cases hat
    exact h
  | cons name rest ih =>
    rw [at?_cons, Option.bind_eq_some_iff] at hat
    obtain ⟨next, hnext, hat⟩ := hat
    refine ih ?_ hat
    cases node with
    | directory entries =>
      rw [isLinkFree] at h
      exact isLinkFree_of_mem h (mem_of_lookup? hnext)
    | _ => cases hnext

/-! ## Directories below a node -/

/-- Whether a search that is at `here` enters every directory on a way. -/
def enters (admits : Location → Bool) (here : Location) : Location → Bool
  | [] => true
  | name :: rest => admits (here ++ [name]) && enters admits (here ++ [name]) rest

/-- A way that is entered is one all of whose beginnings are admitted. -/
theorem enters_iff {admits : Location → Bool} {way : Location} : enters admits here way = true ↔
    ∀ front, front ≠ [] → front <+: way → admits (here ++ front) = true := by
  induction way generalizing here with
  | nil =>
    refine iff_of_true rfl fun front hne hfront => ?_
    exact absurd (List.prefix_nil.mp hfront) hne
  | cons name rest ih =>
    rw [enters, Bool.and_eq_true, ih]
    constructor
    · rintro ⟨hname, hrest⟩ front hne hfront
      rcases front with _ | ⟨first, tail⟩
      · exact absurd rfl hne
      · obtain ⟨rfl, htail⟩ := List.cons_prefix_cons.mp hfront
        by_cases ht : tail = []
        · rw [ht]
          exact hname
        · rw [List.append_cons]
          exact hrest tail ht htail
    · intro h
      constructor
      · exact h [name] (by simp) ⟨rest, rfl⟩
      · intro front hne hfront
        rw [List.append_assoc]
        exact h (name :: front) (by simp) (List.cons_prefix_cons.mpr ⟨rfl, hfront⟩)

/-- Whether a way leads from a node to a directory. -/
def hasDirectoryAt (node : FileNode) (way : Location) : Bool := (node.at? way).any isDirectory

theorem isDirectory_of_hasDirectoryAt (h : node.hasDirectoryAt location = true) :
    node.isDirectory = true := by
  cases location with
  | nil => exact h
  | cons name rest =>
    cases node with
    | directory entries => rfl
    | _ => simp [hasDirectoryAt, at?_cons, entries, lookup?] at h

theorem hasDirectoryAt_cons_iff {name : String} {rest : Location}
    (sorted : node.entries.Pairwise fun a b => a.1 < b.1) :
    node.hasDirectoryAt (name :: rest) = true ↔
      ∃ child, (name, child) ∈ node.entries ∧ child.hasDirectoryAt rest = true := by
  simp only [hasDirectoryAt, at?_cons, Option.any_eq_true, Option.bind_eq_some_iff,
    lookup?_eq_some_iff sorted]
  constructor
  · rintro ⟨d, ⟨child, hm, hat⟩, hd⟩
    exact ⟨child, hm, d, hat, hd⟩
  · rintro ⟨child, hm, d, hat, hd⟩
    exact ⟨d, ⟨child, hm, hat⟩, hd⟩

variable {admits : Location → Bool}

/-- A location is among the directories that are found. -/
def Found (admits : Location → Bool) (here : Location) (node : FileNode) (location : Location) :
    Prop :=
  ∃ name rest, location = here ++ name :: rest ∧ node.hasDirectoryAt (name :: rest) = true ∧
    enters admits here (name :: rest) = true

/-- What is found at one entry, if what is found below it is known. -/
theorem mem_entry_iff {name : String} (below : ∀ location,
      location ∈ node.directoriesBelow admits (here ++ [name]) ↔
        Found admits (here ++ [name]) node location) :
    location ∈ (if node.isDirectory && admits (here ++ [name]) then
        (here ++ [name]) :: node.directoriesBelow admits (here ++ [name]) else []) ↔
      ∃ rest, location = here ++ name :: rest ∧ node.hasDirectoryAt rest = true ∧
        enters admits here (name :: rest) = true := by
  split
  · rename_i hin
    rw [Bool.and_eq_true] at hin
    rw [List.mem_cons, below]
    constructor
    · rintro (rfl | ⟨next, rest, rfl, hd, he⟩)
      · exact ⟨[], rfl, hin.1, by simp [enters, hin.2]⟩
      · exact ⟨next :: rest, by simp, hd, by rw [enters, hin.2, he, Bool.true_and]⟩
    · rintro ⟨rest, rfl, hd, he⟩
      rw [enters, Bool.and_eq_true] at he
      cases rest with
      | nil => exact .inl rfl
      | cons next rest => exact .inr ⟨next, rest, by simp, hd, he.2⟩
  · rename_i hout
    -- A way that goes on from here leads through a directory that the search enters.
    refine iff_of_false List.not_mem_nil ?_
    rintro ⟨rest, -, hd, he⟩
    rw [enters, Bool.and_eq_true] at he
    exact hout (by rw [isDirectory_of_hasDirectoryAt hd, he.1, Bool.and_self])

mutual

/-- The directories that are found are those at the end of a way that the search may go. -/
theorem mem_directoriesBelow_iff : ∀ {node : FileNode} {here location : Location},
    node.isWellFormed = true →
      (location ∈ node.directoriesBelow admits here ↔ Found admits here node location)
  | directory entries, here, location, h => by
    rw [isWellFormed] at h
    have hs : (directory entries).entries.Pairwise fun a b => a.1 < b.1 :=
      sorted_of_areWellFormed h
    rw [directoriesBelow, mem_directoriesOf_iff h]
    refine exists_congr fun name => exists_congr fun rest => and_congr_right fun _ => ?_
    rw [hasDirectoryAt_cons_iff hs]
    rfl
  | file _ _, _, _, _ => by
    simp [directoriesBelow, Found, hasDirectoryAt, at?_cons, entries, lookup?]
  | device _, _, _, _ => by
    simp [directoriesBelow, Found, hasDirectoryAt, at?_cons, entries, lookup?]
  | link _, _, _, _ => by
    simp [directoriesBelow, Found, hasDirectoryAt, at?_cons, entries, lookup?]

theorem mem_directoriesOf_iff : ∀ {entries : Entries} {here location : Location},
    areWellFormed entries = true → (location ∈ directoriesOf admits here entries ↔
      ∃ name rest, location = here ++ name :: rest ∧
        (∃ child, (name, child) ∈ entries ∧ child.hasDirectoryAt rest = true) ∧
        enters admits here (name :: rest) = true)
  | [], _, _, _ => by simp [directoriesOf]
  | (name, node) :: entries, here, location, h => by
    obtain ⟨-, hnode, -, hrest⟩ := areWellFormed_cons_iff.mp h
    rw [directoriesOf, List.mem_append, mem_directoriesOf_iff hrest,
      mem_entry_iff fun _ => mem_directoriesBelow_iff hnode]
    constructor
    · rintro (⟨rest, hl, hd, he⟩ | ⟨other, rest, hl, ⟨child, hm, hd⟩, he⟩)
      · exact ⟨name, rest, hl, ⟨node, List.mem_cons_self, hd⟩, he⟩
      · exact ⟨other, rest, hl, ⟨child, List.mem_cons_of_mem _ hm, hd⟩, he⟩
    · rintro ⟨other, rest, hl, ⟨child, hm, hd⟩, he⟩
      rcases List.mem_cons.mp hm with heq | hm
      · cases heq
        exact .inl ⟨rest, hl, hd, he⟩
      · exact .inr ⟨other, rest, hl, ⟨child, hm, hd⟩, he⟩

end

mutual

/-- No directory is found twice. -/
theorem nodup_directoriesBelow : ∀ {node : FileNode} {here : Location},
    node.isWellFormed = true → (node.directoriesBelow admits here).Nodup
  | directory entries, here, h => by
    rw [isWellFormed] at h
    rw [directoriesBelow]
    exact nodup_directoriesOf h
  | file _ _, _, _ => .nil
  | device _, _, _ => .nil
  | link _, _, _ => .nil

theorem nodup_directoriesOf : ∀ {entries : Entries} {here : Location},
    areWellFormed entries = true → (directoriesOf admits here entries).Nodup
  | [], _, _ => .nil
  | (name, node) :: entries, here, h => by
    obtain ⟨-, hnode, hlt, hrest⟩ := areWellFormed_cons_iff.mp h
    rw [directoriesOf, List.nodup_append]
    refine ⟨?_, nodup_directoriesOf hrest, ?_⟩
    · split
      · refine List.nodup_cons.mpr ⟨?_, nodup_directoriesBelow hnode⟩
        rw [mem_directoriesBelow_iff hnode]
        rintro ⟨next, rest, hl, -, -⟩
        simp at hl
      · exact .nil
    · rintro location hm _ hm' rfl
      rw [mem_entry_iff fun _ => mem_directoriesBelow_iff hnode] at hm
      rw [mem_directoriesOf_iff hrest] at hm'
      obtain ⟨rest, rfl, -, -⟩ := hm
      obtain ⟨other, rest', hl, ⟨child, hc, -⟩, -⟩ := hm'
      obtain ⟨rfl, -⟩ := List.cons.inj (List.append_cancel_left hl)
      exact String.lt_irrefl _ (hlt _ hc)

end

end FileNode

end CompositionGen
