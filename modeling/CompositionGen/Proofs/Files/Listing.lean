import CompositionGen.Proofs.Files.Trees

/-!
# Listing a tree

A listing goes through a directory entry by entry and into each one where it meets it. All that is
below a node is listed so, each node once, and in the order of the locations, which goes name by
name: what is below `a` comes before `a.yaml`.
-/

namespace CompositionGen.FileNode

variable {node found : FileNode} {entries : Entries} {location : Location} {content : Content}

/-! ## What is listed -/

mutual

theorem mem_descendants_iff : ∀ {node found : FileNode} {location : Location},
    node.isWellFormed = true → ((location, found) ∈ node.descendants ↔
      location ≠ [] ∧ node.at? location = some found)
  | directory entries, found, location, h => by
    rw [isWellFormed] at h
    rw [descendants, mem_descendantsOf_iff h]
    cases location with
    | nil => simp
    | cons name rest =>
      rw [at?_cons, Option.bind_eq_some_iff]
      simp only [lookup?_eq_some_iff (sorted_of_areWellFormed h), FileNode.entries, ne_eq,
        List.cons_ne_nil, not_false_eq_true, true_and, List.cons.injEq]
      constructor
      · rintro ⟨_, _, child, ⟨rfl, rfl⟩, hm, hat⟩
        exact ⟨child, hm, hat⟩
      · rintro ⟨child, hm, hat⟩
        exact ⟨name, rest, child, ⟨rfl, rfl⟩, hm, hat⟩
  | file _ _, _, location, _ => by
    cases location <;> simp [descendants, at?_cons, FileNode.entries, lookup?]
  | device _, _, location, _ => by
    cases location <;> simp [descendants, at?_cons, FileNode.entries, lookup?]
  | link _, _, location, _ => by
    cases location <;> simp [descendants, at?_cons, FileNode.entries, lookup?]

theorem mem_descendantsOf_iff : ∀ {entries : Entries} {found : FileNode} {location : Location},
    areWellFormed entries = true → ((location, found) ∈ descendantsOf entries ↔
      ∃ name rest child, location = name :: rest ∧ (name, child) ∈ entries ∧
        child.at? rest = some found)
  | [], _, _, _ => by simp [descendantsOf]
  | (name, node) :: entries, found, location, h => by
    obtain ⟨-, hnode, -, hrest⟩ := areWellFormed_cons_iff.mp h
    have hbelow : (location, found) ∈ node.descendants.map (fun (l, n) => (name :: l, n)) ↔
        ∃ rest, location = name :: rest ∧ rest ≠ [] ∧ node.at? rest = some found := by
      rw [List.mem_map]
      constructor
      · rintro ⟨⟨rest, n⟩, hm, heq⟩
        cases heq
        exact ⟨rest, rfl, (mem_descendants_iff hnode).mp hm⟩
      · rintro ⟨rest, rfl, hat⟩
        exact ⟨(rest, found), (mem_descendants_iff hnode).mpr hat, rfl⟩
    rw [descendantsOf, List.mem_append, List.mem_cons, hbelow, mem_descendantsOf_iff hrest]
    constructor
    · rintro ((heq | ⟨rest, rfl, -, hat⟩) | ⟨other, rest, child, rfl, hm, hat⟩)
      · cases heq
        exact ⟨name, [], node, rfl, List.mem_cons_self, rfl⟩
      · exact ⟨name, rest, node, rfl, List.mem_cons_self, hat⟩
      · exact ⟨other, rest, child, rfl, List.mem_cons_of_mem _ hm, hat⟩
    · rintro ⟨other, rest, child, rfl, hm, hat⟩
      rcases List.mem_cons.mp hm with heq | hm
      · cases heq
        cases rest with
        | nil =>
          cases hat
          exact .inl (.inl rfl)
        | cons next rest => exact .inl (.inr ⟨next :: rest, rfl, by simp, hat⟩)
      · exact .inr ⟨other, rest, child, rfl, hm, hat⟩

end

/-- A node and all that is below it. -/
def listing (node : FileNode) : List (Location × FileNode) := ([], node) :: node.descendants

theorem mem_listing_iff (h : node.isWellFormed = true) :
    (location, found) ∈ node.listing ↔ node.at? location = some found := by
  rw [listing, List.mem_cons, mem_descendants_iff h]
  cases location with
  | nil =>
    rw [at?]
    simp [eq_comm]
  | cons name rest => simp

/-! ## The order of a listing -/

mutual

theorem ascending_descendants : ∀ {node : FileNode}, node.isWellFormed = true →
    node.descendants.Pairwise fun a b => a.1 < b.1
  | directory entries, h => by
    rw [isWellFormed] at h
    rw [descendants]
    exact ascending_descendantsOf h
  | file _ _, _ => .nil
  | device _, _ => .nil
  | link _, _ => .nil

theorem ascending_descendantsOf : ∀ {entries : Entries}, areWellFormed entries = true →
    (descendantsOf entries).Pairwise fun a b => a.1 < b.1
  | [], _ => .nil
  | (name, node) :: entries, h => by
    obtain ⟨-, hnode, hlt, hrest⟩ := areWellFormed_cons_iff.mp h
    rw [descendantsOf, List.pairwise_append, List.pairwise_cons, List.pairwise_map]
    refine ⟨⟨?_, ?_⟩, ascending_descendantsOf hrest, ?_⟩
    · -- A directory comes before what it holds: its location is the shorter one.
      intro e he
      obtain ⟨⟨rest, n⟩, hm, rfl⟩ := List.mem_map.mp he
      obtain ⟨hne, -⟩ := (mem_descendants_iff hnode).mp hm
      obtain ⟨next, tail, rfl⟩ := List.exists_cons_of_ne_nil hne
      exact List.cons_lt_cons_iff.mpr (.inr ⟨rfl, List.nil_lt_cons _ _⟩)
    · exact (ascending_descendants hnode).imp fun hab => List.cons_lt_cons_iff.mpr (.inr ⟨rfl, hab⟩)
    · -- Locations that begin with different names are in the order of these.
      have hfirst : ∀ e ∈ ([name], node) :: node.descendants.map (fun (l, n) => (name :: l, n)),
          ∃ rest, e.1 = name :: rest := by
        intro e he
        rcases List.mem_cons.mp he with rfl | he
        · exact ⟨[], rfl⟩
        · obtain ⟨_, -, rfl⟩ := List.mem_map.mp he
          exact ⟨_, rfl⟩
      intro e he e' he'
      obtain ⟨rest, hl⟩ := hfirst e he
      obtain ⟨other, rest', child, hl', hm, -⟩ := (mem_descendantsOf_iff hrest).mp he'
      rw [hl, hl']
      exact List.cons_lt_cons_iff.mpr (.inl (hlt _ hm))

end

/-! ## Regular files -/

/-- A list of the regular files below a node: it has each once, in the order of their locations,
which goes by the bytes of the first name that differs. -/
structure ListsFiles (node : FileNode) (files : List (Location × Content)) : Prop where
  mem_iff : ∀ location content, (location, content) ∈ files ↔
    ∃ executable, node.at? location = some (.file content executable)
  ascending : files.Pairwise fun a b => a.1 < b.1

/-- The content that is listed, if it is that of a regular file. -/
def listed? : Location × FileNode → Option (Location × Content)
  | (location, file content _) => some (location, content)
  | _ => none

theorem listed?_eq_some_iff {e : Location × FileNode} : listed? e = some (location, content) ↔
    ∃ executable, e = (location, file content executable) := by
  obtain ⟨l, n⟩ := e
  cases n with
  | file c executable => simp [listed?]
  | _ => simp [listed?]

/-- The regular files below a node. -/
def regularFiles (node : FileNode) : List (Location × Content) := node.descendants.filterMap listed?

theorem listsFiles_regularFiles (h : (directory entries).isWellFormed = true) :
    ListsFiles (directory entries) (directory entries).regularFiles where
  mem_iff location content := by
    simp only [regularFiles, List.mem_filterMap, listed?_eq_some_iff]
    constructor
    · rintro ⟨_, hm, executable, rfl⟩
      exact ⟨executable, ((mem_descendants_iff h).mp hm).2⟩
    · rintro ⟨executable, hat⟩
      refine ⟨_, (mem_descendants_iff h).mpr ⟨?_, hat⟩, executable, rfl⟩
      rintro rfl
      cases hat
  ascending := by
    rw [regularFiles, List.pairwise_filterMap]
    refine (ascending_descendants h).imp ?_
    rintro _ _ hlt ⟨la, ca⟩ ha ⟨lb, cb⟩ hb
    obtain ⟨_, rfl⟩ := listed?_eq_some_iff.mp ha
    obtain ⟨_, rfl⟩ := listed?_eq_some_iff.mp hb
    exact hlt

/-- The regular files of a directory are those in its listing. -/
theorem map_filter_isFile (entries : Entries) :
    ((directory entries).listing.filter fun e => e.2.isFile).map (·.1) =
      (directory entries).regularFiles.map (·.1) := by
  rw [listing, List.filter_cons_of_neg (by simp [isFile]), regularFiles]
  induction (directory entries).descendants with
  | nil => rfl
  | cons e rest ih =>
    obtain ⟨location, node⟩ := e
    cases node with
    | file content executable => exact congrArg (location :: ·) ih
    | _ => exact ih

/-- What is below a node determines the list of its regular files. -/
theorem ListsFiles.unique {files files' : List (Location × Content)} (h : ListsFiles node files)
    (h' : ListsFiles node files') : files = files' := by
  have hnodup {files : List (Location × Content)} (h : ListsFiles node files) : files.Nodup := by
    refine h.ascending.imp ?_
    rintro a _ hlt rfl
    exact List.lt_irrefl _ hlt
  refine List.Perm.eq_of_pairwise ?_ h.ascending h'.ascending ?_
  · intro a b _ _ hab hba
    exact absurd hba (List.lt_asymm hab)
  · rw [List.perm_ext_iff_of_nodup (hnodup h) (hnodup h')]
    rintro ⟨location, content⟩
    rw [h.mem_iff, h'.mem_iff]

end CompositionGen.FileNode
