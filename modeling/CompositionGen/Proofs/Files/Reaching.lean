import CompositionGen.Proofs.Files.Listing
import CompositionGen.Proofs.Files.Walks
import Mathlib.Data.List.Induction

/-!
# Paths into a tree

The path of a directory joined with a name leads to what stands under the name, as long as the name
and the path are not too long. So what can be found below a directory by its path is what stands
there in the tree.
-/

namespace CompositionGen

namespace Path

/-- Whether a file may have a name. -/
def isFileName (name : ByteString) : Bool :=
  isEntryName name && !name.toList.contains '\x00' && decide (name.length ≤ FileSystem.nameLimit)

theorem isFileName_iff {name : ByteString} : isFileName name = true ↔
    isEntryName name = true ∧ '\x00' ∉ name.toList ∧ name.length ≤ FileSystem.nameLimit := by
  simp [isFileName, and_assoc]

theorem toList_join_name {name : ByteString} (p : Path) (h : isEntryName name = true) :
    ∃ between, (∀ c ∈ between, c = '/') ∧
      (p.join ⟨name⟩).text.toList = p.text.toList ++ between ++ name.toList := by
  rw [join, isAbsolute_name h, if_neg Bool.false_ne_true]
  split
  · exact ⟨[], by simp, by simp⟩
  · exact ⟨['/'], by simp, by simp⟩

theorem joinAll_append (p : Path) (names more : List ByteString) :
    p.joinAll (names ++ more) = (p.joinAll names).joinAll more :=
  List.foldl_append

theorem joinAll_concat (p : Path) (names : List ByteString) (name : ByteString) :
    p.joinAll (names ++ [name]) = (p.joinAll names).join ⟨name⟩ :=
  joinAll_append p names [name]

end Path

namespace FileSystem

variable {fs : FileSystem} {p dir : Path} {root node found : FileNode} {links : Nat}
  {here there base location : Location} {steps more : List Path.Step} {place target : Place}
  {entries : Entries} {name : ByteString}

theorem leads_of_resolve (h : fs.resolve p = .ok place) :
    checkPath p = .ok () ∧ Leads fs.root true linkLimit (startOf fs.cwd p) p.steps place := by
  rw [resolve, Outcome.bind_ok_iff] at h
  obtain ⟨_, hcheck, h⟩ := h
  exact ⟨hcheck, leads_of_walkLinks h⟩

theorem resolve_of_leads (hcheck : checkPath p = .ok ())
    (h : Leads fs.root true linkLimit (startOf fs.cwd p) p.steps place) :
    fs.resolve p = .ok place := by
  rw [resolve, hcheck]
  exact h.walkLinks_eq

theorem stat_eq_ok_iff : fs.stat p = .ok node ↔
    ∃ location, fs.resolve p = .ok (.occupied location node) := by
  rw [stat, Outcome.bind_ok_iff]
  constructor
  · rintro ⟨place, hplace, h⟩
    cases place with
    | occupied location found =>
      cases h
      exact ⟨location, hplace⟩
    | vacant parent name => cases h
  · rintro ⟨location, h⟩
    exact ⟨_, h, rfl⟩

theorem hasNode_iff : fs.hasNode p = true ↔ ∃ node, fs.stat p = .ok node := by
  rw [hasNode]
  cases fs.stat p <;> simp [Except.toOption]

theorem checkPath_eq_ok_iff : checkPath p = .ok () ↔
    '\x00' ∉ p.text.toList ∧ p.text ≠ "" ∧ p.text.length ≤ pathLimit := by
  rw [checkPath]
  split
  · next hnull =>
    rw [List.any_eq_true] at hnull
    obtain ⟨c, hc, heq⟩ := hnull
    obtain rfl := of_decide_eq_true heq
    exact iff_of_false nofun fun h => h.1 hc
  · next hnull =>
    have hnull' : '\x00' ∉ p.text.toList := by simpa using hnull
    split
    · next hempty => exact iff_of_false nofun fun h => h.2.1 (String.isEmpty_iff.mp hempty)
    · next hempty =>
      have hempty' : p.text ≠ "" := fun h => hempty (String.isEmpty_iff.mpr h)
      split
      · next hlong => exact iff_of_false nofun fun h => Nat.not_lt.mpr h.2.2 hlong
      · next hlong => exact iff_of_true rfl ⟨hnull', hempty', Nat.not_lt.mp hlong⟩

theorem text_ne_of_resolve (h : fs.resolve p = .ok place) : p.text ≠ "" :=
  (checkPath_eq_ok_iff.mp (leads_of_resolve h).1).2.1

/-- What steps lead to, if it is no link, they lead to also where links at the end are followed. -/
theorem Leads.followed (h : Leads root false links here steps place) :
    ∀ location node, place = .occupied location node → (∀ target, node ≠ .link target) →
      Leads root true links here steps place := by
  induction h with
  | done hat => exact fun _ _ _ _ => .done hat
  | stay hat next ih =>
    exact fun location node hplace hnode => .stay hat (ih location node hplace hnode)
  | up hat next ih =>
    exact fun location node hplace hnode => .up hat (ih location node hplace hnode)
  | vacant hat hsize hl => rintro _ _ ⟨⟩
  | entry last hat hsize hl =>
    rintro _ _ ⟨rfl, rfl⟩ hnode
    exact absurd rfl (hnode _)
  | link follow hat hsize hl next ih =>
    exact fun location node hplace hnode =>
      .link (fun _ => rfl) hat hsize hl (ih location node hplace hnode)
  | down hother hat hsize hl next ih =>
    exact fun location node hplace hnode => .down hother hat hsize hl
      (ih location node hplace hnode)

theorem resolve_of_entryStat (h : fs.entryStat p = .ok node)
    (hnode : ∀ target, node ≠ .link target) :
    ∃ location, fs.resolveEntry p = .ok (.occupied location node) ∧
      fs.resolve p = .ok (.occupied location node) := by
  rw [entryStat, Outcome.bind_ok_iff] at h
  obtain ⟨place, hplace, h⟩ := h
  cases place with
  | vacant parent name => cases h
  | occupied location found =>
    cases h
    refine ⟨location, hplace, ?_⟩
    rw [resolveEntry, Outcome.bind_ok_iff] at hplace
    obtain ⟨_, hcheck, hwalk⟩ := hplace
    exact resolve_of_leads hcheck ((leads_of_walkLinks hwalk).followed _ _ rfl hnode)

/-! ## One name more -/

/-- Steps that go on from where others lead, whatever links there are left. -/
theorem Leads.andThen (h : Leads root true links here steps place)
    (hnext : ∀ left, Leads root true left there more target) :
    ∀ node, place = .occupied there node → Leads root true links here (steps ++ more) target := by
  induction h with
  | done hat =>
    rintro node ⟨rfl, -⟩
    exact hnext _
  | stay hat next ih => exact fun node hplace => .stay hat (ih node hplace)
  | up hat next ih => exact fun node hplace => .up hat (ih node hplace)
  | vacant hat hsize hl => rintro node ⟨⟩
  | entry last hat hsize hl => cases last
  | link follow hat hsize hl next ih =>
    intro node hplace
    refine .link (fun _ => rfl) hat hsize hl ?_
    have hmore := ih node hplace
    rwa [List.append_assoc] at hmore
  | down hnode hat hsize hl next ih =>
    exact fun node hplace => .down hnode hat hsize hl (ih node hplace)

/-- The path of an entry takes the steps to the directory, and then the one to its name. -/
theorem steps_join (h : fs.resolve dir = .ok (.occupied location (.directory entries)))
    (hname : Path.isEntryName name = true) : ∃ front,
    (dir.join ⟨name⟩).steps = front ++ [.down name] ∧
      startOf fs.cwd (dir.join ⟨name⟩) = startOf fs.cwd dir ∧
      Leads fs.root true linkLimit (startOf fs.cwd dir) front
        (.occupied location (.directory entries)) := by
  have htext := text_ne_of_resolve h
  obtain ⟨-, hdir⟩ := leads_of_resolve h
  obtain ⟨front, hfront, hpieces⟩ := Path.pieces_join_name htext hname
  refine ⟨front.map Path.stepOf, ?_, ?_, ?_⟩
  · rw [Path.steps, hpieces, List.map_append, List.map_singleton, Path.stepOf_name hname]
  · rw [startOf, Path.isAbsolute_join_name htext hname, ← startOf]
  · rw [Path.steps] at hdir
    rcases hfront with hfront | hfront
    · rwa [hfront] at hdir
    · rw [hfront, List.map_append] at hdir
      exact hdir.of_append_stays fun step hstep => List.mem_singleton.mp hstep

/-- The path of an entry leads to the directory and from there to its name. -/
theorem leads_of_join (h : fs.resolve dir = .ok (.occupied location (.directory entries)))
    (hname : Path.isEntryName name = true) (hp : fs.resolve (dir.join ⟨name⟩) = .ok place) :
    ∃ left, Leads fs.root true left location [.down name] place := by
  obtain ⟨front, hsteps, hstart, hfront⟩ := steps_join h hname
  obtain ⟨-, hjoin⟩ := leads_of_resolve hp
  rw [hsteps, hstart] at hjoin
  obtain ⟨there, found, left, hthere, hleft⟩ := hjoin.append _ _ rfl (List.cons_ne_nil _ _)
  cases hthere.walkLinks_eq.symm.trans hfront.walkLinks_eq
  exact ⟨left, hleft⟩

/-- What the path of an entry leads to, if it is no link. -/
theorem resolve_join_of_ok (h : fs.resolve dir = .ok (.occupied location (.directory entries)))
    (hname : Path.isEntryName name = true) (hnode : ∀ target, node ≠ .link target)
    (hl : lookup? name entries = some node) (hp : fs.resolve (dir.join ⟨name⟩) = .ok place) :
    place = .occupied (location ++ [name]) node := by
  obtain ⟨left, hleads⟩ := leads_of_join h hname hp
  have hdir := at?_of_resolve h
  cases hleads with
  | vacant hat hsize hnone =>
    cases hdir.symm.trans hat
    cases hl.symm.trans hnone
  | entry last hat hsize hl => cases last
  | link follow hat hsize hlink next =>
    cases hdir.symm.trans hat
    cases hl.symm.trans hlink
    exact absurd rfl (hnode _)
  | down hnode hat hsize hfound next =>
    cases hdir.symm.trans hat
    cases hl.symm.trans hfound
    cases next with
    | done hdone =>
      rw [FileNode.at?_entry hat, hl] at hdone
      cases hdone
      rfl

/-- The path of an entry that is not there leads to its place. -/
theorem resolve_join_of_none (h : fs.resolve dir = .ok (.occupied location (.directory entries)))
    (hname : Path.isEntryName name = true) (hl : lookup? name entries = none)
    (hp : fs.resolve (dir.join ⟨name⟩) = .ok place) : place = .vacant location name := by
  obtain ⟨left, hleads⟩ := leads_of_join h hname hp
  have hdir := at?_of_resolve h
  cases hleads with
  | vacant hat hsize hnone => rfl
  | entry last hat hsize hl => cases last
  | link follow hat hsize hlink next =>
    cases hdir.symm.trans hat
    cases hl.symm.trans hlink
  | down hnode hat hsize hfound next =>
    cases hdir.symm.trans hat
    cases hl.symm.trans hfound

/-- The path of an entry with a legal name is followed if it is not too long. -/
theorem resolve_join (h : fs.resolve dir = .ok (.occupied location (.directory entries)))
    (hname : Path.isFileName name = true) (hnode : ∀ target, node ≠ .link target)
    (hl : lookup? name entries = some node)
    (hlength : (dir.join ⟨name⟩).text.length ≤ pathLimit) :
    fs.resolve (dir.join ⟨name⟩) = .ok (.occupied (location ++ [name]) node) := by
  obtain ⟨hentry, hnull, hsize⟩ := Path.isFileName_iff.mp hname
  obtain ⟨front, hsteps, hstart, hfront⟩ := steps_join h hentry
  have hdir := at?_of_resolve h
  have hcheck : checkPath (dir.join ⟨name⟩) = .ok () := by
    obtain ⟨hnull', -, -⟩ := checkPath_eq_ok_iff.mp (leads_of_resolve h).1
    obtain ⟨between, hslashes, htext⟩ := Path.toList_join_name dir hentry
    refine checkPath_eq_ok_iff.mpr ⟨?_, fun hempty => ?_, hlength⟩
    · rw [htext, List.mem_append, List.mem_append, not_or, not_or]
      exact ⟨⟨hnull', fun hm => absurd (hslashes _ hm) (by decide)⟩, hnull⟩
    · rw [hempty] at htext
      have hnil := List.append_eq_nil_iff.mp htext.symm
      exact (Path.isEntryName_iff.mp hentry).1 (String.toList_eq_nil_iff.mp hnil.2)
  refine resolve_of_leads hcheck ?_
  rw [hsteps, hstart]
  refine hfront.andThen (fun left => ?_) _ rfl
  refine .down hnode hdir (Nat.not_lt.mpr hsize) hl (.done ?_)
  rw [FileNode.at?_entry hdir, hl]

/-! ## Many names more -/

/-- Everything of a kind that stands at or below a node is found by its path, which begins with the
path of the node. -/
def Reaches (fs : FileSystem) (p : Path) (node : FileNode) (is : FileNode → Bool) : Prop :=
  ∀ location found, node.at? location = some found → is found = true →
    fs.hasNode (p.joinAll location) = true

/-- What the path of a location leads to is what stands there, if the directories on the way are
found. -/
theorem Reaches.resolve {is : FileNode → Bool} (hread : fs.Reaches p node is)
    (his : ∀ entries, is (.directory entries) = true)
    (hroot : fs.resolve p = .ok (.occupied base node)) (hnode : node.isWellFormed = true)
    (hat : node.at? location = some found) (hfound : is found = true)
    (hlink : ∀ target, found ≠ .link target) :
    fs.resolve (p.joinAll location) = .ok (.occupied (base ++ location) found) := by
  -- Directories are found before what they hold, so the induction is from the end of the location.
  induction location using List.reverseRecOn generalizing found with
  | nil =>
    cases hat
    rw [List.append_nil]
    exact hroot
  | append_singleton front name ih =>
    have hthere := hread _ _ hat hfound
    rw [FileNode.at?_append, Option.bind_eq_some_iff] at hat
    obtain ⟨above, habove, hname⟩ := hat
    rw [FileNode.at?_cons, Option.bind_eq_some_iff] at hname
    obtain ⟨child, hl, hchild⟩ := hname
    cases hchild
    cases above with
    | directory entries =>
      have hdir := ih habove (his entries) nofun
      have hlegal : Path.isEntryName name = true :=
        (FileNode.of_mem_areWellFormed
          (FileNode.areWellFormed_entries (FileNode.of_at? hnode habove).1)
          (mem_of_lookup? hl)).1
      rw [Path.joinAll_concat] at hthere ⊢
      obtain ⟨other, hother⟩ := hasNode_iff.mp hthere
      obtain ⟨there, hresolve⟩ := stat_eq_ok_iff.mp hother
      rw [hresolve, resolve_join_of_ok hdir hlegal hlink hl hresolve, List.append_assoc]
    | _ => cases hl

/-- Only what there is has to be found. -/
theorem reaches_of_all {is : FileNode → Bool} (hnode : node.isWellFormed = true)
    (h : (node.listing.all fun e => !is e.2 || fs.hasNode (p.joinAll e.1)) = true) :
    fs.Reaches p node is := by
  intro location found hat hfound
  have hthere := List.all_eq_true.mp h _ ((FileNode.mem_listing_iff hnode).mpr hat)
  rwa [hfound, Bool.not_true, Bool.false_or] at hthere

/-- Directories can be opened one after another if each of them is found by its path. -/
theorem openAll_eq_ok_iff {locations : List Location} : fs.openAll p locations = .ok () ↔
    ∀ location ∈ locations, fs.hasNode (p.joinAll location) = true := by
  induction locations with
  | nil => simp [openAll]
  | cons location rest ih =>
    rw [openAll, List.forall_mem_cons, ← ih, hasNode_iff]
    cases fs.stat (p.joinAll location) with
    | error cause => simp
    | ok node => simp

end FileSystem

end CompositionGen
