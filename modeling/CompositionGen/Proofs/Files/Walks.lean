import CompositionGen.Proofs.Files.Changes
import CompositionGen.Proofs.Files.Following

/-!
# Walks

What becomes of a walk when its tree or its steps change. Steps that lead to a node lead to the same
location in a tree that extends the first one. Steps that go on have led to a node before, whether
they came there over links or not. Where steps end at nothing, the name that they asked for is a
legal one. A path with a slash at its end stands for no link.
-/

namespace CompositionGen

/-! ## Steps of paths -/

namespace Path

variable {p : Path} {name : ByteString}

/-- The step to an entry, if it is one, has a name that entries may have. -/
def Step.IsLegal (step : Step) : Prop := ∀ name, step = .down name → isEntryName name = true

theorem not_mem_of_mem_split {c : Char} {text part : List Char} (h : part ∈ Text.split c text) :
    c ∉ part := by
  induction text generalizing part with
  | nil =>
    rw [List.mem_singleton.mp h]
    exact List.not_mem_nil
  | cons d rest ih =>
    by_cases hd : d = c
    · rw [Text.split, if_pos hd] at h
      rcases List.mem_cons.mp h with rfl | h
      · exact List.not_mem_nil
      · exact ih h
    · obtain ⟨first, parts, hs⟩ := List.exists_cons_of_ne_nil (Text.split_ne_nil c rest)
      rw [Text.split_cons_of_ne hd hs] at h
      rw [hs] at ih
      rcases List.mem_cons.mp h with rfl | h
      · rw [List.mem_cons, not_or]
        exact ⟨Ne.symm hd, ih List.mem_cons_self⟩
      · exact ih (List.mem_cons_of_mem _ h)

theorem stepOf_isLegal {piece : ByteString} (h : '/' ∉ piece.toList) : (stepOf piece).IsLegal := by
  intro name hname
  unfold stepOf at hname
  split at hname
  · cases hname
  · rename_i hblank
    split at hname
    · cases hname
    · rename_i hup
      cases hname
      simp only [isBlankPiece, Bool.or_eq_true, beq_iff_eq, not_or] at hblank
      exact isEntryName_iff.mpr ⟨hblank.1, hblank.2, hup, h⟩

theorem isLegal_of_mem_steps {step : Step} (h : step ∈ p.steps) : step.IsLegal := by
  obtain ⟨piece, hpiece, rfl⟩ := List.mem_map.mp h
  obtain ⟨part, hpart, rfl⟩ := List.mem_map.mp hpiece
  refine stepOf_isLegal ?_
  rw [String.toList_ofList]
  exact not_mem_of_mem_split hpart

/-- The slashes at the end of a path ask for nothing but to stay. -/
theorem steps_eq_entrySteps_append (p : Path) :
    ∃ stays, p.steps = p.entrySteps ++ stays ∧ ∀ step ∈ stays, step = .stay := by
  refine ⟨((p.pieces.reverse.takeWhile (· == "")).reverse).map stepOf, ?_, ?_⟩
  · rw [steps, entrySteps, ← List.map_append, ← List.reverse_append,
      List.takeWhile_append_dropWhile, List.reverse_reverse]
  · intro step hstep
    obtain ⟨piece, hpiece, rfl⟩ := List.mem_map.mp hstep
    have hblank := List.all_eq_true.mp List.all_takeWhile piece (List.mem_reverse.mp hpiece)
    rw [beq_iff_eq.mp hblank]
    rfl

/-- How the pieces of a path go on in the path of an entry: what follows its last slash, if nothing
does, is replaced. -/
theorem pieces_join_name (hp : p.text ≠ "") (h : isEntryName name = true) :
    ∃ front, (p.pieces = front ∨ p.pieces = front ++ [""]) ∧
      (p.join ⟨name⟩).pieces = front ++ [name] := by
  obtain ⟨text⟩ := p
  rw [join, isAbsolute_name h, if_neg Bool.false_ne_true]
  split
  · rename_i hl
    have hlast : text.toList.getLast? = some '/' := by
      simpa [show text ≠ "" from hp] using hl
    obtain ⟨front, hf⟩ := List.getLast?_eq_some_iff.mp hlast
    obtain rfl : text = String.ofList front ++ "/" := by
      rw [← String.toList_inj, hf]
      simp
    refine ⟨pieces ⟨String.ofList front⟩, .inr ?_, ?_⟩
    · have hslash := pieces_append_slash (String.ofList front) ""
      rwa [String.append_empty] at hslash
    · rw [pieces_append_slash, pieces_name h]
  · refine ⟨pieces ⟨text⟩, .inl rfl, ?_⟩
    rw [pieces_append_slash, pieces_name h]

theorem isAbsolute_join_name (hp : p.text ≠ "") (h : isEntryName name = true) :
    (p.join ⟨name⟩).isAbsolute = p.isAbsolute := by
  obtain ⟨text⟩ := p
  rw [join, isAbsolute_name h, if_neg Bool.false_ne_true]
  split
  · exact isAbsolute_append hp name
  · rw [String.append_assoc]
    exact isAbsolute_append hp _

end Path

/-! ## Shapes of nodes -/

namespace FileNode

variable {node other : FileNode}

theorem eq_directory_of_shape {entries : Entries} (h : other.shape = (directory entries).shape) :
    ∃ others, other = directory others := by
  cases other with
  | directory others => exact ⟨others, rfl⟩
  | _ => cases h

theorem eq_link_of_shape {target : Path} (h : other.shape = (link target).shape) :
    other = link target := by
  cases other <;> cases h
  rfl

theorem Extends.at_directory {after before : FileNode} {here : Location} {entries : Entries}
    (hx : after.Extends before) (hat : before.at? here = some (directory entries)) :
    ∃ others, after.at? here = some (directory others) := by
  obtain ⟨found, hfound, hshape⟩ := hx _ _ hat
  obtain ⟨others, rfl⟩ := eq_directory_of_shape hshape
  exact ⟨others, hfound⟩

/-- An entry of a directory is an entry of the same shape in a tree that extends the first one. -/
theorem Extends.lookup_entry {after before : FileNode} {here : Location} {entries others : Entries}
    {name : ByteString} (hx : after.Extends before)
    (hat : before.at? here = some (directory entries))
    (hafter : after.at? here = some (directory others)) (hl : lookup? name entries = some node) :
    ∃ other, lookup? name others = some other ∧ other.shape = node.shape := by
  obtain ⟨other, hother, hshape⟩ := hx (here ++ [name]) node (by rw [at?_entry hat, hl])
  rw [at?_entry hafter] at hother
  exact ⟨other, hother, hshape⟩

end FileNode

namespace FileSystem

variable {root after : FileNode} {followLast : Bool} {links : Nat} {here location : Location}
  {steps more all : List Path.Step} {place : Place} {node : FileNode}

/-! ## Trees that are extended -/

/-- Where steps lead to a node, they lead to the same location in a tree that extends the first
one. -/
theorem Leads.extends (hx : after.Extends root) (h : Leads root followLast links here steps place) :
    ∀ location node, place = .occupied location node →
      ∃ other, Leads after followLast links here steps (.occupied location other) := by
  -- A directory stays a directory in the larger tree, and a link leads on as before, so each step
  -- is made again.
  induction h with
  | done hat =>
    rintro _ _ ⟨rfl, rfl⟩
    obtain ⟨other, hother, -⟩ := hx _ _ hat
    exact ⟨other, .done hother⟩
  | stay hat next ih =>
    intro location node hplace
    obtain ⟨others, hothers⟩ := hx.at_directory hat
    obtain ⟨other, hother⟩ := ih location node hplace
    exact ⟨other, .stay hothers hother⟩
  | up hat next ih =>
    intro location node hplace
    obtain ⟨others, hothers⟩ := hx.at_directory hat
    obtain ⟨other, hother⟩ := ih location node hplace
    exact ⟨other, .up hothers hother⟩
  -- Something may stand here in the larger tree, but no node was promised.
  | vacant hat hsize hl => rintro _ _ ⟨⟩
  | entry last hat hsize hl =>
    rintro _ _ ⟨rfl, rfl⟩
    obtain ⟨others, hothers⟩ := hx.at_directory hat
    obtain ⟨other, hother, hshape⟩ := hx.lookup_entry hat hothers hl
    obtain rfl := FileNode.eq_link_of_shape hshape
    exact ⟨_, .entry last hothers hsize hother⟩
  | link follow hat hsize hl next ih =>
    intro location node hplace
    obtain ⟨others, hothers⟩ := hx.at_directory hat
    obtain ⟨other, hother, hshape⟩ := hx.lookup_entry hat hothers hl
    obtain rfl := FileNode.eq_link_of_shape hshape
    obtain ⟨found, hfound⟩ := ih location node hplace
    exact ⟨found, .link follow hothers hsize hother hfound⟩
  | down hnode hat hsize hl next ih =>
    intro location node hplace
    obtain ⟨others, hothers⟩ := hx.at_directory hat
    obtain ⟨other, hother, hshape⟩ := hx.lookup_entry hat hothers hl
    obtain ⟨found, hfound⟩ := ih location node hplace
    refine ⟨found, .down (fun target heq => ?_) hothers hsize hother hfound⟩
    rw [heq] at hshape
    exact hnode target (FileNode.eq_link_of_shape hshape.symm)

/-! ## Steps that go on -/

/-- Steps that go on have led to a node before, over no more links. -/
theorem Leads.append (h : Leads root true links here all place) :
    ∀ steps more, all = steps ++ more → more ≠ [] →
      ∃ location node left, Leads root true links here steps (.occupied location node) ∧
        Leads root true left location more place := by
  -- Either the first steps are used up here and everything is left, or one of them is taken. A link
  -- puts its target's steps before the rest, which is why the whole is generalized.
  induction h with
  | done hat =>
    intro steps more heq hmore
    exact absurd (List.append_eq_nil_iff.mp heq.symm).2 hmore
  | stay hat next ih =>
    rintro (_ | ⟨step, steps⟩) more heq hmore
    · rw [List.nil_append] at heq
      subst heq
      exact ⟨_, _, _, .done hat, .stay hat next⟩
    · obtain ⟨rfl, rfl⟩ := List.cons.inj heq
      obtain ⟨location, node, left, hsteps, hleft⟩ := ih steps more rfl hmore
      exact ⟨location, node, left, .stay hat hsteps, hleft⟩
  | up hat next ih =>
    rintro (_ | ⟨step, steps⟩) more heq hmore
    · rw [List.nil_append] at heq
      subst heq
      exact ⟨_, _, _, .done hat, .up hat next⟩
    · obtain ⟨rfl, rfl⟩ := List.cons.inj heq
      obtain ⟨location, node, left, hsteps, hleft⟩ := ih steps more rfl hmore
      exact ⟨location, node, left, .up hat hsteps, hleft⟩
  | vacant hat hsize hl =>
    rintro (_ | ⟨step, steps⟩) more heq hmore
    · rw [List.nil_append] at heq
      subst heq
      exact ⟨_, _, 0, .done hat, .vacant hat hsize hl⟩
    · exact absurd (List.append_eq_nil_iff.mp (List.cons.inj heq).2.symm).2 hmore
  | entry last hat hsize hl => cases last
  | link follow hat hsize hl next ih =>
    rintro (_ | ⟨step, steps⟩) more heq hmore
    · rw [List.nil_append] at heq
      subst heq
      exact ⟨_, _, _, .done hat, .link follow hat hsize hl next⟩
    · obtain ⟨rfl, rfl⟩ := List.cons.inj heq
      obtain ⟨location, node, left, hsteps, hleft⟩ := ih _ more (List.append_assoc ..).symm hmore
      exact ⟨location, node, left, .link (fun _ => rfl) hat hsize hl hsteps, hleft⟩
  | down hnode hat hsize hl next ih =>
    rintro (_ | ⟨step, steps⟩) more heq hmore
    · rw [List.nil_append] at heq
      subst heq
      exact ⟨_, _, _, .done hat, .down hnode hat hsize hl next⟩
    · obtain ⟨rfl, rfl⟩ := List.cons.inj heq
      obtain ⟨location, node, left, hsteps, hleft⟩ := ih steps more rfl hmore
      exact ⟨location, node, left, .down hnode hat hsize hl hsteps, hleft⟩

theorem Leads.stays (hstays : ∀ step ∈ steps, step = .stay)
    (h : Leads root followLast links here steps place) :
    ∃ node, place = .occupied here node ∧ root.at? here = some node := by
  induction steps with
  | nil =>
    cases h with
    | done hat => exact ⟨_, rfl, hat⟩
  | cons step rest ih =>
    obtain ⟨rfl, hrest⟩ := List.forall_mem_cons.mp hstays
    cases h with
    | stay hat next => exact ih hrest next

/-- Steps that only stay lead nowhere else, and the steps before them lead there as well. -/
theorem Leads.of_append_stays (hstays : ∀ step ∈ more, step = .stay)
    (h : Leads root true links here (steps ++ more) (.occupied location node)) :
    Leads root true links here steps (.occupied location node) := by
  by_cases hmore : more = []
  · rwa [hmore, List.append_nil] at h
  · obtain ⟨there, found, left, hsteps, hleft⟩ := h.append steps more rfl hmore
    obtain ⟨_, heq, hat⟩ := hleft.stays hstays
    cases heq
    cases (hsteps.at? _ _ rfl).symm.trans hat
    exact hsteps

/-- Where there is something behind a path, there is an entry that the path names. -/
theorem Leads.entry_of_followed (h : Leads root true links here steps place) :
    ∀ location node, place = .occupied location node →
      ∃ there found, Leads root false links here steps (.occupied there found) := by
  induction h with
  | done hat => exact fun _ _ _ => ⟨_, _, .done hat⟩
  | stay hat next ih =>
    intro location node hplace
    obtain ⟨there, found, hthere⟩ := ih location node hplace
    exact ⟨there, found, .stay hat hthere⟩
  | up hat next ih =>
    intro location node hplace
    obtain ⟨there, found, hthere⟩ := ih location node hplace
    exact ⟨there, found, .up hat hthere⟩
  | vacant hat hsize hl => rintro _ _ ⟨⟩
  | entry last hat hsize hl => cases last
  | link follow hat hsize hl next ih =>
    rename_i rest _ _ _
    intro location node hplace
    by_cases hrest : rest = []
    · subst hrest
      exact ⟨_, _, .entry rfl hat hsize hl⟩
    · obtain ⟨there, found, hthere⟩ := ih location node hplace
      exact ⟨there, found, .link (fun h => absurd h hrest) hat hsize hl hthere⟩
  | down hnode hat hsize hl next ih =>
    intro location node hplace
    obtain ⟨there, found, hthere⟩ := ih location node hplace
    exact ⟨there, found, .down hnode hat hsize hl hthere⟩

/-! ## What is not there -/

/-- Where nothing is, there is a directory that has room for it. -/
theorem Leads.at?_parent (h : Leads root followLast links here steps place) :
    ∀ parent name, place = .vacant parent name →
      ∃ entries, root.at? parent = some (.directory entries) ∧ lookup? name entries = none := by
  induction h with
  | done hat => rintro _ _ ⟨⟩
  | stay hat next ih => exact ih
  | up hat next ih => exact ih
  | vacant hat hsize hl =>
    rintro _ _ ⟨rfl, rfl⟩
    exact ⟨_, hat, hl⟩
  | entry last hat hsize hl => rintro _ _ ⟨⟩
  | link follow hat hsize hl next ih => exact ih
  | down hnode hat hsize hl next ih => exact ih

/-- What is not there but could be has a name that an entry may have. -/
theorem Leads.isEntryName (h : Leads root followLast links here steps place)
    (hsteps : ∀ step ∈ steps, step.IsLegal) :
    ∀ parent name, place = .vacant parent name → Path.isEntryName name = true := by
  induction h with
  | done hat => rintro _ _ ⟨⟩
  | stay hat next ih => exact ih (List.forall_mem_cons.mp hsteps).2
  | up hat next ih => exact ih (List.forall_mem_cons.mp hsteps).2
  | vacant hat hsize hl =>
    rintro _ _ ⟨rfl, rfl⟩
    exact (List.forall_mem_cons.mp hsteps).1 _ rfl
  | entry last hat hsize hl => rintro _ _ ⟨⟩
  | link follow hat hsize hl next ih =>
    refine ih (List.forall_mem_append.mpr ⟨?_, (List.forall_mem_cons.mp hsteps).2⟩)
    exact fun _ hm => Path.isLegal_of_mem_steps hm
  | down hnode hat hsize hl next ih => exact ih (List.forall_mem_cons.mp hsteps).2

/-! ## Paths that end in a slash -/

theorem getLast?_of_cons {step last : Path.Step} {rest : List Path.Step} (hne : step ≠ last)
    (h : (step :: rest).getLast? = some last) : rest.getLast? = some last := by
  rw [List.getLast?_cons, Option.some_inj] at h
  cases hrest : rest.getLast? with
  | none =>
    rw [hrest] at h
    exact absurd h hne
  | some other =>
    rw [hrest] at h
    exact congrArg some h

/-- Steps that stay in the end lead to no link, so that it does not matter whether one would be
followed. -/
theorem Leads.unfollowed_of_stay (h : Leads root true links here steps place)
    (hstay : steps.getLast? = some .stay) : Leads root false links here steps place := by
  induction h with
  | done hat => cases hstay
  | @stay _ _ rest _ _ hat next ih =>
    cases rest with
    | nil =>
      cases next with
      | done hdone => exact .stay hat (.done hdone)
    | cons step rest => exact .stay hat (ih (by simpa using hstay))
  | up hat next ih => exact .up hat (ih (getLast?_of_cons Path.Step.noConfusion hstay))
  | vacant hat hsize hl => cases hstay
  | entry last hat hsize hl => cases last
  | link follow hat hsize hl next ih =>
    have hrest := getLast?_of_cons Path.Step.noConfusion hstay
    refine .link (fun hnil => ?_) hat hsize hl (ih ?_)
    · rw [hnil] at hrest
      cases hrest
    · rw [List.getLast?_append, hrest, Option.some_or]
  | down hnode hat hsize hl next ih =>
    exact .down hnode hat hsize hl (ih (getLast?_of_cons Path.Step.noConfusion hstay))

theorem getLast?_steps_slash (text : ByteString) :
    (Path.steps ⟨text ++ "/"⟩).getLast? = some .stay := by
  have hpieces := Path.pieces_append_slash text ""
  rw [String.append_empty] at hpieces
  have hempty : Path.pieces ⟨""⟩ = [""] := by decide
  rw [Path.steps, hpieces, hempty, List.map_append, List.getLast?_append]
  rfl

/-- A path with a slash at its end leads a walk to the directory that it stands for. -/
theorem walkRoot_of_stat {fs : FileSystem} {p : Path} {entries : Entries}
    (hslash : p.text.toList.getLast? = some '/') (h : fs.stat p = .ok (.directory entries)) :
    ∃ location, fs.resolve p = .ok (.occupied location (.directory entries)) ∧
      fs.walkRoot p = .ok ⟨location, .directory entries, false⟩ := by
  rw [stat, Outcome.bind_ok_iff] at h
  obtain ⟨place, hresolve, hnode⟩ := h
  cases place with
  | vacant directory name => cases hnode
  | occupied location node =>
    cases hnode
    refine ⟨location, hresolve, ?_⟩
    rw [resolve, Outcome.bind_ok_iff] at hresolve
    obtain ⟨_, hcheck, hwalk⟩ := hresolve
    have hstay : p.steps.getLast? = some .stay := by
      obtain ⟨front, hfront⟩ := List.getLast?_eq_some_iff.mp hslash
      obtain rfl : p = ⟨String.ofList front ++ "/"⟩ := by
        refine congrArg Path.mk ?_
        rw [← String.toList_inj, hfront]
        simp
      exact getLast?_steps_slash _
    have hleads := (walkLinks_ok_iff.mp hwalk).unfollowed_of_stay hstay
    have hentry : fs.resolveEntry p = .ok (.occupied location (.directory entries)) := by
      rw [resolveEntry, Outcome.bind_ok_iff]
      exact ⟨_, hcheck, hleads.walkLinks_eq⟩
    rw [walkRoot, hentry]

end FileSystem

end CompositionGen
