import CompositionGen.Files.Walk
import CompositionGen.Proofs.Files.Trees
import CompositionGen.Proofs.Outcome

/-!
# Following paths

What the steps of a path do, by one rule for each thing that a step can do. A path that leads to
something leads to a node of the tree: what is found is what stands at the location that is given
with it.
-/

namespace CompositionGen

namespace FileSystem

variable {root node : FileNode} {followLast : Bool} {links : Nat} {here location : Location}
  {steps : List Path.Step} {place : Place}

/-- Steps lead from a location to a place, over at most as many links as `links`. -/
inductive Leads (root : FileNode) (followLast : Bool) :
    Nat → Location → List Path.Step → Place → Prop where
  | done {links : Nat} {here : Location} {node : FileNode} (hat : root.at? here = some node) :
    Leads root followLast links here [] (.occupied here node)
  | stay {links : Nat} {here : Location} {rest : List Path.Step} {place : Place}
    {entries : Entries} (hat : root.at? here = some (.directory entries))
    (next : Leads root followLast links here rest place) :
    Leads root followLast links here (.stay :: rest) place
  | up {links : Nat} {here : Location} {rest : List Path.Step} {place : Place}
    {entries : Entries} (hat : root.at? here = some (.directory entries))
    (next : Leads root followLast links here.dropLast rest place) :
    Leads root followLast links here (.up :: rest) place
  | vacant {links : Nat} {here : Location} {name : ByteString} {entries : Entries}
    (hat : root.at? here = some (.directory entries)) (hsize : ¬nameLimit < name.length)
    (hl : lookup? name entries = none) :
    Leads root followLast links here [.down name] (.vacant here name)
  | entry {links : Nat} {here : Location} {name : ByteString} {entries : Entries} {target : Path}
    (last : followLast = false) (hat : root.at? here = some (.directory entries))
    (hsize : ¬nameLimit < name.length) (hl : lookup? name entries = some (.link target)) :
    Leads root followLast links here [.down name] (.occupied (here ++ [name]) (.link target))
  | link {links : Nat} {here : Location} {name : ByteString} {rest : List Path.Step} {place : Place}
    {entries : Entries} {target : Path} (follow : rest = [] → followLast = true)
    (hat : root.at? here = some (.directory entries)) (hsize : ¬nameLimit < name.length)
    (hl : lookup? name entries = some (.link target))
    (next : Leads root followLast links (startOf here target) (target.steps ++ rest) place) :
    Leads root followLast (links + 1) here (.down name :: rest) place
  | down {links : Nat} {here : Location} {name : ByteString} {rest : List Path.Step} {place : Place}
    {entries : Entries} {node : FileNode} (hnode : ∀ target, node ≠ .link target)
    (hat : root.at? here = some (.directory entries)) (hsize : ¬nameLimit < name.length)
    (hl : lookup? name entries = some node)
    (next : Leads root followLast links (here ++ [name]) rest place) :
    Leads root followLast links here (.down name :: rest) place

theorem leads_of_walk {onLink : Location → Path → List Path.Step → Except FileError Place}
    (hlink : ∀ here name entries target rest, (rest = [] → followLast = true) →
      root.at? here = some (.directory entries) → ¬nameLimit < name.length →
      lookup? name entries = some (.link target) → onLink here target rest = .ok place →
      Leads root followLast links here (.down name :: rest) place)
    (h : walk root followLast onLink here steps = .ok place) :
    Leads root followLast links here steps place := by
  -- The walk goes down one name at a time, and a link is left to `onLink`.
  induction steps generalizing here with
  | nil =>
    rw [walk] at h
    split at h
    · rename_i node hat
      cases h
      exact .done hat
    · cases h
  | cons step rest ih =>
    rw [walk] at h
    split at h
    · cases h
    · rename_i entries hat
      cases step with
      | stay => exact .stay hat (ih h)
      | up => exact .up hat (ih h)
      | down name =>
        dsimp only at h
        split at h
        · cases h
        · rename_i hsize
          split at h
          · rename_i hl
            split at h
            · rename_i hrest
              obtain rfl : rest = [] := List.isEmpty_iff.mp hrest
              cases h
              exact .vacant hat hsize hl
            · cases h
          · rename_i target hl
            split at h
            · rename_i hlast
              rw [Bool.and_eq_true, List.isEmpty_iff, Bool.not_eq_true'] at hlast
              obtain ⟨rfl, hlast⟩ := hlast
              cases h
              exact .entry hlast hat hsize hl
            · rename_i hlast
              refine hlink _ _ _ _ _ (fun hrest => ?_) hat hsize hl h
              simpa [hrest] using hlast
          · rename_i node hnode hl
            exact .down hnode hat hsize hl (ih h)
    · cases h

theorem leads_of_walkLinks (h : walkLinks root followLast links here steps = .ok place) :
    Leads root followLast links here steps place := by
  induction links generalizing here steps with
  | zero =>
    rw [walkLinks] at h
    refine leads_of_walk ?_ h
    rintro here name entries target rest - - - - ⟨⟩
  | succ links ih =>
    rw [walkLinks] at h
    exact leads_of_walk (fun _ _ _ _ _ follow hat hsize hl hon =>
      .link follow hat hsize hl (ih hon)) h

theorem walkLinks_eq_walk (root : FileNode) (followLast : Bool) (links : Nat) :
    ∃ onLink, walkLinks root followLast links = walk root followLast onLink := by
  cases links with
  | zero => exact ⟨_, rfl⟩
  | succ links => exact ⟨_, rfl⟩

theorem Leads.walkLinks_eq (h : Leads root followLast links here steps place) :
    walkLinks root followLast links here steps = .ok place := by
  -- The number of links that are left matters to the rule for links only.
  induction h with
  | @done links _ _ hat =>
    obtain ⟨onLink, heq⟩ := walkLinks_eq_walk root followLast links
    rw [heq, walk, hat]
  | @stay links _ _ _ _ hat next ih =>
    obtain ⟨onLink, heq⟩ := walkLinks_eq_walk root followLast links
    rw [heq] at ih ⊢
    rw [walk, hat]
    exact ih
  | @up links _ _ _ _ hat next ih =>
    obtain ⟨onLink, heq⟩ := walkLinks_eq_walk root followLast links
    rw [heq] at ih ⊢
    rw [walk, hat]
    exact ih
  | @vacant links _ _ _ hat hsize hl =>
    obtain ⟨onLink, heq⟩ := walkLinks_eq_walk root followLast links
    rw [heq, walk, hat]
    simp [hsize, hl]
  | @entry links _ _ _ _ last hat hsize hl =>
    obtain ⟨onLink, heq⟩ := walkLinks_eq_walk root followLast links
    rw [heq, walk, hat]
    simp [hsize, hl, last]
  | link follow hat hsize hl next ih =>
    rename_i rest _ _ _
    rw [walkLinks, walk, hat]
    have hlast : ¬(rest.isEmpty && !followLast) = true := by
      rw [Bool.and_eq_true, List.isEmpty_iff, Bool.not_eq_true']
      rintro ⟨hrest, hfalse⟩
      exact Bool.noConfusion ((follow hrest).symm.trans hfalse)
    simp only [hsize, hl, hlast, if_false]
    exact ih
  | @down links _ _ _ _ _ node hnode hat hsize hl next ih =>
    obtain ⟨onLink, heq⟩ := walkLinks_eq_walk root followLast links
    rw [heq] at ih ⊢
    rw [walk, hat]
    simp only [hsize, hl, if_false]
    cases node with
    | link target => exact absurd rfl (hnode target)
    | _ => exact ih

/-- Paths are followed by the rules. -/
theorem walkLinks_ok_iff : walkLinks root followLast links here steps = .ok place ↔
    Leads root followLast links here steps place :=
  ⟨leads_of_walkLinks, Leads.walkLinks_eq⟩

theorem Leads.at? (h : Leads root followLast links here steps place) :
    ∀ location node, place = .occupied location node → root.at? location = some node := by
  induction h with
  | done hat =>
    rintro _ _ ⟨rfl, rfl⟩
    exact hat
  | stay hat next ih => exact ih
  | up hat next ih => exact ih
  | vacant hat hsize hl => rintro _ _ ⟨⟩
  | entry last hat hsize hl =>
    rintro _ _ ⟨rfl, rfl⟩
    rw [FileNode.at?_entry hat]
    exact hl
  | link follow hat hsize hl next ih => exact ih
  | down hnode hat hsize hl next ih => exact ih

theorem at?_of_walkLinks
    (h : walkLinks root followLast links here steps = .ok (.occupied location node)) :
    root.at? location = some node :=
  (walkLinks_ok_iff.mp h).at? location node rfl

variable {fs : FileSystem} {p : Path}

theorem at?_of_resolve (h : fs.resolve p = .ok (.occupied location node)) :
    fs.root.at? location = some node := by
  rw [resolve, Outcome.bind_ok_iff] at h
  obtain ⟨_, -, h⟩ := h
  exact at?_of_walkLinks h

theorem at?_of_resolveEntry (h : fs.resolveEntry p = .ok (.occupied location node)) :
    fs.root.at? location = some node := by
  rw [resolveEntry, Outcome.bind_ok_iff] at h
  obtain ⟨_, -, h⟩ := h
  exact at?_of_walkLinks h

theorem at?_of_locate (h : fs.locate p = .ok location) :
    ∃ node, fs.root.at? location = some node := by
  rw [locate, Outcome.bind_ok_iff] at h
  obtain ⟨place, hp, h⟩ := h
  cases place with
  | occupied other node =>
    cases h
    exact ⟨node, at?_of_resolve hp⟩
  | vacant directory name => cases h

theorem at?_of_walkRoot {start : WalkRoot} (h : fs.walkRoot p = .ok start) :
    fs.root.at? start.location = some start.node := by
  unfold walkRoot at h
  split at h
  · cases h
    exact at?_of_resolve ‹_›
  · cases h
  · cases h
  · cases h
    exact at?_of_resolveEntry ‹_›
  · cases h
  · cases h

end FileSystem

end CompositionGen
