import CompositionGen.Process.Machine
import CompositionGen.Proofs.Files.Growing
import CompositionGen.Proofs.Sequences
import Mathlib.Data.List.Perm.Subperm

/-!
# How machines evolve

Whatever a process does, nothing is taken out of the tree of files, time does not go back, pipes and
opened files keep their numbers, and no two processes have the same one. Each thing that a process
at its turn can do is one lemma here, so that longer courses are chains of them.
-/

namespace CompositionGen

/-! ## Processes -/

namespace Process

variable {p q : Process}

@[simp] theorem id_undo (p : Process) (frame : Frame) : (p.undo frame).id = p.id := by
  cases frame <;> rfl

@[simp] theorem id_unwind (stops : Frame → Bool) (p : Process) : (p.unwind stops).id = p.id :=
  foldl_keeps id_undo _ _

theorem id_of_receive {n : Nat} (h : p.receive n = some q) : q.id = p.id := by
  unfold receive at h
  dsimp only at h
  split at h
  · split at h
    · cases h
    · cases h
      rfl
  · split at h
    · cases h
      split <;> rfl
    · split at h
      · cases h
        split <;> rfl
      · split at h
        · cases h
        · cases h
          split <;> rfl
        · cases h
          split <;> rfl
        · cases h
          rfl

end Process

/-! ## Machines -/

namespace Machine

variable {m n : Machine} {ps : List Process} {c : Channel} {content : Content}

/-- The numbers of the processes of a machine. -/
def ids (m : Machine) : List Nat := m.processes.map (·.id)

/-- Every process has a number of its own, and the next number is still free. -/
def Numbered (m : Machine) : Prop := m.ids.Nodup ∧ ∀ id ∈ m.ids, id < m.nextId

/-- The processes of a machine are some of those of an earlier one, and some with new numbers. -/
def NumbersOn (before after : Machine) : Prop :=
  ∃ fresh : List Nat, after.ids.Subperm (before.ids ++ fresh) ∧ fresh.Nodup ∧
    ∀ id ∈ fresh, before.nextId ≤ id ∧ id < after.nextId

/-- A machine has come out of another one. -/
structure Evolves (before after : Machine) : Prop where
  files : before.files.Grows after.files
  clock : before.clock ≤ after.clock
  environment : after.environment = before.environment
  pipes : before.pipes.length ≤ after.pipes.length
  openFiles : before.openFiles.length ≤ after.openFiles.length
  nextId : before.nextId ≤ after.nextId
  numbers : before.NumbersOn after

theorem numbersOn_of_subperm (h : n.ids.Subperm m.ids) : m.NumbersOn n := by
  refine ⟨[], ?_, List.nodup_nil, fun id hid => absurd hid List.not_mem_nil⟩
  rw [List.append_nil]
  exact h

theorem NumbersOn.trans {before middle after : Machine} (h : before.NumbersOn middle)
    (h' : middle.NumbersOn after) (hle : before.nextId ≤ middle.nextId)
    (hle' : middle.nextId ≤ after.nextId) : before.NumbersOn after := by
  obtain ⟨first, hsub, hnodup, hbounds⟩ := h
  obtain ⟨second, hsub', hnodup', hbounds'⟩ := h'
  refine ⟨first ++ second, ?_, ?_, ?_⟩
  · rw [← List.append_assoc]
    exact hsub'.trans ((List.subperm_append_right second).mpr hsub)
  · rw [List.nodup_append]
    refine ⟨hnodup, hnodup', ?_⟩
    intro id hid other hother
    have := (hbounds id hid).2
    have := (hbounds' other hother).1
    omega
  · intro id hid
    rcases List.mem_append.mp hid with hid | hid
    · have := hbounds id hid
      omega
    · have := hbounds' id hid
      omega

/-- Numbers stay numbers of one process each. -/
theorem NumbersOn.numbered (h : m.NumbersOn n) (hle : m.nextId ≤ n.nextId) (hm : m.Numbered) :
    n.Numbered := by
  obtain ⟨fresh, hsub, hnodup, hbounds⟩ := h
  obtain ⟨hids, hbelow⟩ := hm
  constructor
  · obtain ⟨some, hperm, hsome⟩ := hsub
    refine hperm.nodup_iff.mp (List.Nodup.sublist hsome ?_)
    refine List.nodup_append.mpr ⟨hids, hnodup, ?_⟩
    intro id hid other hother
    have := hbelow id hid
    have := (hbounds other hother).1
    omega
  · intro id hid
    rcases List.mem_append.mp (hsub.subset hid) with hid | hid
    · have := hbelow id hid
      omega
    · exact (hbounds id hid).2

theorem Evolves.refl (m : Machine) : m.Evolves m where
  files := .refl m.files
  clock := Nat.le_refl m.clock
  environment := rfl
  pipes := Nat.le_refl m.pipes.length
  openFiles := Nat.le_refl m.openFiles.length
  nextId := Nat.le_refl m.nextId
  numbers := numbersOn_of_subperm (.refl m.ids)

theorem Evolves.trans {before middle after : Machine} (h : before.Evolves middle)
    (h' : middle.Evolves after) : before.Evolves after where
  files := h.files.trans h'.files
  clock := Nat.le_trans h.clock h'.clock
  environment := h'.environment.trans h.environment
  pipes := Nat.le_trans h.pipes h'.pipes
  openFiles := Nat.le_trans h.openFiles h'.openFiles
  nextId := Nat.le_trans h.nextId h'.nextId
  numbers := h.numbers.trans h'.numbers h.nextId h'.nextId

theorem Evolves.numbered (h : m.Evolves n) (hm : m.Numbered) : n.Numbered :=
  h.numbers.numbered h.nextId hm

/-! ## Parts of machines -/

/-- Processes may change and may be gone as long as no number is given anew. -/
theorem evolves_processes (h : (ps.map (·.id)).Subperm m.ids) :
    m.Evolves { m with processes := ps } :=
  { Evolves.refl m with numbers := numbersOn_of_subperm h }

theorem evolves_of_ids (h : ps.map (·.id) = m.ids) : m.Evolves { m with processes := ps } :=
  evolves_processes (h ▸ .refl _)

/-- A process with the next number is a new one. -/
theorem evolves_newProcess {p : Process} (h : p.id = m.nextId) :
    m.Evolves { m with nextId := m.nextId + 1, processes := m.processes ++ [p] } := by
  refine { Evolves.refl m with nextId := Nat.le_succ m.nextId, numbers := ?_ }
  refine ⟨[m.nextId], ?_, List.nodup_singleton _, ?_⟩
  · rw [ids, List.map_append, List.map_singleton, h]
    exact .refl _
  · intro id hid
    rw [List.mem_singleton.mp hid]
    exact ⟨Nat.le_refl _, Nat.lt_succ_self _⟩

theorem evolves_files {files : FileSystem} (h : m.files.Grows files) :
    m.Evolves { m with files } :=
  { Evolves.refl m with files := h }

theorem evolves_clock {moment : Nat} (h : m.clock ≤ moment) :
    m.Evolves { m with clock := moment } :=
  { Evolves.refl m with clock := h }

theorem evolves_withPipe (m : Machine) (k : Nat) (p : Pipe) : m.Evolves (m.withPipe k p) :=
  { Evolves.refl m with pipes := Nat.le_of_eq List.length_set.symm }

theorem evolves_makePipe (m : Machine) (watched : Bool) : m.Evolves (m.makePipe watched).1 := by
  refine { Evolves.refl m with pipes := ?_ }
  rw [makePipe, List.length_append]
  exact Nat.le_add_right _ _

theorem evolves_openFile (m : Machine) (f : OpenFile) : m.Evolves (m.openFile f).1 := by
  refine { Evolves.refl m with openFiles := ?_ }
  rw [openFile, List.length_append]
  exact Nat.le_add_right _ _

theorem evolves_setOpenFile (m : Machine) (k : Nat) (f : OpenFile) :
    m.Evolves { m with openFiles := m.openFiles.set k f } :=
  { Evolves.refl m with openFiles := Nat.le_of_eq List.length_set.symm }

theorem evolves_ended (m : Machine) (ended : List (Nat × ExitStatus)) :
    m.Evolves { m with ended } :=
  { Evolves.refl m with }

theorem evolves_forget (m : Machine) (ids : List Nat) : m.Evolves (m.forget ids) :=
  evolves_ended m _

theorem evolves_skip (m : Machine) (c : Channel) (count : Nat) : m.Evolves (m.skip c count) := by
  unfold skip
  split
  · exact .refl m
  · split
    · exact evolves_setOpenFile m _ _
    · exact .refl m
  · split
    · exact evolves_withPipe m _ _
    · exact .refl m

theorem evolves_writeFile {k : Nat} {f : OpenFile} (h : m.writeFile k f content = .ok n) :
    m.Evolves n ∧ n.processes = m.processes := by
  unfold writeFile at h
  split at h
  · cases h
  · split at h
    · rename_i hfile
      cases h
      refine ⟨Evolves.trans (evolves_files ?_) (evolves_setOpenFile _ _ _), rfl⟩
      exact ⟨FileNode.grows_put_file hfile, rfl⟩
    · cases h
      exact ⟨.refl m, rfl⟩

/-- What is written goes to a file, to a pipe or nowhere. -/
theorem evolves_write (h : m.write c content = .ok n) :
    m.Evolves n ∧ n.processes = m.processes := by
  unfold write at h
  split at h
  · rw [Outcome.map_ok_iff] at h
    obtain ⟨_, -, rfl⟩ := h
    exact ⟨.refl m, rfl⟩
  · split at h
    · exact evolves_writeFile h
    · cases h
  · cases h
  · split at h
    · split at h
      · cases h
        exact ⟨evolves_withPipe m _ _, rfl⟩
      · cases h
    · cases h

theorem evolves_withEnd (m : Machine) (p : Process) (status : ExitStatus) :
    m.Evolves (m.withEnd p status) := by
  have hids : ∀ qs : List Process, (qs.map fun q =>
      if q.id = p.parent then (q.receive Signal.child).getD q else q).map (·.id)
        = qs.map (·.id) := by
    intro qs
    rw [List.map_map]
    refine List.map_congr_left fun q _ => ?_
    dsimp only [Function.comp_apply]
    split
    · cases hq : q.receive Signal.child with
      | none => rfl
      | some told => exact Process.id_of_receive hq
    · rfl
  have hsub := (List.filter_sublist (p := fun q : Process => q.id != p.id)
    (l := m.processes)).map (·.id)
  exact (evolves_processes ((hids _).symm ▸ hsub.subperm)).trans (evolves_ended _ _)

theorem evolves_signal (m : Machine) (id signal : Nat) : m.Evolves (m.signal id signal) := by
  unfold Machine.signal
  split
  · exact .refl m
  · split
    · exact evolves_withEnd m _ _
    · rename_i p hp _ q hq
      refine evolves_of_ids ?_
      rw [List.map_map, ids]
      refine List.map_congr_left fun r _ => ?_
      dsimp only [Function.comp_apply]
      split
      · rename_i hr
        have hfound := List.find?_some hp
        rw [Process.id_of_receive hq, beq_iff_eq.mp hfound, beq_iff_eq.mp hr]
      · rfl

end Machine

end CompositionGen
