import CompositionGen.Proofs.Builder.Visits
import CompositionGen.Proofs.Dictionary
import CompositionGen.Proofs.Registry.Making

/-!
# What a batch of compile results loads

A result with an artifact that can be loaded adds its builder under the name of its unit, and every
other result adds nothing. Where all names differ, what is registered in the end does not depend on
the order of the results, which is that in which the compile jobs have finished.
-/

namespace CompositionGen

theorem CompileResult.loaded?_eq_some_iff {linker : Linker} {r : CompileResult} {name : String}
    {builder : LoadedBuilder} :
    r.loaded? linker = some (name, builder) ↔ r.unit.artifactName = name ∧
      ∃ artifact, r.outcome = .ok artifact ∧ linker.load artifact = .ok builder := by
  rw [loaded?]
  rcases r.outcome with cause | artifact
  · simp [Except.toOption]
  · rcases hload : linker.load artifact with cause | other
    · simp [Except.toOption, hload]
    · simp [Except.toOption, hload]

namespace Registry

variable {linker : Linker} {results results' rest : List CompileResult} {r : CompileResult}
  {name : String} {builder : LoadedBuilder}

/-- What results add to a registry, in order. -/
def additions (linker : Linker) (results : List CompileResult) : List (String × LoadedBuilder) :=
  results.filterMap (·.loaded? linker)

theorem additions_cons_of_none (h : r.loaded? linker = none) :
    additions linker (r :: rest) = additions linker rest :=
  List.filterMap_cons_none h

theorem additions_cons_of_some (h : r.loaded? linker = some (name, builder)) :
    additions linker (r :: rest) = (name, builder) :: additions linker rest :=
  List.filterMap_cons_some h

theorem names_additions_sublist (linker : Linker) (results : List CompileResult) :
    ((additions linker results).map (·.1)).Sublist (results.map (·.unit.artifactName)) := by
  induction results with
  | nil => exact .slnil
  | cons r rest ih =>
    rcases h : r.loaded? linker with _ | ⟨name, builder⟩
    · rw [additions_cons_of_none h]
      exact ih.cons _
    · rw [additions_cons_of_some h]
      obtain ⟨rfl, -⟩ := CompileResult.loaded?_eq_some_iff.mp h
      exact ih.cons_cons _

theorem mem_additions_iff :
    (name, builder) ∈ additions linker results ↔ ∃ r ∈ results, r.unit.artifactName = name ∧
      ∃ artifact, r.outcome = .ok artifact ∧ linker.load artifact = .ok builder := by
  rw [additions, List.mem_filterMap]
  simp only [CompileResult.loaded?_eq_some_iff]

/-! ## Loading -/

theorem after_eq (linker : Linker) (index : Nat) (l : Loading) (results : List CompileResult) :
    (l.after linker index results).registry.loaded =
        l.registry.loaded.insertAll (additions linker results) ∧
      (l.after linker index results).loaded = l.loaded + (additions linker results).length := by
  induction results generalizing l index with
  | nil => exact ⟨rfl, rfl⟩
  | cons r rest ih =>
    obtain ⟨hregistry, hloaded⟩ := ih (index + 1) (l.next linker index r)
    rw [Loading.after_cons, hregistry, hloaded]
    rcases h : r.loaded? linker with _ | ⟨name, builder⟩
    · obtain ⟨hnext, hcount⟩ := next_of_none index l h
      rw [hnext, hcount, additions_cons_of_none h]
      exact ⟨rfl, rfl⟩
    · obtain ⟨hnext, hcount⟩ := next_of_some index l h
      rw [hnext, hcount, additions_cons_of_some h, List.length_cons, Nat.add_assoc, Nat.add_comm 1]
      exact ⟨rfl, rfl⟩

theorem registry_loadAll (linker : Linker) (registry : Registry) (results : List CompileResult) :
    (loadAll linker registry results).registry.loaded =
      registry.loaded.insertAll (additions linker results) :=
  (after_eq linker 0 { registry } results).1

theorem loaded_loadAll (linker : Linker) (registry : Registry) (results : List CompileResult) :
    (loadAll linker registry results).loaded = (additions linker results).length :=
  ((after_eq linker 0 { registry } results).2).trans (Nat.zero_add _)

theorem units_builders (registry : Registry) :
    registry.builders.map (·.1) = registry.loaded.names := by
  rw [builders, List.map_map]
  rfl

/-- What is registered does not depend on the order in which compile jobs have finished. The
results of units of different names, loaded in any order, register the builders that can be loaded
and no others, and as many are counted. They are listed in ascending order of their units, so that
a run makes the same calls to any writer and ends in the same way. -/
theorem loadAll_perm (linker : Linker) (perm : results.Perm results')
    (nodup : (results.map (·.unit.artifactName)).Nodup) :
    (loadAll linker ⟨.empty⟩ results).registry = (loadAll linker ⟨.empty⟩ results').registry ∧
      (∀ name builder,
        (loadAll linker ⟨.empty⟩ results).registry.loaded.get? name = some builder ↔
          ∃ r ∈ results, r.unit.artifactName = name ∧
            ∃ artifact, r.outcome = .ok artifact ∧ linker.load artifact = .ok builder) ∧
      (loadAll linker ⟨.empty⟩ results).loaded = (loadAll linker ⟨.empty⟩ results').loaded ∧
      (loadAll linker ⟨.empty⟩ results).loaded = (loadAll linker ⟨.empty⟩ results).registry.size ∧
      ((loadAll linker ⟨.empty⟩ results).registry.builders.map (·.1)).Pairwise (· < ·) ∧
      ∀ (σ : Type) (w : Writer σ) (state : σ),
        let run := runBuilders w.recording (loadAll linker ⟨.empty⟩ results).registry.builders
        let run' := runBuilders w.recording (loadAll linker ⟨.empty⟩ results').registry.builders
        (run (state, [])).state = (run' (state, [])).state ∧
          (run (state, [])).outcome = (run' (state, [])).outcome := by
  have hnodup : ((additions linker results).map (·.1)).Nodup :=
    (names_additions_sublist linker results).nodup nodup
  have hperm : (additions linker results).Perm (additions linker results') := perm.filterMap _
  -- Names are new when they are put in, so no addition is lost and only the order is another.
  have hentries : (loadAll linker ⟨.empty⟩ results).registry.loaded.entries.Perm
      (additions linker results) := by
    rw [registry_loadAll]
    exact Dictionary.perm_insertAll_empty hnodup
  have hentries' : (loadAll linker ⟨.empty⟩ results').registry.loaded.entries.Perm
      (additions linker results') := by
    rw [registry_loadAll]
    exact Dictionary.perm_insertAll_empty ((hperm.map _).nodup hnodup)
  have heq : (loadAll linker ⟨.empty⟩ results).registry =
      (loadAll linker ⟨.empty⟩ results').registry :=
    congrArg Registry.mk
      (Dictionary.eq_of_perm ((hentries.trans hperm).trans hentries'.symm))
  refine ⟨heq, ?_, ?_, ?_, ?_, fun σ w state => by rw [heq]; exact ⟨rfl, rfl⟩⟩
  · intro name builder
    rw [← mem_additions_iff, ← hentries.mem_iff]
    exact lookup?_eq_some_iff (Dictionary.sorted _)
  · rw [loaded_loadAll, loaded_loadAll, hperm.length_eq]
  · rw [loaded_loadAll, ← hentries.length_eq]
    rfl
  · rw [units_builders, Dictionary.names, List.pairwise_map]
    exact Dictionary.sorted _

/-! ## Results in two orders -/

/-- Opens every library but one. -/
def partialLinker : Linker := fun path =>
  if path = ⟨"plugins/b.so"⟩ then none
  else some ⟨some ⟨hostAbi, hostVersion, Demo.exampleBuilder, none⟩⟩

/-- Results of which two can be loaded. -/
def unevenResults : List CompileResult := [
  ⟨⟨⟨"compositions/a"⟩, "a"⟩, .ok ⟨"plugins/a.so"⟩⟩,
  ⟨⟨⟨"compositions/b"⟩, "b"⟩, .ok ⟨"plugins/b.so"⟩⟩,
  ⟨⟨⟨"compositions/c"⟩, "c"⟩, .ok ⟨"plugins/c.so"⟩⟩,
  ⟨⟨⟨"compositions/d"⟩, "d"⟩, .error (.failed (.code 101))⟩]

theorem loadAll_perm_unevenResults :
    (loadAll partialLinker ⟨.empty⟩ unevenResults.reverse).registry =
        (loadAll partialLinker ⟨.empty⟩ unevenResults).registry ∧
      (loadAll partialLinker ⟨.empty⟩ unevenResults.reverse).loaded = 2 ∧
      (loadAll partialLinker ⟨.empty⟩ unevenResults.reverse).registry.builders.map (·.1) =
        ["a", "c"] := by
  obtain ⟨hregistry, -, hloaded, -⟩ :=
    loadAll_perm partialLinker (List.reverse_perm unevenResults).symm (by decide)
  refine ⟨hregistry.symm, ?_, ?_⟩
  · rw [← hloaded]
    decide +kernel
  · rw [← hregistry]
    decide +kernel

end Registry

end CompositionGen
