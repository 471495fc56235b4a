import CompositionGen.Dictionary
import CompositionGen.Proofs.Sequences
import Mathlib.Data.List.Dedup
import Mathlib.Data.List.Nodup

/-!
# Looking up in dictionaries

A name that is changed has its new value and every other name the value that it had. What is put
into an empty dictionary leaves one entry for each name, in the order of the names.
-/

namespace CompositionGen

theorem mem_of_lookup? {α : Type} {name : String} {value : α} {entries : List (String × α)}
    (h : lookup? name entries = some value) : (name, value) ∈ entries := by
  induction entries with
  | nil => cases h
  | cons entry rest ih =>
    obtain ⟨key, other⟩ := entry
    rw [lookup?] at h
    split at h
    · rename_i hk
      cases h
      exact hk ▸ List.mem_cons_self
    · exact List.mem_cons_of_mem _ (ih h)

theorem lookup?_eq_of_mem {α : Type} {name : String} {value : α} {entries : List (String × α)}
    (nodup : (entries.map (·.1)).Nodup) (h : (name, value) ∈ entries) :
    lookup? name entries = some value := by
  induction entries with
  | nil => cases h
  | cons entry rest ih =>
    obtain ⟨hfresh, hrest⟩ := List.nodup_cons.mp nodup
    rcases List.mem_cons.mp h with rfl | h
    · rw [lookup?, if_pos rfl]
    · have hne : entry.1 ≠ name := fun he => hfresh (List.mem_map.mpr ⟨_, h, he.symm⟩)
      rw [lookup?, if_neg hne]
      exact ih hrest h

theorem nodup_of_sorted {α : Type} {entries : List (String × α)}
    (sorted : entries.Pairwise fun a b => a.1 < b.1) : (entries.map (·.1)).Nodup := by
  rw [List.Nodup, List.pairwise_map]
  refine sorted.imp ?_
  intro a b hab heq
  exact String.lt_irrefl _ (heq ▸ hab)

theorem lookup?_eq_some_iff {α : Type} {name : String} {value : α} {entries : List (String × α)}
    (sorted : entries.Pairwise fun a b => a.1 < b.1) :
    lookup? name entries = some value ↔ (name, value) ∈ entries :=
  ⟨mem_of_lookup?, lookup?_eq_of_mem (nodup_of_sorted sorted)⟩

/-- Entries of different names are looked up alike in every order. -/
theorem lookup?_perm {α : Type} {entries entries' : List (String × α)}
    (nodup : (entries.map (·.1)).Nodup) (h : entries'.Perm entries) (name : String) :
    lookup? name entries' = lookup? name entries := by
  have nodup' : (entries'.map (·.1)).Nodup := (h.map _).nodup_iff.mpr nodup
  refine Option.ext fun value => ⟨fun hv => ?_, fun hv => ?_⟩
  · exact lookup?_eq_of_mem nodup (h.mem_iff.mp (mem_of_lookup? hv))
  · exact lookup?_eq_of_mem nodup' (h.mem_iff.mpr (mem_of_lookup? hv))

theorem lookup?_eq_none {α : Type} {name : String} {entries : List (String × α)}
    (h : ∀ entry ∈ entries, name < entry.1) : lookup? name entries = none := by
  rw [Option.eq_none_iff_forall_ne_some]
  intro value hv
  exact String.lt_irrefl _ (h _ (mem_of_lookup? hv))

namespace Dictionary

variable {α : Type} {entries : List (String × α)}

theorem lookup?_alterEntries (key name : String) (f : Option α → α)
    (sorted : entries.Pairwise fun a b => a.1 < b.1) :
    lookup? key (alterEntries name f entries) =
      if key = name then some (f (lookup? name entries)) else lookup? key entries := by
  induction entries with
  | nil => simp [alterEntries, lookup?, eq_comm]
  | cons entry rest ih =>
    obtain ⟨other, value⟩ := entry
    obtain ⟨hhead, hrest⟩ := List.pairwise_cons.mp sorted
    rw [alterEntries]
    split
    · rename_i hlt
      have hnone : lookup? name ((other, value) :: rest) = none := by
        refine lookup?_eq_none fun entry he => ?_
        rcases List.mem_cons.mp he with rfl | he
        · exact hlt
        · exact String.lt_trans hlt (hhead _ he)
      rw [hnone, lookup?]
      simp only [eq_comm]
    · split
      · rename_i hn
        subst hn
        rw [lookup?, lookup?, lookup?, if_pos rfl]
        simp only [eq_comm]
        split
        · rfl
        · rfl
      · rename_i hn
        rw [lookup?, ih hrest, lookup?, lookup?, if_neg (Ne.symm hn)]
        by_cases hk : other = key
        · rw [if_pos hk, if_pos hk, if_neg (fun h => hn (hk.trans h).symm)]
        · rw [if_neg hk, if_neg hk]

theorem get?_alter (d : Dictionary α) (key name : String) (f : Option α → α) :
    (d.alter name f).get? key = if key = name then some (f (d.get? name)) else d.get? key :=
  lookup?_alterEntries key name f d.sorted

theorem get?_insert (d : Dictionary α) (key name : String) (value : α) :
    (d.insert name value).get? key = if key = name then some value else d.get? key :=
  get?_alter d key name _

/-- Entries put in one after another leave the last value of each name. -/
theorem get?_insertAll (d : Dictionary α) (entries : List (String × α)) (key : String) :
    (d.insertAll entries).get? key =
      (entries.filterMap fun e => if e.1 = key then some e.2 else none).getLast?.or
        (d.get? key) := by
  refine foldl_last (·.get? key) (fun d e => ?_) entries d
  rw [get?_insert]
  by_cases h : key = e.1
  · simp [h]
  · simp [h, Ne.symm h]

theorem perm_alterEntries {name : String} {f : Option α → α} (h : lookup? name entries = none) :
    (alterEntries name f entries).Perm ((name, f none) :: entries) := by
  induction entries with
  | nil => exact .refl _
  | cons entry rest ih =>
    obtain ⟨key, value⟩ := entry
    rw [lookup?] at h
    split at h
    · cases h
    · rename_i hkey
      rw [alterEntries]
      split
      · exact .refl _
      · rw [if_neg (Ne.symm hkey)]
        exact ((ih h).cons _).trans (.swap _ _ _)

/-- Entries of new names, of which each has its own, are all there after they have been put in. -/
theorem perm_insertAll (d : Dictionary α) (nodup : (entries.map (·.1)).Nodup)
    (new : ∀ e ∈ entries, d.get? e.1 = none) :
    (d.insertAll entries).entries.Perm (d.entries ++ entries) := by
  induction entries generalizing d with
  | nil =>
    rw [List.append_nil]
    exact .refl _
  | cons entry rest ih =>
    obtain ⟨hfresh, hrest⟩ := List.nodup_cons.mp nodup
    obtain ⟨hentry, hnew⟩ := List.forall_mem_cons.mp new
    have hother : ∀ e ∈ rest, (d.insert entry.1 entry.2).get? e.1 = none := by
      intro e he
      have hne : e.1 ≠ entry.1 := fun heq => hfresh (List.mem_map.mpr ⟨e, he, heq⟩)
      rw [get?_insert, if_neg hne]
      exact hnew e he
    have hperm : (d.insert entry.1 entry.2).entries.Perm (entry :: d.entries) :=
      perm_alterEntries hentry
    have hlater := ih (d.insert entry.1 entry.2) hrest hother
    exact (hlater.trans (hperm.append_right rest)).trans List.perm_middle.symm

/-- Dictionaries with the same entries are equal: their order is that of the names. -/
theorem eq_of_perm {d d' : Dictionary α} (h : d.entries.Perm d'.entries) : d = d' := by
  have heq : d.entries = d'.entries := by
    refine h.eq_of_pairwise ?_ d.sorted d'.sorted
    intro a b _ _ hab hba
    exact absurd (String.lt_trans hab hba) (String.lt_irrefl _)
  cases d
  cases heq
  rfl

theorem perm_insertAll_empty (nodup : (entries.map (·.1)).Nodup) :
    (empty.insertAll entries).entries.Perm entries :=
  perm_insertAll empty nodup fun _ _ => rfl

theorem nodup_names (d : Dictionary α) : d.names.Nodup := nodup_of_sorted d.sorted

theorem mem_names_iff {d : Dictionary α} {name : String} :
    name ∈ d.names ↔ ∃ value, d.get? name = some value := by
  rw [names, List.mem_map]
  constructor
  · rintro ⟨⟨_, value⟩, hmem, rfl⟩
    exact ⟨value, (lookup?_eq_some_iff d.sorted).mpr hmem⟩
  · rintro ⟨value, hvalue⟩
    exact ⟨(name, value), mem_of_lookup? hvalue, rfl⟩

theorem mem_names_insert {d : Dictionary α} {key name : String} {value : α} :
    key ∈ (d.insert name value).names ↔ key = name ∨ key ∈ d.names := by
  rw [mem_names_iff, mem_names_iff, get?_insert]
  by_cases h : key = name
  · simp [h]
  · simp [h]

theorem mem_names_insertAll {d : Dictionary α} {name : String} :
    name ∈ (d.insertAll entries).names ↔ name ∈ entries.map (·.1) ∨ name ∈ d.names := by
  induction entries generalizing d with
  | nil => simp [insertAll]
  | cons entry rest ih =>
    have hstep := ih (d := d.insert entry.1 entry.2)
    rw [mem_names_insert] at hstep
    rw [List.map_cons, List.mem_cons, or_assoc, or_left_comm]
    exact hstep

/-- Of equal names, one is left. -/
theorem names_insertAll_empty :
    (empty.insertAll entries).names.Perm (entries.map (·.1)).dedup := by
  rw [List.perm_ext_iff_of_nodup (nodup_names _) (List.nodup_dedup _)]
  intro name
  rw [mem_names_insertAll, List.mem_dedup]
  exact or_iff_left List.not_mem_nil

end Dictionary

end CompositionGen
