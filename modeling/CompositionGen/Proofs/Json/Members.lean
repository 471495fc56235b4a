import CompositionGen.Json
import CompositionGen.Proofs.Dictionary

/-!
# Setting members

Setting a member changes the value of one name and nothing else: other members keep their values
and their order, and members in strictly ascending order stay so.
-/

namespace CompositionGen

/-- Where a name has no entry, one is put in, and the others are looked up as before. -/
theorem Dictionary.lookup?_alterEntries_absent {α : Type} {name : String} {f : Option α → α}
    {entries : List (String × α)} (h : lookup? name entries = none) (key : String) :
    lookup? key (alterEntries name f entries) =
      if key = name then some (f none) else lookup? key entries := by
  induction entries with
  | nil => simp [alterEntries, lookup?, eq_comm]
  | cons entry rest ih =>
    obtain ⟨other, value⟩ := entry
    have hne : other ≠ name := by
      rintro rfl
      simp [lookup?] at h
    rw [lookup?, if_neg hne] at h
    rw [alterEntries]
    split
    · rw [lookup?]
      simp only [eq_comm]
    · rw [if_neg (Ne.symm hne), lookup?, lookup?, ih h]
      by_cases hk : other = key
      · simp [hk, show key ≠ name from hk ▸ hne]
      · simp [hk]

/-- Entries of other names are the same ones, in the same order. -/
theorem Dictionary.filter_alterEntries {α : Type} {name : String} {f : Option α → α}
    {entries : List (String × α)} (keep : String → Bool) (hk : keep name = false) :
    (alterEntries name f entries).filter (keep ·.1) = entries.filter (keep ·.1) := by
  induction entries with
  | nil => simp [alterEntries, hk]
  | cons entry rest ih =>
    rw [alterEntries]
    split
    · simp [List.filter_cons, hk]
    · split
      · rename_i h
        simp [← h, hk]
      · simp [List.filter_cons, ih]

namespace Json

variable {name : String} {value : Json} {members : List (String × Json)}

theorem names_replaceMember : (replaceMember name value members).map (·.1) = members.map (·.1) := by
  induction members with
  | nil => rfl
  | cons member rest ih =>
    rw [replaceMember]
    split <;> simp [ih]

theorem lookup?_replaceMember (h : (lookup? name members).isSome) (key : String) :
    lookup? key (replaceMember name value members) =
      if key = name then some value else lookup? key members := by
  induction members with
  | nil => cases h
  | cons member rest ih =>
    obtain ⟨other, old⟩ := member
    rw [replaceMember]
    by_cases ho : other = name
    · rw [if_pos ho, lookup?, lookup?, ho]
      by_cases hk : name = key
      · simp [hk]
      · simp [hk, Ne.symm hk]
    · rw [lookup?, if_neg ho] at h
      rw [if_neg ho, lookup?, lookup?, ih h]
      by_cases hk : other = key
      · simp [hk, show key ≠ name from hk ▸ ho]
      · simp [hk]

theorem lookup?_setMember (key : String) :
    lookup? key (setMember name value members) =
      if key = name then some value else lookup? key members := by
  unfold setMember
  split
  · rename_i h
    exact lookup?_replaceMember h key
  · rename_i h
    exact Dictionary.lookup?_alterEntries_absent (by simpa using h) key

theorem filter_replaceMember (keep : String → Bool) (hk : keep name = false) :
    (replaceMember name value members).filter (keep ·.1) = members.filter (keep ·.1) := by
  induction members with
  | nil => rfl
  | cons member rest ih =>
    rw [replaceMember]
    split
    · rename_i h
      simp [h, hk]
    · simp [List.filter_cons, ih]

/-- Members of other names are the same ones, in the same order. -/
theorem filter_setMember (keep : String → Bool) (hk : keep name = false) :
    (setMember name value members).filter (keep ·.1) = members.filter (keep ·.1) := by
  unfold setMember
  split
  · exact filter_replaceMember keep hk
  · exact Dictionary.filter_alterEntries keep hk

theorem sorted_setMember (h : members.Pairwise fun a b => a.1 < b.1) :
    (setMember name value members).Pairwise fun a b => a.1 < b.1 := by
  unfold setMember
  split
  · -- The order is one of names, which replacing a value leaves alone.
    rw [← List.pairwise_map (R := (· < ·))] at h ⊢
    rwa [names_replaceMember]
  · exact Dictionary.sorted_alterEntries h

end Json

end CompositionGen
