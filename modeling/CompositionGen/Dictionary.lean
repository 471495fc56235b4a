/-!
# Sorted dictionaries

A finite map from names to values, kept as the list of its entries in strictly ascending byte
order of the names, so that equal maps are equal values and listing one gives its order.
-/

namespace CompositionGen

/-- The value under a name: the first of that name. -/
def lookup? {α : Type} (name : String) : List (String × α) → Option α
  | [] => none
  | (key, value) :: rest => if key = name then some value else lookup? name rest

/-- A finite map from names to values. -/
structure Dictionary (α : Type) where
  entries : List (String × α)
  /-- Entries are in strictly ascending order of their names. -/
  sorted : entries.Pairwise fun a b => a.1 < b.1
  deriving DecidableEq

namespace Dictionary

variable {α : Type}

def empty : Dictionary α := ⟨[], .nil⟩

instance : Inhabited (Dictionary α) := ⟨empty⟩

instance [Repr α] : Repr (Dictionary α) := ⟨fun d n => reprPrec d.entries n⟩

def get? (d : Dictionary α) (name : String) : Option α := lookup? name d.entries

/-- Sorted entries with the value of one name changed by `f`, which is given the old value. -/
def alterEntries (name : String) (f : Option α → α) : List (String × α) → List (String × α)
  | [] => [(name, f none)]
  | (key, value) :: rest =>
    if name < key then (name, f none) :: (key, value) :: rest
    else if name = key then (key, f (some value)) :: rest
    else (key, value) :: alterEntries name f rest

theorem mem_alterEntries {name : String} {f : Option α → α} {entries : List (String × α)}
    {e : String × α} (h : e ∈ alterEntries name f entries) :
    e.1 = name ∨ ∃ v, (e.1, v) ∈ entries := by
  induction entries with
  | nil =>
    simp only [alterEntries, List.mem_singleton] at h
    exact .inl (h ▸ rfl)
  | cons entry rest ih =>
    obtain ⟨key, value⟩ := entry
    unfold alterEntries at h
    split at h
    · rcases List.mem_cons.1 h with rfl | h
      · exact .inl rfl
      · exact .inr ⟨e.2, h⟩
    · split at h
      · rcases List.mem_cons.1 h with rfl | h
        · exact .inl (by simp_all)
        · exact .inr ⟨e.2, List.mem_cons_of_mem _ h⟩
      · rcases List.mem_cons.1 h with rfl | h
        · exact .inr ⟨value, List.mem_cons_self ..⟩
        · rcases ih h with h | ⟨v, h⟩
          · exact .inl h
          · exact .inr ⟨v, List.mem_cons_of_mem _ h⟩

theorem sorted_alterEntries {name : String} {f : Option α → α} {entries : List (String × α)}
    (h : entries.Pairwise fun a b => a.1 < b.1) :
    (alterEntries name f entries).Pairwise fun a b => a.1 < b.1 := by
  induction entries with
  | nil => simp [alterEntries]
  | cons entry rest ih =>
    obtain ⟨key, value⟩ := entry
    obtain ⟨hhead, hrest⟩ := List.pairwise_cons.1 h
    unfold alterEntries
    split
    · rename_i hlt
      refine List.pairwise_cons.2 ⟨fun e he => ?_, h⟩
      rcases List.mem_cons.1 he with rfl | he
      · exact hlt
      · exact String.lt_trans hlt (hhead e he)
    · split
      · exact List.pairwise_cons.2 ⟨fun e he => hhead e he, hrest⟩
      · rename_i hlt hne
        refine List.pairwise_cons.2 ⟨fun e he => ?_, ih hrest⟩
        rcases mem_alterEntries he with he | ⟨v, he⟩
        · show key < e.1
          rw [he]
          rcases Decidable.em (key < name) with h | h
          · exact h
          · exact absurd (String.le_antisymm h hlt) hne
        · exact hhead (e.1, v) he

/-- The map with the value under one name changed by `f`, which is given the old value. -/
def alter (d : Dictionary α) (name : String) (f : Option α → α) : Dictionary α :=
  ⟨alterEntries name f d.entries, sorted_alterEntries d.sorted⟩

/-- The map with a value under a name; an old value is replaced. -/
def insert (d : Dictionary α) (name : String) (value : α) : Dictionary α :=
  d.alter name fun _ => value

def insertAll (d : Dictionary α) (entries : List (String × α)) : Dictionary α :=
  entries.foldl (fun d (name, value) => d.insert name value) d

def isEmpty (d : Dictionary α) : Bool := d.entries.isEmpty

def size (d : Dictionary α) : Nat := d.entries.length

/-- The names in ascending order. -/
def names (d : Dictionary α) : List String := d.entries.map (·.1)

end Dictionary

end CompositionGen
