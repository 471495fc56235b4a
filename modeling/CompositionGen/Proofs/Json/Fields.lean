import CompositionGen.Json.Record

/-!
# Fields of records

A member that was written is looked up under its name, whatever stands before and after it, and a
field reads back as it was written. Only an optional field of arbitrary values loses something: a
`null` that is written into it stands for its absence.
-/

namespace CompositionGen

@[simp] theorem lookup?_append {α : Type} (name : String) (front back : List (String × α)) :
    lookup? name (front ++ back) = (lookup? name front).or (lookup? name back) := by
  induction front with
  | nil => rfl
  | cons entry rest ih =>
    obtain ⟨key, value⟩ := entry
    rw [List.cons_append, lookup?, lookup?, ih]
    split
    · rfl
    · rfl

namespace Json

variable {α β : Type} {read : Json → Option β} {f : α → β} {members : List (String × Json)}

/-! ## Looking up what was written -/

@[simp] theorem lookup?_optionalMember (write : α → Json) (name key : String) (value : Option α) :
    lookup? key (optionalMember write name value) =
      if name = key then value.map write else none := by
  cases value with
  | none => simp [optionalMember, lookup?]
  | some a => simp [optionalMember, lookup?]

@[simp] theorem lookup?_listMember (write : α → Json) (name key : String) (items : List α) :
    lookup? key (listMember write name items) =
      if name = key ∧ items ≠ [] then some (.array (items.map write)) else none := by
  cases items with
  | nil => simp [listMember, lookup?]
  | cons first rest => simp [listMember, lookup?]

/-! ## Reading fields back -/

theorem required?_written (name : String) (value : Json)
    (h : lookup? name members = some value) : required? read name members = read value := by
  rw [required?, h, Option.bind_some]

theorem optional?_written (write : α → Json) (name : String) (value : Option α)
    (h : lookup? name members = value.map write) (given : ∀ a, write a ≠ .null)
    (reads : ∀ a ∈ value, read (write a) = some (f a)) :
    optional? read name members = some (value.map f) := by
  rw [optional?, h]
  cases value with
  | none => rfl
  | some a =>
    rw [Option.map_some]
    split
    · rename_i hnone
      cases hnone
    · rename_i hnull
      exact absurd (Option.some.inj hnull) (given a)
    · rename_i hsome
      rw [← Option.some.inj hsome, reads a rfl]
      rfl

theorem optional?_string (name : String) (value : Option String)
    (h : lookup? name members = value.map .string) :
    optional? string? name members = some value := by
  have hread : optional? string? name members = some (value.map id) :=
    optional?_written .string name value h nofun fun _ _ => rfl
  rwa [Option.map_id, id] at hread

/-- An arbitrary value that is `null` reads back as absent. -/
theorem optional?_any (name : String) (value : Option Json) (h : lookup? name members = value) :
    optional? some name members = some (value.filter (!·.isNull)) := by
  rw [optional?, h]
  rcases value with _ | (_ | _ | _ | _ | _ | _) <;> rfl

/-- A list whose items are each read back is read back. -/
theorem mapM_map_of_reads {γ δ ε : Type} {write : γ → δ} {read : δ → Option ε} {f : γ → ε}
    {items : List γ} (reads : ∀ a ∈ items, read (write a) = some (f a)) :
    (items.map write).mapM read = some (items.map f) := by
  induction items with
  | nil => rfl
  | cons first rest ih =>
    obtain ⟨hfirst, hrest⟩ := List.forall_mem_cons.mp reads
    rw [List.map_cons, List.mapM_cons, hfirst, ih hrest]
    rfl

theorem withDefault?_written (write : α → Json) (name : String) (items : List α)
    (h : lookup? name members = if items ≠ [] then some (.array (items.map write)) else none)
    (reads : ∀ a ∈ items, read (write a) = some (f a)) :
    withDefault? [] (list? read) name members = some (items.map f) := by
  rw [withDefault?, h]
  cases items with
  | nil => rfl
  | cons first rest =>
    rw [if_pos (List.cons_ne_nil _ _)]
    exact mapM_map_of_reads reads

/-- A list of arbitrary values reads back as it is, `null`s included. -/
theorem withDefault?_any (name : String) (items : List Json)
    (h : lookup? name members = if items ≠ [] then some (.array items) else none) :
    withDefault? [] array? name members = some items := by
  rw [withDefault?, h]
  cases items with
  | nil => rfl
  | cons first rest =>
    rw [if_pos (List.cons_ne_nil _ _)]
    rfl

theorem stringMap?_ofStringMap (map : List (String × String)) :
    stringMap? (ofStringMap map) = some map := by
  have hread : (map.map fun e => (e.1, string e.2)).mapM (fun e => do some (e.1, ← e.2.string?)) =
      some (map.map id) := mapM_map_of_reads fun _ _ => rfl
  rw [List.map_id] at hread
  exact hread

end Json

end CompositionGen
