import CompositionGen.Proofs.Schema.Trails
import CompositionGen.Schema.Infer

/-!
# Inferred schemas describe their instance

An inferred schema has a node for each place of the instance that it was read off, and no other.
The names of the instance stand below `properties` only, where no walk looks for references or
alternatives, so that an instance may have members of any name, those of schema documents too. A
walk takes one step for each step of the path, and none for anything else.
-/

namespace CompositionGen

/-- A path leads somewhere in a value: a name leads to the member of that name, and any index leads
to the first item of a list, which stands for all of them. -/
inductive Json.Addressed : List Segment → Json → Prop where
  | here {value : Json} : Addressed [] value
  | member {segment : Segment} {name : String} {members : List (String × Json)} {value : Json}
      {rest : List Segment} :
      segment = .field name ∨ segment = .key name → lookup? name members = some value →
      Addressed rest value → Addressed (segment :: rest) (.object members)
  | item {n : Nat} {first : Json} {others : List Json} {rest : List Segment} :
      Addressed rest first → Addressed (.index n :: rest) (.array (first :: others))

/-- What one step of a path leads to in a value. -/
def Json.below? : Segment → Json → Option Json
  | .field name, value => value.member? name
  | .key name, value => value.member? name
  | .index _, .array (first :: _) => some first
  | .index _, _ => none

theorem Json.addressed_cons_iff {segment : Segment} {rest : List Segment} {value : Json} :
    Addressed (segment :: rest) value ↔
      ∃ next, below? segment value = some next ∧ Addressed rest next := by
  constructor
  · intro h
    cases h with
    | member hs hl ht =>
      rcases hs with rfl | rfl
      · exact ⟨_, hl, ht⟩
      · exact ⟨_, hl, ht⟩
    | item ht => exact ⟨_, rfl, ht⟩
  · rintro ⟨next, hb, ht⟩
    cases segment with
    | field name =>
      cases value with
      | object members => exact .member (Or.inl rfl) hb ht
      | _ => cases hb
    | key name =>
      cases value with
      | object members => exact .member (Or.inr rfl) hb ht
      | _ => cases hb
    | index n =>
      cases value with
      | array items =>
        cases items with
        | nil => cases hb
        | cons first others =>
          obtain rfl : first = next := Option.some.inj hb
          exact .item ht
      | _ => cases hb

namespace Schema

theorem lookup?_inferMembers (name : String) (members : List (String × Json)) :
    lookup? name (inferMembers members) = (lookup? name members).map inferNode := by
  induction members with
  | nil => rfl
  | cons member rest ih =>
    obtain ⟨other, value⟩ := member
    rw [inferMembers, lookup?, lookup?, ih]
    split <;> rfl

theorem exists_members_inferNode (value : Json) :
    ∃ members, inferNode value = .object members := by
  cases value with
  | array items => cases items <;> exact ⟨_, by rw [inferNode]⟩
  | number n => cases n <;> exact ⟨_, by rw [inferNode]⟩
  | _ => exact ⟨_, by rw [inferNode]⟩

/-- The schema of all items is an object, so it is not taken for a list of schemas by position. -/
theorem child?_items (first : Json) (n : Nat) :
    child? [("type", .string "array"), ("items", inferNode first)] (.index n) =
      some (inferNode first) := by
  obtain ⟨members, hmembers⟩ := exists_members_inferNode first
  rw [hmembers]
  rfl

/-- A node of an inferred schema has neither a reference nor alternatives, whatever the names in the
instance are, and leads where the instance leads. -/
theorem inferNode_eq (value : Json) :
    ∃ members, inferNode value = .object members ∧ refOf? members = none ∧
      alternatives members = [] ∧
      ∀ segment, child? members segment = (Json.below? segment value).map inferNode := by
  cases value with
  | object members =>
    refine ⟨_, by rw [inferNode], rfl, rfl, fun segment => ?_⟩
    cases segment with
    | field name => exact lookup?_inferMembers name members
    | key name => exact lookup?_inferMembers name members
    | index n => rfl
  | array items =>
    cases items with
    | nil => exact ⟨_, by rw [inferNode], rfl, rfl, fun segment => by cases segment <;> rfl⟩
    | cons first others =>
      refine ⟨_, by rw [inferNode], rfl, rfl, fun segment => ?_⟩
      cases segment with
      | field name => rfl
      | key name => rfl
      | index n => exact child?_items first n
  | number n =>
    cases n <;> exact ⟨_, by rw [inferNode], rfl, rfl, fun segment => by cases segment <;> rfl⟩
  | _ => exact ⟨_, by rw [inferNode], rfl, rfl, fun segment => by cases segment <;> rfl⟩

/-- Where something of the path is left, a trail has one way to go on at most, which is the way on
in the instance. -/
theorem step_inferNode_iff {root value : Json} {segment : Segment} {rest : List Segment}
    {there : Place} :
    Step root ⟨inferNode value, segment :: rest⟩ there ↔
      ∃ next, Json.below? segment value = some next ∧ there = ⟨inferNode next, rest⟩ := by
  obtain ⟨members, hnode, href, halt, hchild⟩ := inferNode_eq value
  rw [step_iff, hnode]
  simp only [Json.object.injEq, exists_eq_left', href, halt, hchild, Option.map_eq_some_iff]
  constructor
  · rintro (⟨next, hmem, -⟩ | ⟨_, ⟨next, hnext, rfl⟩, rfl⟩)
    · cases hmem
    · exact ⟨next, hnext, rfl⟩
  · rintro ⟨next, hnext, rfl⟩
    exact Or.inr ⟨_, ⟨next, hnext, rfl⟩, rfl⟩

theorem walk_inferNode_iff {root value : Json} {steps : Nat} {segments : List Segment} :
    walk root steps (inferNode value) segments = true ↔
      segments.length ≤ steps ∧ Json.Addressed segments value := by
  induction steps generalizing value segments with
  | zero =>
    cases segments with
    | nil => exact ⟨fun _ => ⟨Nat.le_refl 0, .here⟩, fun _ => walk_nil 0 _⟩
    | cons segment rest => simp [walk]
  | succ steps ih =>
    cases segments with
    | nil => exact ⟨fun _ => ⟨Nat.zero_le _, .here⟩, fun _ => walk_nil _ _⟩
    | cons segment rest =>
      rw [walk_succ_iff, Json.addressed_cons_iff, List.length_cons, Nat.add_le_add_iff_right]
      constructor
      · rintro ⟨there, hstep, hwalk⟩
        obtain ⟨next, hnext, rfl⟩ := step_inferNode_iff.mp hstep
        obtain ⟨hlength, haddressed⟩ := ih.mp hwalk
        exact ⟨hlength, next, hnext, haddressed⟩
      · rintro ⟨hlength, next, hnext, haddressed⟩
        have hwalk : walk root steps (inferNode next) rest = true :=
          ih.mpr ⟨hlength, haddressed⟩
        exact ⟨⟨inferNode next, rest⟩, step_inferNode_iff.mpr ⟨next, hnext, rfl⟩, hwalk⟩

/-- A path resolves in the schema of an instance exactly when it has at most 65 steps and leads
somewhere in the instance. -/
theorem infer_resolves_iff (value : Json) (path : FieldPath) :
    (infer value).resolves path = true ↔
      path.segments.length ≤ 65 ∧ Json.Addressed path.segments value :=
  walk_inferNode_iff

/-- Members named like the keywords of schemas are members like all others. -/
example : (infer (.object [("$ref", .string "#"), ("properties", .object [("a", .null)])])).resolves
    ⟨[.field "properties", .key "a"]⟩ = true := by
  decide +kernel

end Schema

end CompositionGen
