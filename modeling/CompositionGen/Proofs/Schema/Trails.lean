import CompositionGen.Schema

/-!
# Trails through a schema

What it means for a path to exist in a schema, stated without a walk: a trail leads from the root,
where the whole path is left, to a node where nothing of it is left. A step of a trail follows a
reference, goes to an alternative, or consumes the first step of the path. A walk finds a path
exactly when there is a trail of at most `maxSteps` steps, and nodes that refer to each other lie on
no trail with anything left of the path.
-/

namespace CompositionGen.Schema

/-- A node of a schema document, with the steps of a path that are left there. -/
structure Place where
  node : Json
  left : List Segment

/-- A node without a reference: its `$ref`, if there is one, is not a string. -/
def NoReference (members : List (String × Json)) : Prop :=
  ∀ reference, lookup? "$ref" members ≠ some (.string reference)

/-- The steps that a trail may take; there is none from a node that is not an object. -/
inductive Step (root : Json) : Place → Place → Prop where
  /-- A reference leads to its target in the document, whatever else the node holds. -/
  | reference {members : List (String × Json)} {reference : String} {target : Json}
      {left : List Segment} :
      lookup? "$ref" members = some (.string reference) →
      Json.reference? reference root = some target →
      Step root ⟨.object members, left⟩ ⟨target, left⟩
  | alternative {members : List (String × Json)} {combinator : String} {nodes : List Json}
      {node : Json} {left : List Segment} :
      NoReference members →
      combinator ∈ ["allOf", "anyOf", "oneOf"] →
      lookup? combinator members = some (.array nodes) → node ∈ nodes →
      Step root ⟨.object members, left⟩ ⟨node, left⟩
  /-- A dotted or bracketed name leads to the property of that name. -/
  | property {members properties : List (String × Json)} {segment : Segment} {name : String}
      {node : Json} {left : List Segment} :
      NoReference members →
      segment = .field name ∨ segment = .key name →
      lookup? "properties" members = some (.object properties) →
      lookup? name properties = some node →
      Step root ⟨.object members, segment :: left⟩ ⟨node, left⟩
  /-- An index leads to that item of a list of item schemas. -/
  | item {members : List (String × Json)} {items : List Json} {n : Nat} {node : Json}
      {left : List Segment} :
      NoReference members →
      lookup? "items" members = some (.array items) → items[n]? = some node →
      Step root ⟨.object members, .index n :: left⟩ ⟨node, left⟩
  /-- Every index leads to the one schema of all items. -/
  | items {members : List (String × Json)} {n : Nat} {node : Json} {left : List Segment} :
      NoReference members →
      lookup? "items" members = some node → (∀ nodes, node ≠ .array nodes) →
      Step root ⟨.object members, .index n :: left⟩ ⟨node, left⟩

/-- A trail of so many steps to a node where nothing of the path is left. -/
inductive Trail (root : Json) : Nat → Place → Prop where
  | arrived {node : Json} : Trail root 0 ⟨node, []⟩
  | step {n : Nat} {here there : Place} :
      Step root here there → Trail root n there → Trail root (n + 1) here

/-- Nodes among which trails only go round: a step from one of them leads to one of them and
consumes nothing of the path. -/
def Endless (root : Json) (nodes : Json → Prop) : Prop :=
  ∀ here there, nodes here.node → Step root here there →
    nodes there.node ∧ there.left = here.left

/-- Nodes that refer to each other: each of them has a reference, whose target is one of them if it
has one. -/
def Cyclic (root : Json) (nodes : Json → Prop) : Prop :=
  ∀ node, nodes node → ∃ members reference, node = .object members ∧
    lookup? "$ref" members = some (.string reference) ∧
    ∀ target, Json.reference? reference root = some target → nodes target

/-! ## The parts of a node -/

section Node

variable {members : List (String × Json)}

theorem refOf?_eq_some_iff {reference : String} :
    refOf? members = some reference ↔ lookup? "$ref" members = some (.string reference) := by
  unfold refOf?
  cases lookup? "$ref" members with
  | none => simp
  | some value => cases value <;> simp [Json.string?]

theorem refOf?_eq_none_iff : refOf? members = none ↔ NoReference members := by
  rw [Option.eq_none_iff_forall_ne_some]
  exact forall_congr' fun reference => not_congr refOf?_eq_some_iff

theorem mem_alternatives_iff {node : Json} :
    node ∈ alternatives members ↔ ∃ combinator ∈ ["allOf", "anyOf", "oneOf"], ∃ nodes,
      lookup? combinator members = some (.array nodes) ∧ node ∈ nodes := by
  rw [alternatives, List.mem_flatMap]
  refine exists_congr fun combinator => and_congr_right fun _ => ?_
  cases lookup? combinator members with
  | none => simp
  | some value => cases value <;> simp [Json.array?]

theorem property_eq_some_iff {name : String} {node : Json} :
    (lookup? "properties" members).bind (Json.member? name) = some node ↔
      ∃ properties, lookup? "properties" members = some (.object properties) ∧
        lookup? name properties = some node := by
  cases lookup? "properties" members with
  | none => simp
  | some value => cases value <;> simp [Json.member?]

theorem child?_index_eq_some_iff {n : Nat} {node : Json} :
    child? members (.index n) = some node ↔
      (∃ items, lookup? "items" members = some (.array items) ∧ items[n]? = some node) ∨
        lookup? "items" members = some node ∧ ∀ items, node ≠ .array items := by
  rw [child?]
  split
  · -- A list of items is never the schema of its items.
    rename_i items hi
    simp only [hi, Option.some.injEq, Json.array.injEq, exists_eq_left']
    refine ⟨Or.inl, ?_⟩
    rintro (h | ⟨rfl, h⟩)
    · exact h
    · exact absurd rfl (h items)
  · rename_i hi
    constructor
    · intro h
      exact Or.inr ⟨h, fun items he => hi items (he ▸ h)⟩
    · rintro (⟨items, h, -⟩ | ⟨h, -⟩)
      · exact absurd h (hi items)
      · exact h

end Node

/-! ## Walks -/

variable {root : Json}

theorem walk_nil (steps : Nat) (node : Json) : walk root steps node [] = true := by
  cases steps <;> rfl

/-- What a step can do where something of the path is left. -/
theorem step_iff {node : Json} {segment : Segment} {rest : List Segment} {there : Place} :
    Step root ⟨node, segment :: rest⟩ there ↔ ∃ members, node = .object members ∧
      match refOf? members with
      | some reference =>
        ∃ target, Json.reference? reference root = some target ∧ there = ⟨target, segment :: rest⟩
      | none =>
        (∃ next ∈ alternatives members, there = ⟨next, segment :: rest⟩) ∨
          ∃ next, child? members segment = some next ∧ there = ⟨next, rest⟩ := by
  -- A reference is followed before anything else; alternatives and members count only without one.
  constructor
  · intro h
    cases h with
    | reference hr ht =>
      refine ⟨_, rfl, ?_⟩
      rw [refOf?_eq_some_iff.mpr hr]
      exact ⟨_, ht, rfl⟩
    | alternative hn hc hl hm =>
      refine ⟨_, rfl, ?_⟩
      rw [refOf?_eq_none_iff.mpr hn]
      exact Or.inl ⟨_, mem_alternatives_iff.mpr ⟨_, hc, _, hl, hm⟩, rfl⟩
    | property hn hs hp hl =>
      refine ⟨_, rfl, ?_⟩
      rw [refOf?_eq_none_iff.mpr hn]
      have hchild := property_eq_some_iff.mpr ⟨_, hp, hl⟩
      rcases hs with rfl | rfl
      · exact Or.inr ⟨_, hchild, rfl⟩
      · exact Or.inr ⟨_, hchild, rfl⟩
    | item hn hi hl =>
      refine ⟨_, rfl, ?_⟩
      rw [refOf?_eq_none_iff.mpr hn]
      exact Or.inr ⟨_, child?_index_eq_some_iff.mpr (Or.inl ⟨_, hi, hl⟩), rfl⟩
    | items hn hi hl =>
      refine ⟨_, rfl, ?_⟩
      rw [refOf?_eq_none_iff.mpr hn]
      exact Or.inr ⟨_, child?_index_eq_some_iff.mpr (Or.inr ⟨hi, hl⟩), rfl⟩
  · rintro ⟨members, rfl, h⟩
    cases hr : refOf? members with
    | some reference =>
      simp only [hr] at h
      obtain ⟨target, ht, rfl⟩ := h
      exact .reference (refOf?_eq_some_iff.mp hr) ht
    | none =>
      have hn := refOf?_eq_none_iff.mp hr
      simp only [hr] at h
      obtain ⟨next, ha, rfl⟩ | ⟨next, hc, rfl⟩ := h
      · obtain ⟨combinator, hcomb, nodes, hl, hm⟩ := mem_alternatives_iff.mp ha
        exact .alternative hn hcomb hl hm
      · cases segment with
        | field name =>
          obtain ⟨properties, hp, hl⟩ := property_eq_some_iff.mp hc
          exact .property hn (Or.inl rfl) hp hl
        | key name =>
          obtain ⟨properties, hp, hl⟩ := property_eq_some_iff.mp hc
          exact .property hn (Or.inr rfl) hp hl
        | index n =>
          rcases child?_index_eq_some_iff.mp hc with ⟨items, hi, hl⟩ | ⟨hi, hl⟩
          · exact .item hn hi hl
          · exact .items hn hi hl

/-- A walk with something left of the path takes one step, and goes on from there. -/
theorem walk_succ_iff {steps : Nat} {node : Json} {segment : Segment} {rest : List Segment} :
    walk root (steps + 1) node (segment :: rest) = true ↔
      ∃ there, Step root ⟨node, segment :: rest⟩ there ∧
        walk root steps there.node there.left = true := by
  simp only [step_iff]
  cases node with
  | object members =>
    rw [walk]
    cases hr : refOf? members with
    | some reference =>
      cases ht : Json.reference? reference root <;> simp [hr, ht]
    | none =>
      simp only [Bool.or_eq_true, List.any_eq_true, Json.object.injEq, exists_eq_left', hr]
      constructor
      · rintro (⟨next, hm, hw⟩ | hw)
        · exact ⟨⟨next, segment :: rest⟩, Or.inl ⟨next, hm, rfl⟩, hw⟩
        · split at hw
          · rename_i next hc
            exact ⟨⟨next, rest⟩, Or.inr ⟨next, hc, rfl⟩, hw⟩
          · cases hw
      · rintro ⟨_, ⟨next, hm, rfl⟩ | ⟨next, hc, rfl⟩, hw⟩
        · exact Or.inl ⟨next, hm, hw⟩
        · right
          rw [hc]
          exact hw
  | _ => simp [walk]

/-- A walk within a number of steps succeeds exactly where a trail of no more steps begins. -/
theorem walk_iff_trail {steps : Nat} {node : Json} {left : List Segment} :
    walk root steps node left = true ↔ ∃ n ≤ steps, Trail root n ⟨node, left⟩ := by
  induction steps generalizing node left with
  | zero =>
    cases left with
    | nil => exact ⟨fun _ => ⟨0, Nat.le_refl 0, .arrived⟩, fun _ => rfl⟩
    | cons segment rest =>
      refine ⟨fun h => by simp [walk] at h, ?_⟩
      rintro ⟨n, hn, ht⟩
      obtain rfl := Nat.le_zero.mp hn
      cases ht
  | succ steps ih =>
    cases left with
    | nil => exact ⟨fun _ => ⟨0, Nat.zero_le _, .arrived⟩, fun _ => walk_nil _ _⟩
    | cons segment rest =>
      rw [walk_succ_iff]
      constructor
      · rintro ⟨there, hs, hw⟩
        obtain ⟨n, hn, ht⟩ := ih.mp hw
        exact ⟨n + 1, Nat.succ_le_succ hn, .step hs ht⟩
      · rintro ⟨n, hn, ht⟩
        cases ht with
        | @step n _ there hs ht =>
          exact ⟨there, hs, ih.mpr ⟨n, Nat.le_of_succ_le_succ hn, ht⟩⟩

/-! ## Cycles -/

theorem Cyclic.endless {nodes : Json → Prop} (h : Cyclic root nodes) : Endless root nodes := by
  intro here there hn hs
  obtain ⟨members, reference, hm, hr, ht⟩ := h _ hn
  cases hs with
  | reference hr' ht' =>
    cases hm
    obtain rfl : _ = reference := by simpa [hr'] using hr
    exact ⟨ht _ ht', rfl⟩
  | alternative hno | property hno | item hno | items hno =>
    -- The reference hides all that these steps would use.
    cases hm
    exact absurd hr (hno reference)

theorem Endless.left_eq_nil {nodes : Json → Prop} (h : Endless root nodes) {n : Nat} {here : Place}
    (hn : nodes here.node) (ht : Trail root n here) : here.left = [] := by
  induction ht with
  | arrived => rfl
  | step hs _ ih =>
    obtain ⟨hthere, hleft⟩ := h _ _ hn hs
    exact hleft ▸ ih hthere

/-- A path resolves in a schema exactly when a trail of at most 65 steps leads along the whole of
it. No trail with anything left of the path passes a node among which trails only go round, and
nodes that refer to each other are such nodes. -/
theorem resolves_iff_trail (schema : Schema) (path : FieldPath) :
    (schema.resolves path = true ↔
      ∃ n ≤ 65, Trail schema.root n ⟨schema.root, path.segments⟩) ∧
    (∀ nodes, Endless schema.root nodes → ∀ n node segment rest, nodes node →
      ¬ Trail schema.root n ⟨node, segment :: rest⟩) ∧
    (∀ nodes, Cyclic schema.root nodes → Endless schema.root nodes) := by
  refine ⟨walk_iff_trail, fun nodes h n node segment rest hn ht => ?_, fun nodes h => h.endless⟩
  cases h.left_eq_nil hn ht

/-- A document that refers to itself. -/
def selfReferring : Json := .object [("$ref", .string "#")]

theorem cyclic_selfReferring : Cyclic selfReferring (· = selfReferring) := by
  rintro node rfl
  exact ⟨_, _, rfl, rfl, fun target h => (Option.some.inj h).symm⟩

theorem resolves_selfReferring :
    Cyclic selfReferring (· = selfReferring) ∧
    resolves ⟨selfReferring⟩ ⟨[.field "a", .field "b"]⟩ = false := by
  refine ⟨cyclic_selfReferring, ?_⟩
  obtain ⟨hiff, hend, hcyc⟩ := resolves_iff_trail ⟨selfReferring⟩ ⟨[.field "a", .field "b"]⟩
  rw [Bool.eq_false_iff, ne_eq, hiff]
  rintro ⟨n, -, ht⟩
  exact hend _ (hcyc _ cyclic_selfReferring) n _ _ _ rfl ht

end CompositionGen.Schema
