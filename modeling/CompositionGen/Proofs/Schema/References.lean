import CompositionGen.Proofs.Json.Pointers
import CompositionGen.Proofs.Schema.Trails
import CompositionGen.Schema.Node

/-!
# References in a schema

A node with a reference stands for the node that is referred to: a walk can only go on there, with
the same path, one step deeper. Every node of a document has a reference to it, so any of them can
be stood for in this way.
-/

namespace CompositionGen.Schema

variable {root : Json}

/-- Whether the path exists below a node that a walk has come to at a depth; it has begun at depth
zero. -/
def walkAt (root : Json) (depth : Nat) (node : Json) (path : List Segment) : Bool :=
  walk root (maxSteps - depth) node path

theorem resolves_eq_walkAt (schema : Schema) (path : FieldPath) :
    schema.resolves path = walkAt schema.root 0 schema.root path.segments :=
  rfl

/-- With something left of the path, a walk takes a step from every depth up to 64. -/
theorem walkAt_cons_iff {depth : Nat} {node : Json} {segment : Segment} {rest : List Segment} :
    walkAt root depth node (segment :: rest) = true ↔
      depth ≤ 64 ∧ ∃ there, Step root ⟨node, segment :: rest⟩ there ∧
        walkAt root (depth + 1) there.node there.left = true := by
  unfold walkAt
  by_cases hd : depth ≤ 64
  · have hsteps : maxSteps - depth = maxSteps - (depth + 1) + 1 := by
      unfold maxSteps
      omega
    rw [hsteps, walk_succ_iff, and_iff_right hd]
  · have hnone : maxSteps - depth = 0 := by
      unfold maxSteps
      omega
    refine iff_of_false ?_ fun h => hd h.1
    rw [hnone]
    exact Bool.false_ne_true

/-- The only step from a node with a reference leads to the target. -/
theorem step_reference_iff {members : List (String × Json)} {reference : String} {target : Json}
    {left : List Segment} {there : Place}
    (hr : lookup? "$ref" members = some (.string reference))
    (ht : Json.reference? reference root = some target) :
    Step root ⟨.object members, left⟩ there ↔ there = ⟨target, left⟩ := by
  constructor
  · intro h
    cases h with
    | reference hr' ht' =>
      obtain rfl : _ = reference := by simpa [hr'] using hr
      rw [Option.some.inj (ht'.symm.trans ht)]
    | alternative hno | property hno | item hno | items hno =>
      -- Whatever else the node holds is hidden by the reference.
      exact absurd hr (hno reference)
  · rintro rfl
    exact .reference hr ht

theorem walkAt_reference {members : List (String × Json)} {reference : String} {target : Json}
    {path : List Segment} {depth : Nat} (hr : lookup? "$ref" members = some (.string reference))
    (ht : Json.reference? reference root = some target) (hpath : path ≠ []) (hd : depth ≤ 64) :
    walkAt root depth (.object members) path = walkAt root (depth + 1) target path := by
  obtain ⟨segment, rest, rfl⟩ := List.exists_cons_of_ne_nil hpath
  rw [Bool.eq_iff_iff, walkAt_cons_iff, and_iff_right hd]
  simp only [step_reference_iff hr ht, exists_eq_left]

/-- The reference that is written for the place of a node in a document names that node, and an
object with this reference has the paths of the node, one step deeper. -/
theorem reference_transparent (root node : Json) (edges : List Json.Edge)
    (h : root.Reaches edges node) :
    Json.reference? (Json.referenceTo edges) root = some node ∧
    ∀ members, lookup? "$ref" members = some (.string (Json.referenceTo edges)) →
      ∀ path, path ≠ [] → ∀ depth ≤ 64,
        walkAt root depth (.object members) path = walkAt root (depth + 1) node path := by
  have hnamed := Json.reference?_referenceTo h
  exact ⟨hnamed, fun members hr path hpath depth hd => walkAt_reference hr hnamed hpath hd⟩

/-- A document that refers from its root to a node below keys with what is escaped in references,
and below an empty one. -/
def oddlyNamed : Json :=
  .object [("$ref", .string "#/~01/1//a~1b"), ("properties", .object [("other", leaf)]),
    ("~1", .array [leaf, .object [("", .object [("a/b", objectNode [("name", leaf)])])]])]

theorem reference_transparent_oddlyNamed :
    oddlyNamed.Reaches [.member "~1", .item 1, .member "", .member "a/b"]
      (objectNode [("name", leaf)]) ∧
    Json.reference? "#/~01/1//a~1b" oddlyNamed = some (objectNode [("name", leaf)]) ∧
    resolves ⟨oddlyNamed⟩ ⟨[.key "name"]⟩ = true ∧
    walkAt oddlyNamed 64 oddlyNamed [.key "name"] = false := by
  have hreaches : oddlyNamed.Reaches [.member "~1", .item 1, .member "", .member "a/b"]
      (objectNode [("name", leaf)]) :=
    .member rfl (.item rfl (.member rfl (.member rfl .here)))
  have htext : Json.referenceTo [.member "~1", .item 1, .member "", .member "a/b"] =
      "#/~01/1//a~1b" := by decide +kernel
  obtain ⟨hnamed, hwalk⟩ := reference_transparent _ _ _ hreaches
  rw [htext] at hnamed hwalk
  have hroot : ∀ depth ≤ 64, walkAt oddlyNamed depth oddlyNamed [.key "name"] =
      walkAt oddlyNamed (depth + 1) (objectNode [("name", leaf)]) [.key "name"] :=
    hwalk _ rfl _ (List.cons_ne_nil _ _)
  refine ⟨hreaches, hnamed, ?_, ?_⟩
  · rw [resolves_eq_walkAt]
    exact (hroot 0 (Nat.zero_le 64)).trans (by decide +kernel)
  · exact (hroot 64 (Nat.le_refl 64)).trans (by decide +kernel)

end CompositionGen.Schema
