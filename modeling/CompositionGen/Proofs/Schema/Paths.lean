import CompositionGen.Proofs.FieldPath.Matching
import CompositionGen.Proofs.Schema.Trails
import CompositionGen.Schema.Node

/-!
# The paths that exist in schemas

Where a path exists, so does every path that it begins with, and so does every path that matches it:
a schema does not see how a step is spelled. Nothing else is the same for all schemas. Of two paths
that do not match, a schema made of the steps of one of them tells them apart, as long as a walk can
take that many steps at all.
-/

namespace CompositionGen

namespace Schema

variable {root : Json}

/-! ## Beginnings of a path -/

/-- A step that is taken with more behind the path is taken without it as well. -/
theorem Step.of_append {node : Json} {segment : Segment} {p q : List Segment} {there : Place}
    (h : Step root ⟨node, segment :: p ++ q⟩ there) :
    ∃ left, there.left = left ++ q ∧ Step root ⟨node, segment :: p⟩ ⟨there.node, left⟩ := by
  cases h with
  | reference hr ht => exact ⟨segment :: p, rfl, .reference hr ht⟩
  | alternative hn hc hl hm => exact ⟨segment :: p, rfl, .alternative hn hc hl hm⟩
  | property hn hs hp hl => exact ⟨p, rfl, .property hn hs hp hl⟩
  | item hn hi hl => exact ⟨p, rfl, .item hn hi hl⟩
  | items hn hi hl => exact ⟨p, rfl, .items hn hi hl⟩

/-- A walk along a path passes the end of every path that it begins with. The walk along the longer
path is followed, wherever it goes, so that nothing has to be found again. -/
theorem walk_of_append {steps : Nat} {node : Json} {p q : List Segment}
    (h : walk root steps node (p ++ q) = true) : walk root steps node p = true := by
  induction steps generalizing node p with
  | zero =>
    cases p with
    | nil => rfl
    | cons segment p => simp [walk] at h
  | succ steps ih =>
    cases p with
    | nil => rfl
    | cons segment p =>
      obtain ⟨there, hstep, hwalk⟩ := walk_succ_iff.mp h
      obtain ⟨left, hleft, hstep'⟩ := Step.of_append hstep
      rw [hleft] at hwalk
      exact walk_succ_iff.mpr ⟨_, hstep', ih hwalk⟩

/-- Where a path resolves, so does every path that it begins with. -/
theorem resolves_of_append (schema : Schema) (p q : List Segment)
    (h : schema.resolves ⟨p ++ q⟩ = true) : schema.resolves ⟨p⟩ = true :=
  walk_of_append h

/-- A document that refers to itself below an alternative, so that a walk goes round before it
comes to the list of items. -/
def windingDocument : Json :=
  .object [("anyOf", .array [leaf, objectNode [("next", sharedNode "again")]]),
    ("definitions", .object [("again", .object [("allOf", .array [.object [("$ref", .string "#")],
      .object [("items", .array [leaf, objectNode [("name", leaf)]])]])])])]

theorem resolves_windingDocument_start :
    resolves ⟨windingDocument⟩ ⟨[.field "next", .key "next"] ++ [.index 1, .field "name"]⟩ = true ∧
    resolves ⟨windingDocument⟩ ⟨[.field "next", .key "next"]⟩ = true := by
  have hlong : resolves ⟨windingDocument⟩
      ⟨[.field "next", .key "next"] ++ [.index 1, .field "name"]⟩ = true := by decide +kernel
  exact ⟨hlong, resolves_of_append _ _ _ hlong⟩

/-! ## Spellings of a path -/

theorem child?_congr {members : List (String × Json)} {s t : Segment}
    (h : s.address = t.address) : child? members s = child? members t := by
  cases s <;> cases t <;> simp only [Segment.address, reduceCtorEq, Sum.inl.injEq,
    Sum.inr.injEq] at h <;> subst h <;> rfl

/-- A walk looks at what the steps of a path address, not at their spelling. -/
theorem walk_congr (root : Json) {steps : Nat} {node : Json} {left left' : List Segment}
    (h : left.map Segment.address = left'.map Segment.address) :
    walk root steps node left = walk root steps node left' := by
  induction steps generalizing node left left' with
  | zero =>
    cases left with
    | nil => cases left' with
      | nil => rfl
      | cons => cases h
    | cons => cases left' with
      | nil => cases h
      | cons => rfl
  | succ steps ih =>
    cases left with
    | nil => cases left' with
      | nil => rfl
      | cons => cases h
    | cons s rest => cases left' with
      | nil => cases h
      | cons t rest' =>
        obtain ⟨hhead, hrest⟩ := List.cons.inj h
        have alike : ∀ next, walk root steps next (s :: rest) = walk root steps next (t :: rest') :=
          fun _ => ih h
        have below : ∀ next, walk root steps next rest = walk root steps next rest' :=
          fun _ => ih hrest
        cases node with
        | object members => simp only [walk, child?_congr hhead, alike, below]
        | _ => rfl

theorem resolves_congr (schema : Schema) {p q : FieldPath} (h : p.addresses = q.addresses) :
    schema.resolves p = schema.resolves q :=
  walk_congr schema.root h

/-! ## Long paths -/

/-- A step consumes at most one step of the path. -/
theorem Step.length_le {here there : Place} (h : Step root here there) :
    here.left.length ≤ there.left.length + 1 := by
  cases h with
  | reference | alternative => exact Nat.le_succ _
  | property | item | items => exact Nat.le_refl _

theorem Trail.length_le {n : Nat} {here : Place} (h : Trail root n here) :
    here.left.length ≤ n := by
  induction h with
  | arrived => exact Nat.le_refl 0
  | step hstep _ ih => exact Nat.le_trans hstep.length_le (Nat.succ_le_succ ih)

theorem length_le_of_walk {steps : Nat} {node : Json} {left : List Segment}
    (h : walk root steps node left = true) : left.length ≤ steps := by
  obtain ⟨n, hn, htrail⟩ := walk_iff_trail.mp h
  exact Nat.le_trans htrail.length_le hn

/-! ## Schemas made of a path -/

/-- A document in which a path exists, and besides its beginnings only paths that end at an earlier
item of a list that it passes. -/
def along : List Segment → Json
  | [] => leaf
  | .field name :: rest | .key name :: rest => objectNode [(name, along rest)]
  | .index n :: rest => .object [("items", .array (List.replicate n .null ++ [along rest]))]

/-- What a node that is made for a step leads to by any step. -/
theorem child?_along (s : Segment) (p : List Segment) :
    ∃ members, along (s :: p) = .object members ∧ refOf? members = none ∧
      alternatives members = [] ∧
      ∀ t next, child? members t = some next ↔
        (s.address = t.address ∧ next = along p) ∨
          ∃ n m, s = .index n ∧ t = .index m ∧ m < n ∧ next = .null := by
  have named : ∀ name, s = .field name ∨ s = .key name → ∀ t next,
      child? [("properties", .object [(name, along p)])] t = some next ↔
        (s.address = t.address ∧ next = along p) ∨
          ∃ n m, s = .index n ∧ t = .index m ∧ m < n ∧ next = .null := by
    rintro name (rfl | rfl) t next <;> cases t <;>
      simp [child?, lookup?, Json.member?, Segment.address, eq_comm]
  cases s with
  | field name => exact ⟨_, rfl, rfl, rfl, named name (Or.inl rfl)⟩
  | key name => exact ⟨_, rfl, rfl, rfl, named name (Or.inr rfl)⟩
  | index n =>
    refine ⟨_, rfl, rfl, rfl, fun t next => ?_⟩
    cases t with
    | field name => simp [child?, lookup?, Segment.address]
    | key name => simp [child?, lookup?, Segment.address]
    | index m =>
      show (List.replicate n .null ++ [along p])[m]? = some next ↔ _
      rcases Nat.lt_trichotomy m n with hlt | rfl | hlt
      · rw [List.getElem?_append_left (by simpa using hlt), List.getElem?_replicate, if_pos hlt]
        simp [Segment.address, hlt, Nat.ne_of_gt hlt, eq_comm]
      · simp [Segment.address, eq_comm]
      · have hnone : (List.replicate n .null ++ [along p])[m]? = none := by simp; omega
        simp [hnone, Segment.address, Nat.ne_of_lt hlt, Nat.lt_asymm hlt]

theorem step_along_iff {s t : Segment} {p q : List Segment} {there : Place} :
    Step root ⟨along (s :: p), t :: q⟩ there ↔
      (s.address = t.address ∧ there = ⟨along p, q⟩) ∨
        ∃ n m, s = .index n ∧ t = .index m ∧ m < n ∧ there = ⟨.null, q⟩ := by
  obtain ⟨members, hnode, href, halt, hchild⟩ := child?_along s p
  rw [step_iff, hnode]
  simp only [Json.object.injEq, exists_eq_left', href, halt, hchild]
  constructor
  · rintro (⟨next, hmem, -⟩ | ⟨next, ⟨hs, rfl⟩ | ⟨n, m, hn, hm, hlt, rfl⟩, rfl⟩)
    · cases hmem
    · exact Or.inl ⟨hs, rfl⟩
    · exact Or.inr ⟨n, m, hn, hm, hlt, rfl⟩
  · rintro (⟨hs, rfl⟩ | ⟨n, m, hn, hm, hlt, rfl⟩)
    · exact Or.inr ⟨_, Or.inl ⟨hs, rfl⟩, rfl⟩
    · exact Or.inr ⟨_, Or.inr ⟨n, m, hn, hm, hlt, rfl⟩, rfl⟩

/-- A path exists in the document that is made of its steps. -/
theorem walk_along_self {steps : Nat} {p : List Segment} (h : p.length ≤ steps) :
    walk root steps (along p) p = true := by
  induction steps generalizing p with
  | zero =>
    obtain rfl := List.length_eq_zero_iff.mp (Nat.le_zero.mp h)
    rfl
  | succ steps ih =>
    cases p with
    | nil => rfl
    | cons s p =>
      have hstep : Step root ⟨along (s :: p), s :: p⟩ ⟨along p, p⟩ :=
        step_along_iff.mpr (Or.inl ⟨rfl, rfl⟩)
      exact walk_succ_iff.mpr ⟨_, hstep, ih (Nat.le_of_succ_le_succ h)⟩

theorem exists_step_of_walk {steps : Nat} {node : Json} {segment : Segment} {rest : List Segment}
    (h : walk root steps node (segment :: rest) = true) :
    ∃ k there, Step root ⟨node, segment :: rest⟩ there ∧
      walk root k there.node there.left = true := by
  cases steps with
  | zero => simp [walk] at h
  | succ k =>
    obtain ⟨there, hstep, hwalk⟩ := walk_succ_iff.mp h
    exact ⟨k, there, hstep, hwalk⟩

/-- Nothing lies below a node without members. -/
theorem eq_nil_of_walk_leaf {steps : Nat} {p : List Segment}
    (h : walk root steps leaf p = true) : p = [] := by
  cases p with
  | nil => rfl
  | cons s p =>
    obtain ⟨_, _, hstep, -⟩ := exists_step_of_walk h
    cases hstep with
    | reference hl | alternative _ _ hl | property _ _ hl | item _ hl | items _ hl => cases hl

theorem of_walk_along_cons {steps : Nat} {s t : Segment} {p q : List Segment}
    (h : walk root steps (along (s :: p)) (t :: q) = true) :
    (s.address = t.address ∧ ∃ k, walk root k (along p) q = true) ∨
      ∃ n m, s = .index n ∧ t = .index m ∧ m < n := by
  obtain ⟨k, there, hstep, hwalk⟩ := exists_step_of_walk h
  rcases step_along_iff.mp hstep with ⟨hs, rfl⟩ | ⟨n, m, hn, hm, hlt, -⟩
  · exact Or.inl ⟨hs, k, hwalk⟩
  · exact Or.inr ⟨n, m, hn, hm, hlt⟩

/-- Two paths match if each of them exists in the document made of the other: where they begin to
differ, one of the two documents has no way on. -/
theorem addresses_eq_of_walk_along {root' : Json} {steps steps' : Nat} {p q : List Segment}
    (h : walk root steps (along p) q = true) (h' : walk root' steps' (along q) p = true) :
    p.map Segment.address = q.map Segment.address := by
  induction p generalizing q steps steps' with
  | nil => rw [eq_nil_of_walk_leaf h]
  | cons s p ih =>
    cases q with
    | nil => cases eq_nil_of_walk_leaf h'
    | cons t q =>
      rcases of_walk_along_cons h with ⟨hs, k, hwalk⟩ | ⟨n, m, rfl, rfl, hlt⟩
      · rcases of_walk_along_cons h' with ⟨-, k', hwalk'⟩ | ⟨n, m, rfl, rfl, hlt⟩
        · rw [List.map_cons, List.map_cons, hs, ih hwalk hwalk']
        · exact absurd (Sum.inr.inj hs) (Nat.ne_of_lt hlt)
      · rcases of_walk_along_cons h' with ⟨hs, -⟩ | ⟨n', m', hn, hm, hlt'⟩
        · exact absurd (Sum.inr.inj hs) (Nat.ne_of_lt hlt)
        · cases hn
          cases hm
          exact absurd hlt (Nat.lt_asymm hlt')

theorem resolves_along {p : FieldPath} (h : p.size ≤ maxSteps) :
    resolves ⟨along p.segments⟩ p = true :=
  walk_along_self h

theorem resolves_eq_false {p : FieldPath} (schema : Schema) (h : maxSteps < p.size) :
    schema.resolves p = false := by
  rw [Bool.eq_false_iff]
  intro hwalk
  exact absurd (length_le_of_walk hwalk) (Nat.not_le.mpr h)

/-- A path that is no longer than a walk matches all paths that exist wherever it exists and nowhere
else. -/
theorem matches_of_indistinguishable {p q : FieldPath} (hp : p.size ≤ maxSteps)
    (h : ∀ schema : Schema, schema.resolves p = schema.resolves q) : p.Matches q = true := by
  have hq : resolves ⟨along p.segments⟩ q = true := (h _).symm.trans (resolves_along hp)
  have hback : resolves ⟨along q.segments⟩ p = true :=
    (h _).trans (resolves_along (length_le_of_walk hq))
  refine FieldPath.matches_iff.mpr ?_
  exact addresses_eq_of_walk_along hq hback

/-- Two paths exist in the same schemas exactly when they match or are both longer than any walk. -/
theorem indistinguishable_iff {p q : FieldPath} :
    (∀ schema : Schema, schema.resolves p = schema.resolves q) ↔
      p.Matches q = true ∨ maxSteps < p.size ∧ maxSteps < q.size := by
  constructor
  · intro h
    by_cases hp : p.size ≤ maxSteps
    · exact Or.inl (matches_of_indistinguishable hp h)
    · refine Or.inr ⟨Nat.not_le.mp hp, Nat.not_le.mp fun hq => hp ?_⟩
      exact length_le_of_walk ((h _).trans (resolves_along hq))
  · rintro (h | ⟨hp, hq⟩) schema
    · exact schema.resolves_congr (FieldPath.matches_iff.mp h)
    · rw [resolves_eq_false schema hp, resolves_eq_false schema hq]

end Schema

theorem FieldPath.equivalence_matches :
    Equivalence fun p q : FieldPath => p.Matches q = true := by
  simp only [matches_iff]
  exact ⟨fun _ => rfl, Eq.symm, Eq.trans⟩

/-- Matching is an equivalence of paths, and it is what schemas see of them: paths that match exist
in the same schemas, and of two paths of at most 65 steps that do not match there is a schema in
which just one exists. -/
theorem FieldPath.matches_indistinguishable :
    (Equivalence fun p q : FieldPath => p.Matches q = true) ∧
    (∀ p q : FieldPath, p.Matches q = true → ∀ schema : Schema,
      schema.resolves p = schema.resolves q) ∧
    (∀ p q : FieldPath, p.segments.length ≤ 65 → q.segments.length ≤ 65 → p.Matches q = false →
      ∃ schema : Schema, schema.resolves p ≠ schema.resolves q) := by
  refine ⟨equivalence_matches, fun p q h => Schema.indistinguishable_iff.mpr (Or.inl h), ?_⟩
  intro p q hp _ hmatch
  by_contra hnone
  rw [not_exists] at hnone
  have h := Schema.matches_of_indistinguishable hp fun schema => not_not.mp (hnone schema)
  exact Bool.false_ne_true (hmatch.symm.trans h)

theorem FieldPath.matches_indistinguishable_items :
    (∀ schema : Schema, schema.resolves ⟨[.field "rules", .index 7]⟩ =
      schema.resolves ⟨[.key "rules", .index 7]⟩) ∧
    ∃ schema : Schema, schema.resolves ⟨[.field "rules", .index 7, .key "verbs"]⟩ ≠
      schema.resolves ⟨[.field "rules", .index 3, .key "verbs"]⟩ := by
  obtain ⟨-, same, other⟩ := matches_indistinguishable
  exact ⟨same _ _ (by decide), other _ _ (by decide) (by decide) (by decide)⟩

end CompositionGen
