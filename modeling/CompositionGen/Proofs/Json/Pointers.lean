import CompositionGen.Json.Pointer
import CompositionGen.Proofs.Text.Numerals
import CompositionGen.Proofs.Text.Replacing
import CompositionGen.Proofs.Text.Splitting

/-!
# The nodes that references name

A node of a document is where edges lead to from the root: from an object to the member of a key,
from a list to the item of an index. Each edge is written as a step of a reference, and the steps
are read again as they were written, whatever characters the keys hold. So there is a reference to
every node.
-/

namespace CompositionGen

namespace Json

/-- An edge from a node of a document down to a child. -/
inductive Edge where
  /-- To the member of an object under a key. -/
  | member (key : String)
  /-- To the item of a list at an index. -/
  | item (index : Nat)
  deriving DecidableEq, Repr

/-- The edges lead from one node down to another. -/
inductive Reaches : Json → List Edge → Json → Prop where
  | here {node : Json} : Reaches node [] node
  | member {members : List (String × Json)} {key : String} {child node : Json}
      {edges : List Edge} :
      lookup? key members = some child → Reaches child edges node →
      Reaches (.object members) (.member key :: edges) node
  | item {items : List Json} {index : Nat} {child node : Json} {edges : List Edge} :
      items[index]? = some child → Reaches child edges node →
      Reaches (.array items) (.item index :: edges) node

/-- An edge as a step of a pointer, before anything is escaped. -/
def Edge.step : Edge → List Char
  | .member key => key.toList
  | .item index => Decimal.digitsOf index

/-- An edge as a step of a pointer: a key with its `~` and `/` escaped, or an index in decimal. -/
def Edge.written : Edge → List Char
  | .member key => escapeStep key.toList
  | .item index => Decimal.digitsOf index

/-- The reference to where the edges lead from the root: each step after a `/`. -/
def referenceTo (edges : List Edge) : String :=
  String.ofList ('#' :: (edges.map Edge.written).flatMap ('/' :: ·))

/-! ## Escaping keys -/

section Escaping

variable {step : List Char} {c : Char}

theorem not_slash_mem_escapeStep (key : List Char) : '/' ∉ escapeStep key := by
  intro h
  obtain ⟨c, -, hc⟩ := List.mem_flatMap.mp h
  split at hc
  · simp at hc
  · split at hc
    · simp at hc
    · rename_i hne
      exact hne (List.mem_singleton.mp hc).symm

/-- Nothing is escaped in a step without `~` and `/`. -/
theorem escapeStep_eq_self (h : ∀ c ∈ step, c ≠ '~' ∧ c ≠ '/') : escapeStep step = step := by
  induction step with
  | nil => rfl
  | cons c rest ih =>
    obtain ⟨⟨htilde, hslash⟩, hrest⟩ := List.forall_mem_cons.mp h
    rw [escapeStep, List.flatMap_cons, if_neg htilde, if_neg hslash]
    exact congrArg (c :: ·) (ih hrest)

/-- No escape begins with another character than `~`. -/
theorem not_prefix_of_ne_tilde (h : c ≠ '~') (d : Char) (text : List Char) :
    ¬['~', d] <+: c :: text :=
  fun hp => h (List.cons_prefix_cons.mp hp).1.symm

/-- With every `~1` undone, `~` is still escaped. What stands for it ends in `0`, so that no `~1`
begins there, not even where the key goes on with `1`. -/
theorem replace_escapeStep (key : List Char) :
    Text.replace ['~', '1'] ['/'] (escapeStep key) =
      key.flatMap fun c => if c = '~' then ['~', '0'] else [c] := by
  refine Text.replace_flatMap (fun c b => ?_) key
  by_cases htilde : c = '~'
  · have hzero : ¬['~', '1'] <+: '~' :: '0' :: b := by simp
    rw [if_pos htilde, if_pos htilde]
    show Text.replace _ _ ('~' :: '0' :: b) = _
    rw [Text.replace_cons hzero, Text.replace_cons (not_prefix_of_ne_tilde (by decide) _ _)]
    rfl
  · rw [if_neg htilde, if_neg htilde]
    by_cases hslash : c = '/'
    · rw [if_pos hslash, hslash]
      exact Text.replace_word (List.cons_ne_nil _ _) b
    · rw [if_neg hslash]
      exact Text.replace_cons (not_prefix_of_ne_tilde htilde _ _)

theorem unescapeStep_escapeStep (key : List Char) : unescapeStep (escapeStep key) = key := by
  rw [unescapeStep, replace_escapeStep]
  refine (Text.replace_flatMap (g := fun c => [c]) (fun c b => ?_) key).trans key.flatMap_singleton'
  by_cases htilde : c = '~'
  · rw [if_pos htilde, htilde]
    exact Text.replace_word (List.cons_ne_nil _ _) b
  · rw [if_neg htilde]
    exact Text.replace_cons (not_prefix_of_ne_tilde htilde _ _)

end Escaping

/-! ## Steps and edges -/

/-- What is read as an index are its decimal digits without leading zeros. -/
theorem stepIndex?_eq_some_iff {step : List Char} {n : Nat} :
    stepIndex? step = some n ↔ step = Decimal.digitsOf n := by
  have hindex : (Decimal.isNumeral step && (step.length = 1 || step.head? ≠ some '0')) = true ↔
      (step ≠ [] ∧ step.all Decimal.isDigit = true) ∧ Decimal.IsShortest step := by
    simp [Decimal.isNumeral, Decimal.isShortest_iff]
  rw [stepIndex?, Option.ite_none_right_eq_some, hindex, Option.some.injEq]
  constructor
  · rintro ⟨⟨⟨hne, hdigits⟩, hshortest⟩, rfl⟩
    exact ((Decimal.digitsOf_value_eq_iff hne hdigits).mpr hshortest).symm
  · rintro rfl
    exact ⟨⟨⟨Decimal.digitsOf_ne_nil n, Decimal.all_isDigit_digitsOf n⟩,
      Decimal.isShortest_digitsOf n⟩, Decimal.value_digitsOf n⟩

theorem Edge.written_eq (edge : Edge) : edge.written = escapeStep edge.step := by
  cases edge with
  | member key => rfl
  | item index =>
    refine (escapeStep_eq_self fun c hc => ?_).symm
    have hdigit := List.all_eq_true.mp (Decimal.all_isDigit_digitsOf index) c hc
    constructor
    · rintro rfl
      exact absurd hdigit (by decide)
    · rintro rfl
      exact absurd hdigit (by decide)

theorem Edge.not_slash_mem_written (edge : Edge) : '/' ∉ edge.written := by
  rw [edge.written_eq]
  exact not_slash_mem_escapeStep _

theorem unescapeStep_written (edge : Edge) : unescapeStep edge.written = edge.step := by
  rw [edge.written_eq, unescapeStep_escapeStep]

/-- Steps are followed to a node exactly if they are the steps of edges that lead to it. -/
theorem follow?_eq_some_iff {steps : List (List Char)} {root node : Json} :
    follow? steps root = some node ↔
      ∃ edges, root.Reaches edges node ∧ edges.map Edge.step = steps := by
  constructor
  · intro h
    induction steps generalizing root with
    | nil => exact ⟨[], Option.some.inj h ▸ .here, rfl⟩
    | cons step rest ih =>
      obtain ⟨child, hchild, hrest⟩ := Option.bind_eq_some_iff.mp h
      obtain ⟨edges, hreaches, rfl⟩ := ih hrest
      cases root with
      | object members =>
        refine ⟨.member (String.ofList step) :: edges, .member hchild hreaches, ?_⟩
        rw [List.map_cons, Edge.step, String.toList_ofList]
      | array items =>
        obtain ⟨index, hindex, hitem⟩ := Option.bind_eq_some_iff.mp hchild
        refine ⟨.item index :: edges, .item hitem hreaches, ?_⟩
        rw [List.map_cons, Edge.step, stepIndex?_eq_some_iff.mp hindex]
      | _ => cases hchild
  · rintro ⟨edges, h, rfl⟩
    induction h with
    | here => rfl
    | @member members key child node edges hl _ ih =>
      refine Option.bind_eq_some_iff.mpr ⟨child, ?_, ih⟩
      rw [Edge.step, child?, String.ofList_toList, hl]
    | @item items index child node edges hi _ ih =>
      refine Option.bind_eq_some_iff.mpr ⟨child, ?_, ih⟩
      exact Option.bind_eq_some_iff.mpr ⟨index, stepIndex?_eq_some_iff.mpr rfl, hi⟩

/-- Where edges lead from the root, there the reference that is written for them leads. -/
theorem reference?_referenceTo {root node : Json} {edges : List Edge}
    (h : root.Reaches edges node) : reference? (referenceTo edges) root = some node := by
  have hfollow : follow? (edges.map Edge.step) root = some node :=
    follow?_eq_some_iff.mpr ⟨edges, h, rfl⟩
  rw [reference?, referenceTo, String.toList_ofList]
  cases edges with
  | nil => exact hfollow
  | cons edge edges =>
    have hslash : ∀ step ∈ edges.map Edge.written, '/' ∉ step := by
      simp only [List.forall_mem_map]
      exact fun other _ => other.not_slash_mem_written
    have hread : unescapeStep ∘ Edge.written = Edge.step := funext unescapeStep_written
    calc
      follow? ((Text.split '/' (edge.written ++ (edges.map Edge.written).flatMap ('/' :: ·))).map
          unescapeStep) root
        = follow? (((edge :: edges).map Edge.written).map unescapeStep) root := by
          rw [Text.split_append_flatMap edge.not_slash_mem_written hslash, ← List.map_cons]
      _ = some node := by rw [List.map_map, hread, hfollow]

end Json

end CompositionGen
